import Mathlib.Data.List.Basic

/-!
# Byte strings

The program handles texts as ranges of `char`; they are lists of bytes here. `splitAtByte` is
`std::find` together with the two ranges the callers form from its result.
-/

namespace Yvent

/-- A string of the source, or a range of a buffer. -/
abbrev Bytes := List UInt8

/-- The bytes of an ASCII text. -/
def ascii (text : List Char) : Bytes := text.map fun c => c.toNat.toUInt8

/-- `%d` and `%u`. -/
def decimal (n : Nat) : List Char := Nat.toDigits 10 n

/-- Carriage return. -/
def CR : UInt8 := 13
/-- Line feed. -/
def LF : UInt8 := 10
/-- The blank. -/
def SP : UInt8 := 32
/-- The question mark. -/
def QUESTION : UInt8 := 63
/-- The colon. -/
def COLON : UInt8 := 58
/-- The percent sign. -/
def PERCENT : UInt8 := 37

/-- The bytes before the first `c` and the bytes after it. -/
def splitAtByte (c : UInt8) : Bytes → Option (Bytes × Bytes)
  | [] => none
  | b :: rest =>
    if b = c then some ([], rest) else (splitAtByte c rest).map fun (x, y) => (b :: x, y)

theorem splitAtByte_append {c : UInt8} {before : Bytes} (after : Bytes) (absent : c ∉ before) :
    splitAtByte c (before ++ c :: after) = some (before, after) := by
  induction before with
  | nil => simp [splitAtByte]
  | cons b before ih =>
    obtain ⟨other, absent⟩ := List.ne_and_not_mem_of_not_mem_cons absent
    rw [List.cons_append, splitAtByte, if_neg other.symm, ih absent]
    rfl

theorem eq_of_splitAtByte {c : UInt8} {bs before after : Bytes}
    (cut : splitAtByte c bs = some (before, after)) : bs = before ++ c :: after ∧ c ∉ before := by
  induction bs generalizing before with
  | nil => cases cut
  | cons b bs ih =>
    rw [splitAtByte] at cut
    split at cut
    · next here =>
      cases cut
      exact ⟨by rw [here, List.nil_append], List.not_mem_nil⟩
    · next other =>
      obtain ⟨⟨x, y⟩, inTail, same⟩ := Option.map_eq_some_iff.mp cut
      cases same
      obtain ⟨rfl, absent⟩ := ih inTail
      refine ⟨rfl, fun mem => ?_⟩
      rcases List.mem_cons.mp mem with rfl | mem
      · exact other rfl
      · exact absent mem

theorem splitAtByte_eq_none {c : UInt8} {bs : Bytes} (absent : c ∉ bs) :
    splitAtByte c bs = none := by
  induction bs with
  | nil => rfl
  | cons b bs ih =>
    obtain ⟨other, absent⟩ := List.ne_and_not_mem_of_not_mem_cons absent
    rw [splitAtByte, if_neg other.symm, ih absent]
    rfl

theorem exists_splitAtByte {c : UInt8} {bs : Bytes} (present : c ∈ bs) :
    ∃ before after, splitAtByte c bs = some (before, after) := by
  obtain ⟨before, after, rfl, absent⟩ := List.eq_append_cons_of_mem present
  exact ⟨before, after, splitAtByte_append after absent⟩

@[simp] theorem splitAtByte_nil (c : UInt8) : splitAtByte c [] = none := rfl

end Yvent
