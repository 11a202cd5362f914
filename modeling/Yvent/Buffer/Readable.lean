import Yvent.Misc.Bytes

/-!
# The readable bytes of a buffer

`Buffer` keeps its content between `readerIndex_` and `writerIndex_`. The parsers see only that
content, here a list of bytes: `append` adds at the end, `retrieveUntil` drops from the front and
`findCRLF` is the offset of the first line end from `peek()`.
-/

namespace Yvent.Buffer

/-- The line end. -/
def kCRLF : Bytes := [CR, LF]

/-- `std::search(peek(), beginWrite(), kCRLF, kCRLF+2)`: the offset of the first `"\r\n"`. -/
def findCRLF : Bytes → Option Nat
  | c :: d :: rest =>
    if c = CR ∧ d = LF then some 0 else (findCRLF (d :: rest)).map (· + 1)
  | _ => none

/-- `retrieveUntil(peek() + len)`. -/
def retrieveUntil (readable : Bytes) (len : Nat) : Bytes := readable.drop len

/-- A text that fits on one line. -/
def OneLine (line : Bytes) : Prop := findCRLF line = none

instance (line : Bytes) : Decidable (OneLine line) := inferInstanceAs (Decidable (_ = _))

theorem findCRLF_cons_cons (c d : UInt8) (rest : Bytes) :
    findCRLF (c :: d :: rest) =
      if c = CR ∧ d = LF then some 0 else (findCRLF (d :: rest)).map (· + 1) := rfl

theorem findCRLF_cons_of_ne {c : UInt8} (other : c ≠ CR) (rest : Bytes) :
    findCRLF (c :: rest) = (findCRLF rest).map (· + 1) := by
  cases rest with
  | nil => rfl
  | cons d rest => rw [findCRLF_cons_cons, if_neg fun both => other both.1]

/-- A line is found together with its own end, whatever follows. -/
theorem findCRLF_line {line : Bytes} (oneLine : OneLine line) (rest : Bytes) :
    findCRLF (line ++ (kCRLF ++ rest)) = some line.length := by
  induction line with
  | nil => rfl
  | cons c line ih =>
    cases line with
    | nil =>
      -- the only byte may be a CR of its own, which the line's end follows
      by_cases cr : c = CR
      · subst cr
        rfl
      · rw [List.singleton_append, findCRLF_cons_of_ne cr]
        rfl
    | cons d line =>
      rw [OneLine, findCRLF_cons_cons] at oneLine
      split at oneLine
      · cases oneLine
      · next other =>
        have tail : OneLine (d :: line) := Option.map_eq_none_iff.mp oneLine
        have found := ih tail
        rw [List.cons_append] at found
        rw [List.cons_append, List.cons_append, findCRLF_cons_cons, if_neg other, found]
        rfl

/-- What `findCRLF` finds is the end of the first line. -/
theorem line_of_findCRLF {readable : Bytes} {n : Nat} (found : findCRLF readable = some n) :
    ∃ line rest, readable = line ++ (kCRLF ++ rest) ∧ line.length = n ∧ OneLine line := by
  induction readable generalizing n with
  | nil => cases found
  | cons c readable ih =>
    cases readable with
    | nil => cases found
    | cons d readable =>
      rw [findCRLF_cons_cons] at found
      split at found
      · next ends =>
        obtain ⟨rfl, rfl⟩ := ends
        cases found
        exact ⟨[], readable, rfl, rfl, rfl⟩
      · next other =>
        obtain ⟨m, inTail, rfl⟩ := Option.map_eq_some_iff.mp found
        obtain ⟨line, rest, split, rfl, oneLine⟩ := ih inTail
        refine ⟨c :: line, rest, by rw [split, List.cons_append], rfl, ?_⟩
        cases line with
        | nil => rfl
        | cons e line =>
          cases split
          rw [OneLine, findCRLF_cons_cons, if_neg other]
          exact Option.map_eq_none_iff.mpr oneLine

/-- A text has one first line. -/
theorem line_inj {line line' rest rest' : Bytes} (oneLine : OneLine line)
    (oneLine' : OneLine line') (same : line ++ (kCRLF ++ rest) = line' ++ (kCRLF ++ rest')) :
    line = line' ∧ rest = rest' := by
  have found := findCRLF_line oneLine rest
  rw [same, findCRLF_line oneLine' rest'] at found
  obtain ⟨rfl, ends⟩ := List.append_inj same (Option.some.inj found).symm
  exact ⟨rfl, List.append_cancel_left ends⟩

/-- Bytes that arrive later do not move the first line end. -/
theorem findCRLF_append {readable : Bytes} {n : Nat} (found : findCRLF readable = some n)
    (later : Bytes) : findCRLF (readable ++ later) = some n := by
  obtain ⟨line, rest, rfl, rfl, oneLine⟩ := line_of_findCRLF found
  rw [List.append_assoc, List.append_assoc]
  exact findCRLF_line oneLine (rest ++ later)

theorem length_of_findCRLF {readable : Bytes} {n : Nat} (found : findCRLF readable = some n) :
    n + 2 ≤ readable.length := by
  obtain ⟨line, rest, rfl, rfl, -⟩ := line_of_findCRLF found
  simp only [List.length_append, kCRLF, List.length_cons, List.length_nil]
  omega

@[simp] theorem retrieveUntil_line (line rest : Bytes) :
    retrieveUntil (line ++ (kCRLF ++ rest)) (line.length + 2) = rest := by
  rw [retrieveUntil, ← List.append_assoc]
  exact List.drop_left' (by rw [List.length_append]; rfl)

end Yvent.Buffer
