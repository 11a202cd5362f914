import Yvent.Misc.Bytes
import Mathlib.Algebra.Ring.Nat

/-!
# Decimal numbers

The text that `%d` and `%u` make of a number is read back digit by digit. What `k` digits stand for
is less than `10 ^ k`.
-/

namespace Yvent

variable {n k : Nat} {text : Bytes}

theorem length_decimal (positive : 0 < k) (bound : n < 10 ^ k) : (decimal n).length ≤ k :=
  (Nat.length_toDigits_le_iff (by decide) positive).mpr bound

theorem decimal_injective {m n : Nat} (same : decimal m = decimal n) : m = n := by
  have value := congrArg (fun digits => Nat.ofDigitChars 10 digits 0) same
  simpa [decimal] using value

theorem isDigit_of_mem_decimal {c : Char} (mem : c ∈ decimal n) : c.isDigit = true :=
  Nat.isDigit_of_mem_toDigits (by decide) (by decide) mem

theorem decimal_ne_nil : decimal n ≠ [] := by
  intro none
  have positive : 0 < (decimal n).length := Nat.length_toDigits_pos
  rw [none] at positive
  exact Nat.lt_irrefl _ positive

/-- One more digit behind those that have given `n`. -/
def addDigit (n : Nat) (b : UInt8) : Option Nat :=
  if 48 ≤ b ∧ b ≤ 57 then some (10 * n + (b.toNat - 48)) else none

/-- The value of a text of one or more digits. -/
def decimalValue (text : Bytes) : Option Nat :=
  if text = [] then none else text.foldlM addDigit 0

theorem toUInt8_of_isDigit {c : Char} (digit : c.isDigit = true) :
    c.toNat.toUInt8.toNat = c.toNat ∧ 48 ≤ c.toNat.toUInt8 ∧ c.toNat.toUInt8 ≤ 57 := by
  obtain ⟨low, high⟩ := Char.isDigit_iff_toNat.mp digit
  have value : c.toNat.toUInt8.toNat = c.toNat := by
    have small : c.toNat < 256 := Nat.lt_of_le_of_lt high (by decide)
    rw [Nat.toUInt8_eq, UInt8.toNat_ofNat']
    exact Nat.mod_eq_of_lt small
  rw [UInt8.le_iff_toNat_le, UInt8.le_iff_toNat_le, value]
  exact ⟨rfl, low, high⟩

theorem addDigit_ascii {c : Char} (digit : c.isDigit = true) (n : Nat) :
    addDigit n c.toNat.toUInt8 = some (10 * n + (c.toNat - '0'.toNat)) := by
  obtain ⟨value, range⟩ := toUInt8_of_isDigit digit
  rw [addDigit, if_pos range, value]
  rfl

theorem foldlM_ascii {digits : List Char} (all : ∀ c ∈ digits, c.isDigit = true) (n : Nat) :
    (ascii digits).foldlM addDigit n = some (Nat.ofDigitChars 10 digits n) := by
  induction digits generalizing n with
  | nil => rfl
  | cons c digits ih =>
    obtain ⟨first, others⟩ := List.forall_mem_cons.mp all
    rw [ascii, List.map_cons, List.foldlM_cons, addDigit_ascii first, Option.bind_eq_bind,
      Option.bind_some, Nat.ofDigitChars_cons]
    exact ih others _

/-- A number is read back from its text. -/
theorem decimalValue_decimal (n : Nat) : decimalValue (ascii (decimal n)) = some n := by
  have nonempty : ascii (decimal n) ≠ [] := by simp [ascii, decimal_ne_nil]
  rw [decimalValue, if_neg nonempty, foldlM_ascii fun c => isDigit_of_mem_decimal]
  simp [decimal]

theorem lt_of_foldlM {m : Nat} (value : text.foldlM addDigit m = some n) :
    n < (m + 1) * 10 ^ text.length := by
  induction text generalizing m with
  | nil =>
    cases value
    simp
  | cons b text ih =>
    rw [List.foldlM_cons, Option.bind_eq_bind] at value
    obtain ⟨next, digit, value⟩ := Option.bind_eq_some_iff.mp value
    have bound := ih value
    have small : next + 1 ≤ (m + 1) * 10 := by
      unfold addDigit at digit
      split at digit
      · next range =>
        cases digit
        have := UInt8.le_iff_toNat_le.mp range.2
        simp at this
        omega
      · cases digit
    calc n < (next + 1) * 10 ^ text.length := bound
      _ ≤ (m + 1) * 10 * 10 ^ text.length := Nat.mul_le_mul_right _ small
      _ = (m + 1) * 10 ^ (b :: text).length := by
        rw [List.length_cons, Nat.pow_succ, Nat.mul_assoc, Nat.mul_comm 10]

theorem lt_of_decimalValue (value : decimalValue text = some n) : n < 10 ^ text.length := by
  unfold decimalValue at value
  split at value
  · cases value
  · have bound := lt_of_foldlM value
    rwa [Nat.zero_add, Nat.one_mul] at bound

end Yvent
