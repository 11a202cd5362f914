import Mathlib.Data.List.Sort
import Mathlib.Data.List.TakeWhile
import Mathlib.Data.Prod.Lex

/-!
# Ordered sets

A finite set over a linear order, kept as a strictly increasing list: what `std::set` offers to a
program that inserts, erases, looks at the first element and cuts the set at a lower bound. The
invariant is a field, so every operation proves it once.
-/

namespace Yvent

universe u

/-- A finite subset of `α` in increasing order. -/
structure OrderedSet (α : Type u) [LinearOrder α] where
  toList : List α
  sorted : toList.Pairwise (· < ·)

namespace OrderedSet

variable {α : Type u} [LinearOrder α] {s : OrderedSet α} {x y : α}

instance : Membership α (OrderedSet α) := ⟨fun s x => x ∈ s.toList⟩

theorem mem_def : x ∈ s ↔ x ∈ s.toList := Iff.rfl

instance : Decidable (x ∈ s) := inferInstanceAs (Decidable (x ∈ s.toList))

/-- The set without elements. -/
def empty : OrderedSet α := ⟨[], List.Pairwise.nil⟩

theorem nodup (s : OrderedSet α) : s.toList.Nodup :=
  s.sorted.imp fun less => ne_of_lt less

/-- The strictly increasing list of a new element and a set. -/
theorem sorted_orderedInsert {l : List α} (sorted : l.Pairwise (· < ·)) (new : x ∉ l) :
    (l.orderedInsert (· ≤ ·) x).Pairwise (· < ·) := by
  have weak : l.Pairwise (· ≤ ·) := sorted.imp le_of_lt
  have distinct : (l.orderedInsert (· ≤ ·) x).Nodup := by
    rw [(l.perm_orderedInsert (· ≤ ·) x).nodup_iff]
    exact List.nodup_cons.mpr ⟨new, sorted.imp fun less => ne_of_lt less⟩
  exact (weak.orderedInsert x l).imp₂ (fun _ _ le ne => lt_of_le_of_ne le ne) distinct

/-- `insert`: no effect when the element is present. -/
def insert (s : OrderedSet α) (x : α) : OrderedSet α :=
  if new : x ∈ s.toList then s
  else ⟨s.toList.orderedInsert (· ≤ ·) x, sorted_orderedInsert s.sorted new⟩

@[simp] theorem mem_insert : y ∈ s.insert x ↔ y = x ∨ y ∈ s := by
  unfold insert
  split
  · rename_i present
    constructor
    · exact .inr
    · rintro (rfl | member)
      · exact present
      · exact member
  · exact List.mem_orderedInsert _

theorem toList_insert_perm (new : x ∉ s) : (s.insert x).toList.Perm (x :: s.toList) := by
  have absent : x ∉ s.toList := new
  simp only [insert, dif_neg absent]
  exact s.toList.perm_orderedInsert (· ≤ ·) x

/-- `erase`: no effect when the element is absent. -/
def erase (s : OrderedSet α) (x : α) : OrderedSet α :=
  ⟨s.toList.erase x, s.sorted.sublist List.erase_sublist⟩

@[simp] theorem mem_erase : y ∈ s.erase x ↔ y ≠ x ∧ y ∈ s :=
  s.nodup.mem_erase_iff

theorem toList_perm_erase (member : x ∈ s) : s.toList.Perm (x :: (s.erase x).toList) :=
  List.perm_cons_erase member

/-- `*begin()`, if the set is not empty. -/
def begin? (s : OrderedSet α) : Option α := s.toList.head?

theorem mem_of_begin? (first : s.begin? = some x) : x ∈ s :=
  List.mem_of_mem_head? first

theorem begin?_le (first : s.begin? = some x) (member : y ∈ s) : x ≤ y := by
  obtain ⟨l, sorted⟩ := s
  cases l with
  | nil => cases first
  | cons head tail =>
    obtain rfl : head = x := by simpa [begin?] using first
    rcases List.mem_cons.mp member with rfl | later
    · exact le_refl _
    · exact le_of_lt (List.rel_of_pairwise_cons sorted later)

theorem begin?_eq_none : s.begin? = none ↔ s.toList = [] := List.head?_eq_none_iff

/-- The elements of `[begin(), lower_bound(x))`. -/
def below (s : OrderedSet α) (x : α) : List α := s.toList.takeWhile (· < x)

/-- What is left after the elements of `[begin(), lower_bound(x))` have been erased. -/
def above (s : OrderedSet α) (x : α) : OrderedSet α :=
  ⟨s.toList.dropWhile (· < x), s.sorted.sublist (List.dropWhile_sublist _)⟩

theorem below_append_above (s : OrderedSet α) (x : α) :
    s.below x ++ (s.above x).toList = s.toList :=
  List.takeWhile_append_dropWhile

/-- Of an increasing list, the elements before a bound are those below it. -/
theorem cut_eq_filter {l : List α} (sorted : l.Pairwise (· < ·)) (x : α) :
    l.takeWhile (· < x) = l.filter (· < x) ∧ l.dropWhile (· < x) = l.filter (x ≤ ·) := by
  induction l with
  | nil => exact ⟨rfl, rfl⟩
  | cons head tail ih =>
    obtain ⟨first, later⟩ := List.pairwise_cons.mp sorted
    obtain ⟨taken, dropped⟩ := ih later
    by_cases less : head < x
    · simp [less, taken, dropped]
    · have reached : x ≤ head := not_lt.mp less
      have beyond : ∀ y ∈ tail, x ≤ y := fun y mem =>
        le_of_lt (lt_of_le_of_lt reached (first y mem))
      have none : tail.filter (· < x) = [] := by simpa using beyond
      have all : tail.filter (x ≤ ·) = tail := by simpa using beyond
      simp [less, reached, none, all]

theorem below_eq_filter (s : OrderedSet α) (x : α) : s.below x = s.toList.filter (· < x) :=
  (cut_eq_filter s.sorted x).1

theorem mem_above : y ∈ s.above x ↔ y ∈ s ∧ x ≤ y := by
  show y ∈ s.toList.dropWhile (· < x) ↔ _
  rw [(cut_eq_filter s.sorted x).2, List.mem_filter, mem_def]
  simp

end OrderedSet

end Yvent
