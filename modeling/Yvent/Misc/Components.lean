import Mathlib.Data.List.Basic

/-!
# Separated texts as walks

A text is cut into components at a separator. Some components lead up, some lead down and the others
stay; a text is confined when none of its prefixes has led up more often than down.
-/

namespace Yvent

universe u

section Components

variable {α : Type u} [DecidableEq α] {sep : α} {name : List α}

/-- The components of a text; there is always one, which may be empty. -/
def components (sep : α) : List α → List (List α)
  | [] => [[]]
  | c :: text =>
    if c = sep then [] :: components sep text
    else
      match components sep text with
      | [] => [[c]]
      | first :: others => (c :: first) :: others

theorem components_ne_nil (sep : α) (text : List α) : components sep text ≠ [] := by
  cases text with
  | nil => simp [components]
  | cons c text =>
    rw [components]
    split
    · simp
    · split <;> simp

theorem components_append_sep (text text' : List α) :
    components sep (text ++ sep :: text') = components sep text ++ components sep text' := by
  induction text with
  | nil => simp [components]
  | cons c text ih =>
    rw [List.cons_append, components, components, ih]
    by_cases here : c = sep
    · rw [if_pos here, if_pos here, List.cons_append]
    · rw [if_neg here, if_neg here]
      cases comps : components sep text with
      | nil => exact absurd comps (components_ne_nil sep text)
      | cons first others => rfl

/-- A text without a separator is its only component. -/
theorem components_of_not_mem (absent : sep ∉ name) : components sep name = [name] := by
  induction name with
  | nil => rfl
  | cons c name ih =>
    obtain ⟨other, absent⟩ := List.ne_and_not_mem_of_not_mem_cons absent
    rw [components, if_neg other.symm, ih absent]

end Components

variable {γ : Type u} {up down : γ → Bool} {comps comps' : List γ}

/-- No prefix of the components leads up more often than down. -/
def Confined (up down : γ → Bool) (comps : List γ) : Prop :=
  ∀ part, part <+: comps → part.countP up ≤ part.countP down

/-- The walk along the components from a place at the given depth never leaves the start. -/
def staysInside (up down : γ → Bool) : Nat → List γ → Bool
  | _, [] => true
  | depth, comp :: comps =>
    let below := depth + if down comp then 1 else 0
    if up comp then
      match below with
      | 0 => false
      | depth + 1 => staysInside up down depth comps
    else staysInside up down below comps

theorem staysInside_iff (depth : Nat) :
    staysInside up down depth comps = true ↔
      ∀ part, part <+: comps → part.countP up ≤ depth + part.countP down := by
  induction comps generalizing depth with
  | nil =>
    refine ⟨fun _ part pre => ?_, fun _ => rfl⟩
    rw [List.prefix_nil.mp pre]
    exact Nat.zero_le _
  | cons comp comps ih =>
    have longer : (∀ part, part <+: comp :: comps → part.countP up ≤ depth + part.countP down) ↔
        ∀ part, part <+: comps →
          (comp :: part).countP up ≤ depth + (comp :: part).countP down := by
      constructor
      · intro all part pre
        exact all _ ((List.prefix_cons_inj comp).mpr pre)
      · intro all part pre
        cases part with
        | nil => exact Nat.zero_le _
        | cons first part =>
          obtain ⟨rfl, tail⟩ := List.cons_prefix_cons.mp pre
          exact all part tail
    rw [longer, staysInside]
    simp only [List.countP_cons]
    by_cases leads : up comp = true
    · rw [if_pos leads]
      simp only [leads, if_true]
      cases below : depth + if down comp = true then 1 else 0 with
      | zero =>
        refine ⟨fun no => absurd no (by simp), fun all => ?_⟩
        have first := all [] List.nil_prefix
        simp only [List.countP_nil] at first
        omega
      | succ n =>
        rw [ih n]
        refine forall_congr' fun part => imp_congr_right fun _ => ?_
        omega
    · rw [if_neg leads]
      simp only [leads, if_false, Bool.false_eq_true]
      rw [ih]
      refine forall_congr' fun part => imp_congr_right fun _ => ?_
      omega

theorem confined_iff_staysInside :
    Confined up down comps ↔ staysInside up down 0 comps = true := by
  rw [staysInside_iff, Confined]
  simp only [Nat.zero_add]

instance : Decidable (Confined up down comps) := decidable_of_iff _ confined_iff_staysInside.symm

theorem Confined.of_append (confined : Confined up down (comps ++ comps')) :
    Confined up down comps := fun part pre =>
  confined part (pre.trans (List.prefix_append _ _))

/-- Components that do not lead up keep a walk inside. -/
theorem Confined.append (confined : Confined up down comps)
    (level : ∀ comp ∈ comps', up comp = false) : Confined up down (comps ++ comps') := by
  rintro part ⟨rest, cut⟩
  rcases List.append_eq_append_iff.mp cut with ⟨more, rfl, -⟩ | ⟨more, rfl, rest⟩
  · exact confined part (List.prefix_append _ _)
  · have none : more.countP up = 0 := by
      refine List.countP_eq_zero.mpr fun comp mem => ?_
      simp [level comp (rest ▸ List.mem_append_left _ mem)]
    have before := confined comps List.prefix_rfl
    rw [List.countP_append, List.countP_append, none]
    omega

end Yvent
