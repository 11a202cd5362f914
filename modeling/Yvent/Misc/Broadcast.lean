import Yvent.Misc.Run
import Mathlib.Logic.Function.Basic

/-!
# A group with one order of posts

The members of a group come and go. A member that is present posts messages, which all others that
are present then hear. There is one order in which everything happens, so a member hears the posts
of the others in that order: the ones of its own time, each once.
-/

namespace Yvent

universe u v

namespace Broadcast

/-- A message and who has posted it. -/
structure Post (Member : Type u) (Message : Type v) where
  sender : Member
  message : Message
  deriving DecidableEq, Repr

/-- What a member has of the group. -/
structure Seat (Member : Type u) (Message : Type v) where
  present : Bool
  heard : List (Post Member Message)
  deriving DecidableEq, Repr

/-- What can happen in a room. -/
inductive Happening (Member : Type u) (Message : Type v) where
  | join (m : Member)
  | leave (m : Member)
  | post (p : Post Member Message)
  deriving DecidableEq, Repr

end Broadcast

open Broadcast

/-- A room: the seat of each member, and what was posted. -/
structure Broadcast (Member : Type u) (Message : Type v) where
  seats : Member → Seat Member Message
  posts : List (Post Member Message)

namespace Broadcast

variable {Member : Type u} {Message : Type v} [DecidableEq Member]
  {g g' : Broadcast Member Message} {m m' : Member} {p : Post Member Message}
  {h : Happening Member Message} {history : List (Happening Member Message)}

/-- Nobody is present, and nothing has been posted. -/
def create : Broadcast Member Message where
  seats _ := { present := false, heard := [] }
  posts := []

/-- A seat while `p` is posted. -/
def Seat.hear (seat : Seat Member Message) (m : Member) (p : Post Member Message) :
    Seat Member Message :=
  if seat.present ∧ m ≠ p.sender then { seat with heard := seat.heard ++ [p] } else seat

/-- A member comes or goes. -/
def setPresent (g : Broadcast Member Message) (m : Member) (present : Bool) :
    Broadcast Member Message :=
  { g with seats := Function.update g.seats m { g.seats m with present } }

/-- Everybody who is present hears the post. -/
def deliver (g : Broadcast Member Message) (p : Post Member Message) :
    Broadcast Member Message where
  seats m := (g.seats m).hear m p
  posts := g.posts ++ [p]

/-- One happening; only a member that is present leaves or posts. -/
def step (g : Broadcast Member Message) : Happening Member Message → Option (Broadcast Member Message)
  | .join m => if (g.seats m).present then none else some (g.setPresent m true)
  | .leave m => if (g.seats m).present then some (g.setPresent m false) else none
  | .post p => if (g.seats p.sender).present then some (g.deliver p) else none

/-- The posts of a history. -/
def posted (history : List (Happening Member Message)) : List (Post Member Message) :=
  history.filterMap fun
    | .post p => some p
    | .join _ | .leave _ => none

/-- Of some posts, those that a member hears. -/
def others (m : Member) (posts : List (Post Member Message)) : List (Post Member Message) :=
  posts.filter fun p => p.sender ≠ m

theorem others_append (posts posts' : List (Post Member Message)) :
    others m (posts ++ posts') = others m posts ++ others m posts' := List.filter_append ..

/-! ## One step -/

theorem Seat.hear_present (seat : Seat Member Message) :
    (seat.hear m p).present = seat.present := by
  unfold Seat.hear
  split <;> rfl

theorem Seat.hear_heard (seat : Seat Member Message) :
    (seat.hear m p).heard = seat.heard ++ if seat.present then others m [p] else [] := by
  by_cases here : seat.present = true <;> by_cases own : p.sender = m <;>
    simp [Seat.hear, others, here, own, Ne.symm]

/-- Who joins, leaves or posts, and what happens to the seats. -/
theorem step_cases (taken : g.step h = some g') :
    (∃ m, h = .join m ∧ (g.seats m).present = false ∧ g' = g.setPresent m true) ∨
      (∃ m, h = .leave m ∧ (g.seats m).present = true ∧ g' = g.setPresent m false) ∨
      ∃ p, h = .post p ∧ (g.seats p.sender).present = true ∧ g' = g.deliver p := by
  cases h with
  | join m =>
    simp only [step] at taken
    split at taken
    · cases taken
    · next absent =>
      cases taken
      exact Or.inl ⟨m, rfl, by simpa using absent, rfl⟩
  | leave m =>
    simp only [step] at taken
    split at taken
    · next here =>
      cases taken
      exact Or.inr (Or.inl ⟨m, rfl, here, rfl⟩)
    · cases taken
  | post p =>
    simp only [step] at taken
    split at taken
    · next here =>
      cases taken
      exact Or.inr (Or.inr ⟨p, rfl, here, rfl⟩)
    · cases taken

theorem setPresent_heard (g : Broadcast Member Message) (m m' : Member) (present : Bool) :
    ((g.setPresent m present).seats m').heard = (g.seats m').heard := by
  by_cases same : m' = m
  · subst same
    simp [setPresent]
  · simp [setPresent, same]

theorem posts_step (taken : g.step h = some g') : g'.posts = g.posts ++ posted [h] := by
  obtain ⟨m, rfl, -, rfl⟩ | ⟨m, rfl, -, rfl⟩ | ⟨p, rfl, -, rfl⟩ := step_cases taken
  · exact (List.append_nil _).symm
  · exact (List.append_nil _).symm
  · rfl

/-- A present member hears the posts of the others. -/
theorem heard_step (taken : g.step h = some g') :
    (g'.seats m).heard =
      (g.seats m).heard ++ if (g.seats m).present then others m (posted [h]) else [] := by
  obtain ⟨m', rfl, -, rfl⟩ | ⟨m', rfl, -, rfl⟩ | ⟨p, rfl, -, rfl⟩ := step_cases taken
  · rw [setPresent_heard]
    simp [posted, others]
  · rw [setPresent_heard]
    simp [posted, others]
  · exact Seat.hear_heard _

theorem present_step (taken : g.step h = some g') (stays : h ≠ .leave m)
    (here : (g.seats m).present = true) : (g'.seats m).present = true := by
  obtain ⟨m', rfl, -, rfl⟩ | ⟨m', rfl, -, rfl⟩ | ⟨p, rfl, -, rfl⟩ := step_cases taken
  · by_cases same : m = m'
    · simp [setPresent, same]
    · simpa [setPresent, same] using here
  · have other : m ≠ m' := fun same => stays (same ▸ rfl)
    simpa [setPresent, other] using here
  · show ((g.seats m).hear m p).present = true
    rwa [Seat.hear_present]

/-! ## Histories -/

theorem posts_exec (run : exec step history g = some g') : g'.posts = g.posts ++ posted history := by
  induction history generalizing g with
  | nil =>
    cases run
    exact (List.append_nil _).symm
  | cons h history ih =>
    obtain ⟨g₁, taken, rest⟩ := Option.bind_eq_some_iff.mp run
    rw [ih rest, posts_step taken, List.append_assoc, posted, posted, ← List.filterMap_append]
    rfl

/-- A member hears a part of all posts, in their order, and none of its own. -/
theorem heard_sublist (heard : (g.seats m).heard.Sublist (others m g.posts))
    (run : exec step history g = some g') : (g'.seats m).heard.Sublist (others m g'.posts) := by
  induction history generalizing g with
  | nil =>
    cases run
    exact heard
  | cons h history ih =>
    obtain ⟨g₁, taken, rest⟩ := Option.bind_eq_some_iff.mp run
    refine ih ?_ rest
    rw [heard_step taken, posts_step taken, others_append]
    refine heard.append ?_
    split
    · exact List.Sublist.refl _
    · exact List.nil_sublist _

/-- A member that stays hears all that the others post meanwhile. -/
theorem heard_while_present (here : (g.seats m).present = true)
    (stays : .leave m ∉ history) (run : exec step history g = some g') :
    (g'.seats m).heard = (g.seats m).heard ++ others m (posted history) := by
  induction history generalizing g with
  | nil =>
    cases run
    exact (List.append_nil _).symm
  | cons h history ih =>
    obtain ⟨first, later⟩ := List.ne_and_not_mem_of_not_mem_cons stays
    obtain ⟨g₁, taken, rest⟩ := Option.bind_eq_some_iff.mp run
    have more : posted (h :: history) = posted [h] ++ posted history := by
      rw [posted, posted, posted, ← List.filterMap_append]
      rfl
    rw [ih (present_step taken first.symm here) later rest, heard_step taken, if_pos here, more,
      others_append, List.append_assoc]

end Broadcast

end Yvent
