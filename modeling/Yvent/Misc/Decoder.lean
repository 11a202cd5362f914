import Mathlib.Data.List.Basic
import Mathlib.Data.Nat.Init

/-!
# Decoders that are fed in chunks

A decoder takes one message off the front of its buffer, or waits for more. It is incremental when
what it takes does not depend on what is behind; then the messages of a stream do not depend on the
chunks in which the stream arrives.
-/

namespace Yvent

universe u v

/-- What takes a message off a buffer, leaving a shorter one, whatever comes behind. -/
structure Decoder (α : Type u) (β : Type v) where
  next : List α → Option (β × List α)
  shorter : ∀ {buffer rest : List α} {m : β}, next buffer = some (m, rest) →
    rest.length < buffer.length
  stable : ∀ {buffer rest : List α} {m : β} (more : List α), next buffer = some (m, rest) →
    next (buffer ++ more) = some (m, rest ++ more)

namespace Decoder

variable {α : Type u} {β : Type v} (d : Decoder α β) {buffer rest more : List α} {m : β}

/-- The messages at the front of a buffer, and what is left behind them. -/
def drain (buffer : List α) : List β × List α :=
  match _ : d.next buffer with
  | none => ([], buffer)
  | some (m, rest) => (m :: (drain rest).1, (drain rest).2)
termination_by buffer.length
decreasing_by all_goals exact d.shorter (by assumption)

/-- Each chunk is put behind what is left, and the buffer is drained. -/
def feed (buffer : List α) : List (List α) → List β × List α
  | [] => ([], buffer)
  | chunk :: chunks =>
    let now := d.drain (buffer ++ chunk)
    let later := feed now.2 chunks
    (now.1 ++ later.1, later.2)

variable {d}

theorem drain_of_none (none : d.next buffer = none) : d.drain buffer = ([], buffer) := by
  rw [drain]
  split
  · rfl
  · next found =>
    rw [none] at found
    cases found

theorem drain_of_some (found : d.next buffer = some (m, rest)) :
    d.drain buffer = (m :: (d.drain rest).1, (d.drain rest).2) := by
  rw [drain]
  split
  · next none =>
    rw [none] at found
    cases found
  · next found' =>
    rw [found] at found'
    cases found'
    rfl

/-- Nothing can be taken from an empty buffer. -/
theorem next_nil : d.next [] = none := by
  cases found : d.next [] with
  | none => rfl
  | some taken => exact absurd (d.shorter found) (Nat.not_lt_zero _)

/-- A drained buffer has no message at its front. -/
theorem next_drain : d.next (d.drain buffer).2 = none := by
  induction size : buffer.length using Nat.strongRecOn generalizing buffer with
  | _ size ih =>
    subst size
    cases found : d.next buffer with
    | none => rwa [drain_of_none found]
    | some taken =>
      rw [drain_of_some found]
      exact ih _ (d.shorter found) rfl

/-- What holds of every message that is taken holds of those that are drained. -/
theorem forall_drain {P : β → Prop}
    (taken : ∀ {buffer rest m}, d.next buffer = some (m, rest) → P m) (buffer : List α) :
    ∀ m ∈ (d.drain buffer).1, P m := by
  induction size : buffer.length using Nat.strongRecOn generalizing buffer with
  | _ size ih =>
    subst size
    cases found : d.next buffer with
    | none =>
      rw [drain_of_none found]
      exact List.forall_mem_nil P
    | some first =>
      rw [drain_of_some found]
      exact List.forall_mem_cons.mpr ⟨taken found, ih _ (d.shorter found) _ rfl⟩

/-- Draining goes on where it has stopped when more arrives. -/
theorem drain_append (buffer more : List α) :
    d.drain (buffer ++ more) = ((d.drain buffer).1 ++ (d.drain ((d.drain buffer).2 ++ more)).1,
      (d.drain ((d.drain buffer).2 ++ more)).2) := by
  induction size : buffer.length using Nat.strongRecOn generalizing buffer with
  | _ size ih =>
    subst size
    cases found : d.next buffer with
    | none =>
      rw [drain_of_none found]
      rfl
    | some taken =>
      rw [drain_of_some found, drain_of_some (d.stable more found), ih _ (d.shorter found) _ rfl]
      rfl

/-- Chunk by chunk comes out what comes out of all the bytes at once. -/
theorem feed_eq (waits : d.next buffer = none) (chunks : List (List α)) :
    d.feed buffer chunks = d.drain (buffer ++ chunks.flatten) := by
  induction chunks generalizing buffer with
  | nil => rw [feed, List.flatten_nil, List.append_nil, drain_of_none waits]
  | cons chunk chunks ih =>
    rw [feed, List.flatten_cons, ← List.append_assoc, drain_append (buffer ++ chunk), ih next_drain]

end Decoder

end Yvent
