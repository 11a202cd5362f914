import Yvent.Misc.Decoder

/-!
# Framed messages

A framing writes each message so that a decoder takes it off the front of whatever follows. Then a
stream of messages comes out as it was put in, and the part of it that has arrived so far gives a
part of the messages. Some messages may be beyond what the decoder takes; one that stops it keeps
all that is behind from coming out.
-/

namespace Yvent

universe u v

/-- A decoder with what is written for each message, for the messages that it takes. -/
structure Framing (α : Type u) (β : Type v) extends Decoder α β where
  encode : β → List α
  Takes : β → Prop
  next_encode : ∀ {m : β} (rest : List α), Takes m → next (encode m ++ rest) = some (m, rest)

namespace Decoder

variable {α : Type u} {β : Type v} {d : Decoder α β} {part whole : List α}

/-- What has come out of a part of a stream comes out of the whole first. -/
theorem drain_mono (arrived : part <+: whole) : (d.drain part).1 <+: (d.drain whole).1 := by
  obtain ⟨more, rfl⟩ := arrived
  rw [drain_append]
  exact List.prefix_append _ _

end Decoder

namespace Framing

variable {α : Type u} {β : Type v} {f : Framing α β} {ms : List β} {part rest : List α}

/-- The messages one behind the other. -/
def stream (f : Framing α β) (ms : List β) : List α := ms.flatMap f.encode

/-- Nothing is taken of the message, nor of what is behind it. -/
def Rejects (f : Framing α β) (m : β) : Prop := ∀ rest, f.next (f.encode m ++ rest) = none

@[simp] theorem stream_nil : f.stream [] = [] := rfl

theorem stream_cons (m : β) (ms : List β) : f.stream (m :: ms) = f.encode m ++ f.stream ms := rfl

theorem stream_append (ms ms' : List β) : f.stream (ms ++ ms') = f.stream ms ++ f.stream ms' :=
  List.flatMap_append

theorem drain_encode {m : β} (takes : f.Takes m) (rest : List α) :
    f.drain (f.encode m ++ rest) = (m :: (f.drain rest).1, (f.drain rest).2) :=
  Decoder.drain_of_some (f.next_encode rest takes)

/-- The messages come out, and what is behind them is drained. -/
theorem drain_stream_append (takes : ∀ m ∈ ms, f.Takes m) (rest : List α) :
    f.drain (f.stream ms ++ rest) = (ms ++ (f.drain rest).1, (f.drain rest).2) := by
  induction ms with
  | nil => rfl
  | cons m ms ih =>
    obtain ⟨first, others⟩ := List.forall_mem_cons.mp takes
    rw [stream_cons, List.append_assoc, drain_encode first, ih others]
    rfl

theorem drain_stream (takes : ∀ m ∈ ms, f.Takes m) : f.drain (f.stream ms) = (ms, []) := by
  have behind := drain_stream_append takes []
  rwa [List.append_nil, Decoder.drain_of_none Decoder.next_nil, List.append_nil] at behind

/-- The part of a stream that has arrived gives the first messages. -/
theorem drain_prefix (takes : ∀ m ∈ ms, f.Takes m) (arrived : part <+: f.stream ms) :
    (f.drain part).1 <+: ms := by
  have first := Decoder.drain_mono (d := f.toDecoder) arrived
  rwa [drain_stream takes] at first

/-- The messages before the first one that is rejected come out. -/
theorem drain_stream_takeWhile [DecidablePred f.Takes]
    (either : ∀ m ∈ ms, f.Takes m ∨ f.Rejects m) :
    (f.drain (f.stream ms)).1 = ms.takeWhile fun m => decide (f.Takes m) := by
  induction ms with
  | nil => exact congrArg Prod.fst (Decoder.drain_of_none Decoder.next_nil)
  | cons m ms ih =>
    obtain ⟨first, others⟩ := List.forall_mem_cons.mp either
    rw [stream_cons]
    by_cases takes : f.Takes m
    · have rest := ih others
      rw [drain_encode takes]
      simp [takes, rest]
    · have rejects : f.Rejects m := first.resolve_left takes
      rw [Decoder.drain_of_none (rejects _)]
      simp [takes]

/-- A buffer at whose front nothing is ever found, whatever comes behind. -/
def Stuck (f : Framing α β) (buffer : List α) : Prop :=
  buffer ≠ [] ∧ ∀ more, f.next (buffer ++ more) = none

/-- On the messages it takes, a decoder does not get stuck. -/
theorem not_stuck (takes : ∀ m ∈ ms, f.Takes m) (arrived : part <+: f.stream ms) :
    ¬f.Stuck (f.drain part).2 := by
  rintro ⟨nonempty, stuck⟩
  obtain ⟨more, whole⟩ := arrived
  have all := Decoder.drain_append (d := f.toDecoder) part more
  rw [whole, drain_stream takes, Decoder.drain_of_none (stuck more)] at all
  have none := congrArg Prod.snd all
  exact nonempty (List.append_eq_nil_iff.mp none.symm).1

end Framing

end Yvent
