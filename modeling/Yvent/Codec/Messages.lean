import Yvent.Codec.RoundTrip
import Yvent.Misc.Framing

/-!
# The codec and the code around it

The codec is a framing of the messages of at most 65536 bytes. `onMessageWith` is `onMessage` with a
callback that changes the state of a program; it comes to a fold over the messages that are drained.
-/

namespace Yvent

namespace LenHeaderCodec

open Buffer (Checked)

/-- The receiver takes messages of this length. -/
def Short (message : Bytes) : Prop := message.length ≤ 65536

instance : DecidablePred Short := fun _ => inferInstanceAs (Decidable (_ ≤ _))

theorem found_frame {message : Bytes} (rest : Bytes) (short : Short message) :
    decoder.next (frame message ++ rest) = some (message, rest) :=
  taken_eq_some.mpr (next_frame short)

/-- Frames of messages, and the decoder that takes them. -/
def framing : Framing UInt8 Bytes where
  toDecoder := decoder
  encode := frame
  Takes := Short
  next_encode := found_frame

instance : DecidablePred framing.Takes := inferInstanceAs (DecidablePred Short)

/-- `onMessage` with what the callback and `conn->shutdown()` do to a state: the state and the bytes
that are left in the buffer. -/
def onMessageWith {σ : Type} (callback : Bytes → σ → Checked σ) (shutdown : σ → σ) (s : σ)
    (buffer : Bytes) : Checked (σ × Bytes) :=
  match _ : next buffer with
  | .message message rest => do
    let s ← callback message s
    onMessageWith callback shutdown s rest
  | .badLength => .ok (shutdown s, buffer)
  | .wait => .ok (s, buffer)
termination_by buffer.length
decreasing_by exact length_of_next (by assumption)

variable {σ : Type} {callback : Bytes → σ → Checked σ} {shutdown : σ → σ} {buffer message rest : Bytes}
  {messages : List Bytes}

/-! ## Messages beyond the limit -/

/-- A length that the header can hold but the receiver does not take. -/
theorem rejects_of_length (long : 65536 < message.length) (fits : message.length < 2 ^ 31) :
    framing.Rejects message := by
  intro rest
  have len : lengthAt (frame message ++ rest) = message.length := by
    rw [lengthAt_frame, BitVec.toInt_ofNat']
    exact Int.bmod_eq_of_le (by omega) (by omega)
  have bad : next (frame message ++ rest) = .badLength := by
    refine next_eq_badLength.mpr ⟨?_, Or.inl ?_⟩
    · rw [frame, List.append_assoc, List.length_append, length_wordBytes]
      exact Nat.le_add_right ..
    · rw [len]
      exact_mod_cast long
  exact congrArg Turn.taken bad

theorem Stopped.append (stopped : Stopped buffer) (more : Bytes) : Stopped (buffer ++ more) :=
  next_eq_badLength.mp (badLength_append (next_eq_badLength.mpr stopped))

/-- An inadmissible length in front of a buffer stops the decoder for ever. -/
theorem stuck_of_stopped (stopped : Stopped buffer) : framing.Stuck buffer := by
  refine ⟨?_, fun more => ?_⟩
  · rintro rfl
    exact absurd stopped.1 (by decide)
  · exact congrArg Turn.taken (badLength_append (next_eq_badLength.mpr stopped))

/-! ## A callback with a state -/

theorem onMessageWith_of_message (s : σ) (taken : next buffer = .message message rest) :
    onMessageWith callback shutdown s buffer =
      callback message s >>= fun s => onMessageWith callback shutdown s rest := by
  rw [onMessageWith]
  split <;> simp_all

theorem onMessageWith_of_badLength (s : σ) (bad : next buffer = .badLength) :
    onMessageWith callback shutdown s buffer = .ok (shutdown s, buffer) := by
  rw [onMessageWith]
  split <;> simp_all

theorem onMessageWith_of_wait (s : σ) (waits : next buffer = .wait) :
    onMessageWith callback shutdown s buffer = .ok (s, buffer) := by
  rw [onMessageWith]
  split <;> simp_all

/-- The callback gets the messages that are drained, one after another, and the connection is shut
down for an inadmissible length behind them. -/
theorem onMessageWith_eq (s : σ) (buffer : Bytes) :
    onMessageWith callback shutdown s buffer =
      ((decoder.drain buffer).1.foldlM (fun s message => callback message s) s).map fun s =>
        (if Stopped (decoder.drain buffer).2 then shutdown s else s, (decoder.drain buffer).2) := by
  induction size : buffer.length using Nat.strongRecOn generalizing buffer s with
  | _ size ih =>
    subst size
    cases turn : next buffer with
    | message message rest =>
      have found : decoder.next buffer = some (message, rest) := taken_eq_some.mpr turn
      rw [onMessageWith_of_message s turn, Decoder.drain_of_some found, List.foldlM_cons]
      cases callback message s with
      | error fault => rfl
      | ok s => exact ih _ (length_of_next turn) s rest rfl
    | badLength =>
      have none : decoder.next buffer = none := congrArg Turn.taken turn
      rw [onMessageWith_of_badLength s turn, Decoder.drain_of_none none]
      exact congrArg (fun s => Except.ok (s, buffer)) (if_pos (next_eq_badLength.mp turn)).symm
    | wait =>
      have none : decoder.next buffer = none := congrArg Turn.taken turn
      have admissible : ¬Stopped buffer := fun stopped => by
        rw [next_eq_badLength.mpr stopped] at turn
        cases turn
      rw [onMessageWith_of_wait s turn, Decoder.drain_of_none none]
      exact congrArg (fun s => Except.ok (s, buffer)) (if_neg admissible).symm

end LenHeaderCodec

end Yvent
