import Yvent.Codec.Refinement

/-!
# Messages sent and received

The sender puts any length into the header, as the 32 bits it has room for; the receiver takes no
message longer than 65536 bytes. They agree on the messages up to that length.
-/

namespace Yvent

namespace LenHeaderCodec

open Buffer

variable {message rest : Bytes} {messages frames : List Bytes}

theorem lengthAt_frame : lengthAt (frame message ++ rest) =
    (BitVec.ofNat 32 message.length).toInt := by
  rw [lengthAt, frame, List.append_assoc, wordAt_wordBytes, ntohl, htonl, byteSwap_byteSwap]

/-- The frame of a message of an admissible length is taken as that message. -/
theorem next_frame (short : message.length ≤ 65536) :
    next (frame message ++ rest) = .message message rest := by
  have len : lengthAt (frame message ++ rest) = message.length := by
    rw [lengthAt_frame, BitVec.toInt_ofNat']
    exact Int.bmod_eq_of_le (by omega) (by omega)
  have length : (frame message ++ rest).length = kHeaderLen + message.length + rest.length := by
    rw [List.length_append, frame, List.length_append, length_wordBytes, kHeaderLen]
  have behind : (frame message ++ rest).drop kHeaderLen = message ++ rest := by
    rw [frame, List.append_assoc]
    exact List.drop_left' length_wordBytes
  have admissible : ¬Inadmissible (message.length : Int) := by
    unfold Inadmissible
    omega
  rw [next_eq_message, len, length, behind, Int.toNat_natCast, List.take_left, List.drop_left]
  exact ⟨by omega, admissible, by omega, rfl, rfl⟩

/-- The frames of admissible messages are taken as these messages. -/
theorem drain_frames (short : ∀ message ∈ messages, message.length ≤ 65536) :
    decoder.drain (messages.map frame).flatten = (messages, []) := by
  induction messages with
  | nil => exact Decoder.drain_of_none Decoder.next_nil
  | cons message messages ih =>
    obtain ⟨first, others⟩ := List.forall_mem_cons.mp short
    have found : decoder.next (frame message ++ (messages.map frame).flatten) =
        some (message, (messages.map frame).flatten) := taken_eq_some.mpr (next_frame first)
    rw [List.map_cons, List.flatten_cons, Decoder.drain_of_some found, ih others]

theorem eq_map_frame (sent : messages.mapM send = .ok frames) : frames = messages.map frame := by
  induction messages generalizing frames with
  | nil =>
    cases sent
    rfl
  | cons message messages ih =>
    rw [List.mapM_cons] at sent
    obtain ⟨first, firstSent, sent⟩ := exists_of_bind sent
    obtain ⟨others, othersSent, sent⟩ := exists_of_bind sent
    cases sent
    rw [eq_frame_of_send firstSent, ih othersSent]
    rfl

/-- The messages arrive, whatever the chunks, exactly when none is longer than the receiver takes. -/
theorem received_iff (sent : messages.mapM send = .ok frames) :
    (∀ chunks : List Bytes, chunks.flatten = frames.flatten →
        receive chunks = { messages := messages, shutdowns := 0, buffer := [] }) ↔
      ∀ message ∈ messages, message.length ≤ 65536 := by
  obtain rfl := eq_map_frame sent
  constructor
  · intro received
    obtain ⟨delivered, -⟩ := receive_eq_drain (messages.map frame)
    rw [received _ rfl] at delivered
    rw [show messages = _ from delivered]
    exact Decoder.forall_drain (fun taken => length_le_of_next (taken_eq_some.mp taken)) _
  · intro short chunks same
    obtain ⟨delivered, left⟩ := receive_eq_drain chunks
    rw [same, drain_frames short] at delivered left
    have counted := foldl_shutdowns (r := .create) chunks (by decide)
    have kept : ¬Stopped (receive chunks).buffer := by
      rw [left]
      exact (by decide : ¬Stopped [])
    have shutdowns : (receive chunks).shutdowns = 0 := Nat.eq_zero_of_not_pos (mt counted.mp kept)
    calc receive chunks
        = ⟨(receive chunks).messages, (receive chunks).shutdowns, (receive chunks).buffer⟩ := rfl
      _ = ⟨messages, 0, []⟩ := by rw [delivered, shutdowns, left]

theorem received_iff_two :
    receive [[0, 0], [0, 2, 1], [2, 0, 0, 0, 0]] =
      { messages := [[1, 2], []], shutdowns := 0, buffer := [] } := by
  have sent : [[1, 2], []].mapM send = .ok [[0, 0, 0, 2, 1, 2], [0, 0, 0, 0]] := by
    decide +kernel
  exact (received_iff sent).mpr (by decide) _ rfl

/-- A message of one byte more than the receiver takes is accepted and sent; the receiver shuts down
and delivers nothing. -/
theorem rejected_of_length (long : message.length = 65537) :
    ∃ frames : List Bytes, [message].mapM send = .ok frames ∧
      receive frames = { messages := [], shutdowns := 1, buffer := frames.flatten } := by
  have fits : kCheapPrepend + message.length ≤ maxSize := by
    rw [long]
    decide
  have sent : [message].mapM send = .ok [frame message] := by
    rw [List.mapM_cons, send_eq_frame fits]
    rfl
  have len : lengthAt (frame message ++ []) = 65537 := by
    rw [lengthAt_frame, long]
    decide
  have bad : next (frame message) = .badLength := by
    rw [List.append_nil] at len
    refine next_eq_badLength.mpr ⟨?_, ?_⟩
    · rw [frame, List.length_append, length_wordBytes]
      exact Nat.le_add_right ..
    · rw [len]
      decide
  refine ⟨_, sent, ?_⟩
  rw [List.flatten_singleton]
  exact onMessage_of_badLength (r := ⟨[], 0, frame message⟩) bad

theorem long_message_rejected :
    ∃ frames : List Bytes, [List.replicate 65537 0].mapM send = .ok frames ∧
      receive frames = { messages := [], shutdowns := 1, buffer := frames.flatten } :=
  rejected_of_length List.length_replicate

end LenHeaderCodec

end Yvent
