import Yvent.Buffer.Growth
import Yvent.Codec.Messages

/-!
# The receiver's memory

A message is at most 65536 bytes long, so what `onMessage` leaves in the buffer is less than a whole
frame. The receiver goes on for ever with a vector of fixed size, until an inadmissible length stops
it; behind that one the bytes are never taken.
-/

namespace Yvent.LenHeaderCodec

open Buffer

variable {r r' : Receiver Buffer} {s : Receiver Bytes} {chunk : Bytes} {chunks : List Bytes}

/-- Each chunk is one that `readv` can return for the buffer it is read into. -/
def Readable (r : Receiver Buffer) : List Bytes → Prop
  | [] => True
  | chunk :: chunks =>
    chunk.length ≤ readvLimit (r.buffer.buffer.length - r.buffer.writerIndex) ∧
      ∀ r', Buffered.deliver r chunk = .ok r' → Readable r' chunks

/-- The bytes of an incomplete frame at most. -/
def maxUnread : Nat := 65539

/-- The largest vector of a receiver. -/
def maxVector : Nat := growthLimit maxUnread

theorem length_le_of_waits {buffer : Bytes} (waits : decoder.next buffer = none)
    (admissible : ¬Stopped buffer) : buffer.length ≤ maxUnread := by
  have header : kHeaderLen = 4 := rfl
  cases turn : next buffer with
  | message message rest =>
    have found : decoder.next buffer = some (message, rest) := taken_eq_some.mpr turn
    rw [waits] at found
    cases found
  | badLength => exact absurd (next_eq_badLength.mp turn) admissible
  | wait =>
    rw [maxUnread]
    by_cases short : buffer.length < kHeaderLen
    · omega
    · have notBad : ¬Inadmissible (lengthAt buffer) := fun bad =>
        admissible ⟨Nat.le_of_not_lt short, bad⟩
      rw [next_of_header (Nat.le_of_not_lt short), if_neg notBad] at turn
      split at turn
      · cases turn
      · next missing =>
        have small : lengthAt buffer ≤ 65536 := Int.not_lt.mp fun large => notBad (.inl large)
        omega

/-- Between two reads. -/
structure Steady (r : Receiver Buffer) (s : Receiver Bytes) : Prop where
  refines : r.Refines s
  waits : decoder.next s.buffer = none
  vector : r.buffer.buffer.length ≤ maxVector

theorem deliver_buffer (s : Receiver Bytes) (chunk : Bytes) :
    (s.deliver chunk).buffer = (decoder.drain (s.buffer ++ chunk)).2 :=
  congrArg Receiver.buffer (onMessage_eq _)

/-- What has stopped the receiver stays in front of its buffer. -/
theorem stopped_of_deliver (stopped : Stopped s.buffer) : Stopped (s.deliver chunk).buffer := by
  have none : decoder.next (s.buffer ++ chunk) = none := (stuck_of_stopped stopped).2 chunk
  rw [deliver_buffer, Decoder.drain_of_none none]
  exact stopped.append chunk

theorem stopped_of_foldl (stopped : Stopped s.buffer) :
    Stopped (chunks.foldl Receiver.deliver s).buffer := by
  induction chunks generalizing s with
  | nil => exact stopped
  | cons chunk chunks ih => exact ih (stopped_of_deliver stopped)

theorem Steady.deliver (steady : Steady r s) (admissible : ¬Stopped s.buffer)
    (reads : chunk.length ≤ readvLimit (r.buffer.buffer.length - r.buffer.writerIndex)) :
    ∃ r', Buffered.deliver r chunk = .ok r' ∧ Steady r' (s.deliver chunk) := by
  obtain ⟨q, refined, content⟩ := steady.refines.buffer
  have unread : q.content.length ≤ maxUnread := by
    rw [content]
    exact length_le_of_waits steady.waits admissible
  have room : r.buffer.buffer.length + chunk.length ≤ maxSize := by
    have vector := steady.vector
    have limit : maxVector + (maxVector + extrabufSize) ≤ maxSize := by decide
    unfold readvLimit at reads
    split at reads <;> omega
  obtain ⟨r', delivered, refines⟩ := deliver_refines steady.refines (affords_of_room room)
  refine ⟨r', delivered, refines, ?_, ?_⟩
  · rw [deliver_buffer]
    exact Decoder.next_drain
  · obtain ⟨b, read, returns⟩ := exists_of_bind delivered
    rw [buffer_of_onMessage returns]
    have bound := refined.length_readFd reads unread read
    exact Nat.le_trans bound (Nat.max_le.mpr ⟨steady.vector, Nat.le_refl _⟩)

theorem Steady.receive (steady : Steady r s) (reads : Readable r chunks)
    (admissible : ¬Stopped (chunks.foldl Receiver.deliver s).buffer) :
    ∃ r', chunks.foldlM Buffered.deliver r = .ok r' ∧ Steady r' (chunks.foldl Receiver.deliver s) := by
  induction chunks generalizing r s with
  | nil => exact ⟨r, rfl, steady⟩
  | cons chunk chunks ih =>
    have before : ¬Stopped s.buffer := fun stopped =>
      admissible (stopped_of_foldl stopped)
    obtain ⟨r₁, delivered, steady₁⟩ := steady.deliver before reads.1
    rw [List.foldlM_cons, delivered, ok_bind]
    exact ih steady₁ (reads.2 r₁ delivered) admissible

/-- A receiver that no inadmissible length has stopped has never failed, whatever number of bytes it
has been through, and its vector is no larger than 262153 bytes. -/
theorem receive_in_bounded_memory (reads : Readable Buffered.create chunks)
    (admissible : ¬Stopped (decoder.drain chunks.flatten).2) :
    ∃ r, Buffered.receive chunks = .ok r ∧ r.buffer.buffer.length ≤ 262153 ∧
      r.messages = (decoder.drain chunks.flatten).1 ∧ r.shutdowns = 0 := by
  have fresh : Buffered.create.Refines .create :=
    ⟨rfl, rfl, _, Buffer.Refines.create kInitialSize, rfl⟩
  obtain ⟨drained, left⟩ := receive_eq_drain chunks
  have running : ¬Stopped (receive chunks).buffer := by rwa [left]
  have small : Buffered.create.buffer.buffer.length ≤ maxVector := by
    rw [Buffered.create, Buffer.create, List.length_replicate]
    decide
  obtain ⟨r, received, steady⟩ := Steady.receive ⟨fresh, Decoder.next_nil, small⟩ reads running
  have counted : 0 < (Receiver.create : Receiver Bytes).shutdowns ↔
      Stopped (Receiver.create : Receiver Bytes).buffer := by decide
  have stops := foldl_shutdowns chunks counted
  refine ⟨r, received, steady.vector, ?_, ?_⟩
  · exact steady.refines.messages.trans drained
  · rw [steady.refines.shutdowns]
    exact Nat.eq_zero_of_not_pos fun some => running (stops.mp some)

/-- A message in two reads. -/
theorem receive_in_bounded_memory_two : ∃ r, Buffered.receive [[0, 0, 0, 1], [65, 0]] = .ok r ∧
    r.buffer.buffer.length ≤ 262153 ∧ r.messages = (decoder.drain [0, 0, 0, 1, 65, 0]).1 := by
  have reads : Readable Buffered.create [[0, 0, 0, 1], [65, 0]] := by
    refine ⟨by decide +kernel, fun r' delivered => ⟨?_, fun _ _ => trivial⟩⟩
    unfold readvLimit extrabufSize
    split
    · simp
    · next large => exact Nat.le_trans (by decide) (Nat.le_of_not_lt large)
  obtain ⟨r, received, vector, messages, -⟩ := receive_in_bounded_memory reads (by decide +kernel)
  exact ⟨r, received, vector, messages⟩

end Yvent.LenHeaderCodec
