import Yvent.Codec.Model
import Yvent.Misc.Decoder

/-!
# The length-header decoder

A turn looks at the word in front of the buffer and at no byte behind the message that the word
announces. So the turns are an incremental decoder, which an inadmissible length stops for ever: it
stays in front of the buffer.
-/

namespace Yvent

namespace LenHeaderCodec

variable {buffer rest more message : Bytes} {r : Receiver Bytes}

/-- The signed number in front of a buffer. -/
def lengthAt (buffer : Bytes) : Int := (ntohl (wordAt buffer)).toInt

/-- No message of this length is taken. -/
def Inadmissible (len : Int) : Prop := 65536 < len ∨ len < 0

instance (len : Int) : Decidable (Inadmissible len) := inferInstanceAs (Decidable (_ ∨ _))

theorem lengthAt_append (header : kHeaderLen ≤ buffer.length) :
    lengthAt (buffer ++ more) = lengthAt buffer := by
  rw [lengthAt, wordAt_append header, lengthAt]

/-! ## Turns -/

/-- A turn with a whole header in front. -/
theorem next_of_header (header : kHeaderLen ≤ buffer.length) :
    next buffer =
      if Inadmissible (lengthAt buffer) then .badLength
      else if (lengthAt buffer).toNat + kHeaderLen ≤ buffer.length then
        .message ((buffer.drop kHeaderLen).take (lengthAt buffer).toNat)
          ((buffer.drop kHeaderLen).drop (lengthAt buffer).toNat)
      else .wait := if_neg (Nat.not_lt_of_le header)

theorem header_of_next (turned : next buffer ≠ .wait) : kHeaderLen ≤ buffer.length := by
  apply Nat.le_of_not_lt
  intro short
  exact turned (if_pos short)

/-- What it takes for a message. -/
theorem next_eq_message : next buffer = .message message rest ↔
    kHeaderLen ≤ buffer.length ∧ ¬Inadmissible (lengthAt buffer) ∧
      (lengthAt buffer).toNat + kHeaderLen ≤ buffer.length ∧
      message = (buffer.drop kHeaderLen).take (lengthAt buffer).toNat ∧
      rest = (buffer.drop kHeaderLen).drop (lengthAt buffer).toNat := by
  constructor
  · intro taken
    have header : kHeaderLen ≤ buffer.length := header_of_next (by simp [taken])
    rw [next_of_header header] at taken
    split at taken
    · cases taken
    · next admissible =>
      split at taken <;> cases taken
      next whole => exact ⟨header, admissible, whole, rfl, rfl⟩
  · rintro ⟨header, admissible, whole, rfl, rfl⟩
    rw [next_of_header header, if_neg admissible, if_pos whole]

/-- What it takes for `conn->shutdown()`. -/
theorem next_eq_badLength : next buffer = .badLength ↔
    kHeaderLen ≤ buffer.length ∧ Inadmissible (lengthAt buffer) := by
  constructor
  · intro bad
    have header : kHeaderLen ≤ buffer.length := header_of_next (by simp [bad])
    rw [next_of_header header] at bad
    split at bad
    · next inadmissible => exact ⟨header, inadmissible⟩
    · split at bad <;> cases bad
  · rintro ⟨header, inadmissible⟩
    rw [next_of_header header, if_pos inadmissible]

/-- A message is taken whatever comes behind it. -/
theorem next_append (taken : next buffer = .message message rest) :
    next (buffer ++ more) = .message message (rest ++ more) := by
  obtain ⟨header, admissible, whole, rfl, rfl⟩ := next_eq_message.mp taken
  have body : (lengthAt buffer).toNat ≤ (buffer.drop kHeaderLen).length := by
    rw [List.length_drop]
    omega
  rw [next_eq_message, lengthAt_append header, List.drop_append_of_le_length header,
    List.take_append_of_le_length body, List.drop_append_of_le_length body, List.length_append]
  exact ⟨Nat.le_add_right_of_le header, admissible, Nat.le_add_right_of_le whole, rfl, rfl⟩

/-- An inadmissible length stays so. -/
theorem badLength_append (bad : next buffer = .badLength) : next (buffer ++ more) = .badLength := by
  obtain ⟨header, inadmissible⟩ := next_eq_badLength.mp bad
  rw [next_eq_badLength, lengthAt_append header, List.length_append]
  exact ⟨Nat.le_add_right_of_le header, inadmissible⟩

/-- Only so long messages are delivered. -/
theorem length_le_of_next (taken : next buffer = .message message rest) :
    message.length ≤ 65536 := by
  obtain ⟨-, admissible, -, rfl, -⟩ := next_eq_message.mp taken
  rw [List.length_take]
  have small : lengthAt buffer ≤ 65536 := Int.not_lt.mp fun large => admissible (.inl large)
  omega

/-! ## The decoder -/

/-- The message that a turn takes. -/
def Turn.taken : Turn Bytes → Option (Bytes × Bytes)
  | .message message rest => some (message, rest)
  | .badLength | .wait => none

theorem taken_eq_some :
    (next buffer).taken = some (message, rest) ↔ next buffer = .message message rest := by
  cases next buffer <;> simp [Turn.taken]

/-- The turns of `onMessage` as a decoder of frames. -/
def decoder : Decoder UInt8 Bytes where
  next buffer := (next buffer).taken
  shorter taken := length_of_next (taken_eq_some.mp taken)
  stable _ taken := taken_eq_some.mpr (next_append (taken_eq_some.mp taken))

/-- How often `conn->shutdown()` is called with this buffer. -/
def rejections (buffer : Bytes) : Nat := if next buffer = .badLength then 1 else 0

theorem onMessage_of_message (taken : next r.buffer = .message message rest) :
    onMessage r = onMessage { r with messages := r.messages ++ [message], buffer := rest } := by
  rw [onMessage]
  split <;> simp_all

theorem onMessage_of_badLength (bad : next r.buffer = .badLength) :
    onMessage r = { r with shutdowns := r.shutdowns + 1 } := by
  rw [onMessage]
  split <;> simp_all

theorem onMessage_of_wait (waits : next r.buffer = .wait) : onMessage r = r := by
  rw [onMessage]
  split <;> simp_all

/-- `onMessage` hands on what the decoder drains, and shuts down for an inadmissible length in front
of what is left. -/
theorem onMessage_eq (r : Receiver Bytes) :
    onMessage r =
      { messages := r.messages ++ (decoder.drain r.buffer).1
        shutdowns := r.shutdowns + rejections (decoder.drain r.buffer).2
        buffer := (decoder.drain r.buffer).2 } := by
  induction r using onMessage.induct with
  | case1 r message rest taken ih =>
    have found : decoder.next r.buffer = some (message, rest) := taken_eq_some.mpr taken
    rw [onMessage_of_message taken, ih, Decoder.drain_of_some found, List.append_assoc]
    rfl
  | case2 r bad =>
    have none : decoder.next r.buffer = none := congrArg Turn.taken bad
    rw [onMessage_of_badLength bad, Decoder.drain_of_none none, rejections, if_pos bad,
      List.append_nil]
  | case3 r waits =>
    have none : decoder.next r.buffer = none := congrArg Turn.taken waits
    have accepted : next r.buffer ≠ .badLength := by simp [waits]
    rw [onMessage_of_wait waits, Decoder.drain_of_none none, rejections, if_neg accepted,
      List.append_nil, Nat.add_zero]

/-- Chunk by chunk the decoder is fed. -/
theorem foldl_deliver (chunks : List Bytes) (r : Receiver Bytes) :
    (chunks.foldl Receiver.deliver r).messages = r.messages ++ (decoder.feed r.buffer chunks).1 ∧
      (chunks.foldl Receiver.deliver r).buffer = (decoder.feed r.buffer chunks).2 := by
  induction chunks generalizing r with
  | nil => exact ⟨(List.append_nil _).symm, rfl⟩
  | cons chunk chunks ih =>
    obtain ⟨messages, left⟩ := ih (r.deliver chunk)
    rw [List.foldl_cons, messages, left, Receiver.deliver, onMessage_eq, List.append_assoc]
    exact ⟨rfl, rfl⟩

/-- What comes out is a function of the stream. -/
theorem receive_eq_drain (chunks : List Bytes) :
    (receive chunks).messages = (decoder.drain chunks.flatten).1 ∧
      (receive chunks).buffer = (decoder.drain chunks.flatten).2 := by
  obtain ⟨messages, left⟩ := foldl_deliver chunks .create
  have fed := Decoder.feed_eq (Decoder.next_nil (d := decoder)) chunks
  exact ⟨messages.trans (congrArg Prod.fst fed), left.trans (congrArg Prod.snd fed)⟩

/-! ## Inadmissible lengths -/

/-- An inadmissible length is in front of the buffer. -/
def Stopped (buffer : Bytes) : Prop :=
  kHeaderLen ≤ buffer.length ∧ Inadmissible (lengthAt buffer)

instance (buffer : Bytes) : Decidable (Stopped buffer) := inferInstanceAs (Decidable (_ ∧ _))

/-- Whatever follows an inadmissible length, nothing is taken. -/
theorem Stopped.drain (stopped : Stopped buffer) (more : Bytes) :
    decoder.drain (buffer ++ more) = ([], buffer ++ more) := by
  have bad : next (buffer ++ more) = .badLength := badLength_append (next_eq_badLength.mpr stopped)
  have none : decoder.next (buffer ++ more) = none := congrArg Turn.taken bad
  exact Decoder.drain_of_none none

/-- `conn->shutdown()` has been called exactly when an inadmissible length was met. -/
theorem deliver_shutdowns (counted : 0 < r.shutdowns ↔ Stopped r.buffer) (chunk : Bytes) :
    0 < (r.deliver chunk).shutdowns ↔ Stopped (r.deliver chunk).buffer := by
  rw [Receiver.deliver, onMessage_eq]
  show 0 < r.shutdowns + rejections (decoder.drain (r.buffer ++ chunk)).2 ↔ _
  by_cases stopped : Stopped (decoder.drain (r.buffer ++ chunk)).2
  · rw [rejections, if_pos (next_eq_badLength.mpr stopped)]
    exact iff_of_true (Nat.succ_pos _) stopped
  · have before : ¬Stopped r.buffer := by
      intro already
      rw [already.drain] at stopped
      exact stopped (next_eq_badLength.mp (badLength_append (next_eq_badLength.mpr already)))
    rw [rejections, if_neg (mt next_eq_badLength.mp stopped)]
    exact iff_of_false (mt counted.mp before) stopped

theorem foldl_shutdowns (chunks : List Bytes) (counted : 0 < r.shutdowns ↔ Stopped r.buffer) :
    0 < (chunks.foldl Receiver.deliver r).shutdowns ↔
      Stopped (chunks.foldl Receiver.deliver r).buffer := by
  induction chunks generalizing r with
  | nil => exact counted
  | cons chunk chunks ih => exact ih (deliver_shutdowns counted chunk)

/-- Two partitions of a stream into chunks give the same messages and leave the same bytes. An
inadmissible length is reported, and nothing that follows it is delivered. -/
theorem receive_partitions (chunks chunks' more : List Bytes) :
    (chunks.flatten = chunks'.flatten → (receive chunks).messages = (receive chunks').messages ∧
        (receive chunks).buffer = (receive chunks').buffer) ∧
      (0 < (receive chunks).shutdowns ↔ Stopped (receive chunks).buffer) ∧
      (Stopped (receive chunks).buffer →
        (receive (chunks ++ more)).messages = (receive chunks).messages) := by
  refine ⟨?_, foldl_shutdowns chunks (by decide), ?_⟩
  · intro same
    obtain ⟨messages, left⟩ := receive_eq_drain chunks
    obtain ⟨messages', left'⟩ := receive_eq_drain chunks'
    rw [messages, left, same]
    exact ⟨messages'.symm, left'.symm⟩
  · intro stopped
    obtain ⟨messages, -⟩ := foldl_deliver more (receive chunks)
    have waits : decoder.next (receive chunks).buffer = none :=
      congrArg Turn.taken (next_eq_badLength.mpr stopped)
    rw [receive, List.foldl_append, ← receive, messages, Decoder.feed_eq waits, stopped.drain,
      List.append_nil]

/-- A message and a negative length behind it, byte by byte and at once. -/
theorem receive_partitions_bytewise :
    (receive [[0], [0, 0, 1], [65, 255], [0, 0, 0]]).messages = [[65]] ∧
      (receive ([[0, 0, 0, 1, 65, 255, 0, 0, 0]] ++ [[0, 0, 0, 0]])).messages = [[65]] := by
  obtain ⟨same, -, -⟩ := receive_partitions [[0], [0, 0, 1], [65, 255], [0, 0, 0]]
    [[0, 0, 0, 1, 65, 255, 0, 0, 0]] []
  obtain ⟨-, -, later⟩ := receive_partitions [[0, 0, 0, 1, 65, 255, 0, 0, 0]]
    [[0, 0, 0, 1, 65, 255, 0, 0, 0]] [[0, 0, 0, 0]]
  have once : (receive [[0, 0, 0, 1, 65, 255, 0, 0, 0]]).messages = [[65]] := by
    decide +kernel
  exact ⟨(same rfl).1.trans once, (later (by decide +kernel)).trans once⟩

end LenHeaderCodec

end Yvent
