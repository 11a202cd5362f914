import Yvent.Codec.Decoding

/-!
# The codec on its buffers

`onMessage` and `send` keep to what the operations of `Buffer` ask for: no assertion fails, nothing
wraps and nothing outside the vector is read, and of a buffer only its bytes matter. The eight bytes
that a new buffer leaves in front are enough for the header.
-/

namespace Yvent

namespace LenHeaderCodec

open Buffer

variable {b b' : Buffer} {q : ByteQueue} {message bytes : Bytes} {r : Receiver Buffer}
  {s : Receiver Bytes}

/-! ## Receiving -/

/-- The word in front of the content is read. -/
theorem peekInt32_eq (refined : b.Refines q) (header : kHeaderLen ≤ q.content.length) :
    b.peekInt32 = .ok (wordAt q.content) := by
  have inside := refined.inside
  have length := refined.length
  have four : kHeaderLen = 4 := rfl
  have front : window b.buffer b.readerIndex (b.readerIndex + 4) = q.content.take 4 := by
    rw [← refined.content, Buffer.content, take_window (by omega)]
  have whole : 4 ≤ (q.content.take 4).length := by
    rw [List.length_take]
    omega
  have prefixed : wordAt (q.content.take 4 ++ q.content.drop 4) = wordAt (q.content.take 4) :=
    wordAt_append whole
  rw [List.take_append_drop] at prefixed
  rw [Buffer.peekInt32, if_pos (by omega), front, prefixed]

/-- Both turns come to the same. -/
def Turn.Refines : Turn Buffer → Turn Bytes → Prop
  | .message message b, .message message' rest =>
    message = message' ∧ ∃ q : ByteQueue, b.Refines q ∧ q.content = rest
  | .badLength, .badLength | .wait, .wait => True
  | _, _ => False

/-- A turn with a whole header in front. -/
theorem turn_of_header (refined : b.Refines q) (header : kHeaderLen ≤ q.content.length) :
    Buffered.turn b =
      if Inadmissible (lengthAt q.content) then .ok .badLength
      else if (lengthAt q.content).toNat + kHeaderLen ≤ b.writerIndex - b.readerIndex then do
        let b ← b.retrieve kHeaderLen
        let (message, b) ← b.retrieveAsString (lengthAt q.content).toNat
        return .message message b
      else .ok .wait := by
  have length := refined.length
  rw [Buffered.turn, refined.readableBytes, ok_bind, if_neg (by omega), peekInt32_eq refined header]
  rfl

/-- The bytes of the message are there, and are taken. -/
theorem message_refines (refined : b.Refines q) {len : Nat}
    (whole : len + kHeaderLen ≤ q.content.length) :
    ∃ left : Buffer, (do
        let b ← b.retrieve kHeaderLen
        let (message, b) ← b.retrieveAsString len
        return Turn.message message b : Checked (Turn Buffer)) =
          .ok (.message ((q.content.drop kHeaderLen).take len) left) ∧
      left.Refines ((q.retrieve kHeaderLen).retrieve len) := by
  have length := refined.length
  obtain ⟨body, retrieved, behindHeader⟩ :=
    refined.retrieve (show kHeaderLen ≤ b.writerIndex - b.readerIndex by omega)
  have bodyLength : q.content.length - kHeaderLen = body.writerIndex - body.readerIndex := by
    rw [← behindHeader.length, ← List.length_drop]
    rfl
  obtain ⟨left, asString, behindBody⟩ := behindHeader.retrieveAsString
    (show len ≤ body.writerIndex - body.readerIndex by omega)
  refine ⟨left, ?_, behindBody⟩
  rw [retrieved, ok_bind, asString]
  rfl

theorem turn_refines (refined : b.Refines q) :
    ∃ t, Buffered.turn b = .ok t ∧ t.Refines (next q.content) := by
  have length := refined.length
  by_cases short : q.content.length < kHeaderLen
  · refine ⟨.wait, ?_, ?_⟩
    · rw [Buffered.turn, refined.readableBytes, ok_bind, if_pos (by omega)]
      rfl
    · rw [next, if_pos short]
      trivial
  · have header := Nat.le_of_not_lt short
    rw [turn_of_header refined header, ← length, next_of_header header]
    by_cases bad : Inadmissible (lengthAt q.content)
    · rw [if_pos bad, if_pos bad]
      exact ⟨.badLength, rfl, trivial⟩
    · rw [if_neg bad, if_neg bad]
      by_cases whole : (lengthAt q.content).toNat + kHeaderLen ≤ q.content.length
      · rw [if_pos whole, if_pos whole]
        obtain ⟨left, taken, behind⟩ := message_refines refined whole
        exact ⟨.message _ left, taken, rfl, _, behind, rfl⟩
      · rw [if_neg whole, if_neg whole]
        exact ⟨.wait, rfl, trivial⟩

/-- The receivers agree: of the buffer, its bytes matter. -/
structure Receiver.Refines (r : Receiver Buffer) (s : Receiver Bytes) : Prop where
  messages : r.messages = s.messages
  shutdowns : r.shutdowns = s.shutdowns
  buffer : ∃ q : ByteQueue, r.buffer.Refines q ∧ q.content = s.buffer

theorem Receiver.Refines.turn (refined : r.Refines s) :
    ∃ t, Buffered.turn r.buffer = .ok t ∧ t.Refines (next s.buffer) := by
  obtain ⟨q, buffer, content⟩ := refined.buffer
  obtain ⟨t, turned, agree⟩ := turn_refines buffer
  exact ⟨t, turned, content ▸ agree⟩

/-- `onMessage` fails nowhere. -/
theorem onMessage_refines (refined : r.Refines s) :
    ∃ r', Buffered.onMessage r = .ok r' ∧ r'.Refines (onMessage s) := by
  induction s using onMessage.induct generalizing r with
  | case1 s message rest taken ih =>
    obtain ⟨t, turned, agree⟩ := refined.turn
    rw [taken] at agree
    cases t with
    | message message' b =>
      obtain ⟨rfl, behind⟩ := agree
      obtain ⟨r', returned, last⟩ := ih (r := ⟨r.messages ++ [message'], r.shutdowns, b⟩)
        ⟨by rw [refined.messages], refined.shutdowns, behind⟩
      refine ⟨r', ?_, ?_⟩
      · rw [Buffered.onMessage_of_message turned, returned]
      · rw [onMessage_of_message taken]
        exact last
    | badLength => exact agree.elim
    | wait => exact agree.elim
  | case2 s bad =>
    obtain ⟨t, turned, agree⟩ := refined.turn
    rw [bad] at agree
    cases t with
    | message => exact agree.elim
    | badLength =>
      refine ⟨_, Buffered.onMessage_of_badLength turned, ?_⟩
      rw [onMessage_of_badLength bad]
      exact ⟨refined.messages, by rw [refined.shutdowns], refined.buffer⟩
    | wait => exact agree.elim
  | case3 s waits =>
    obtain ⟨t, turned, agree⟩ := refined.turn
    rw [waits] at agree
    cases t with
    | message => exact agree.elim
    | badLength => exact agree.elim
    | wait =>
      refine ⟨r, Buffered.onMessage_of_wait turned, ?_⟩
      rw [onMessage_of_wait waits]
      exact refined

/-- A chunk for which the vector has room is delivered. -/
theorem deliver_refines {chunk : Bytes} (refined : r.Refines s)
    (affords : r.buffer.filled.Affords
      (chunk.length - (r.buffer.buffer.length - r.buffer.writerIndex))) :
    ∃ r', Buffered.deliver r chunk = .ok r' ∧ r'.Refines (s.deliver chunk) := by
  obtain ⟨q, buffer, content⟩ := refined.buffer
  obtain ⟨b, read, behind⟩ := buffer.readFd affords
  have appended : (q.append chunk).content = s.buffer ++ chunk := by
    rw [← content]
    rfl
  rw [Buffered.deliver, read, ok_bind]
  exact onMessage_refines ⟨refined.messages, refined.shutdowns, _, behind, appended⟩

theorem buffer_of_turn (taken : Buffered.turn b = .ok (.message message b')) :
    b'.buffer = b.buffer := by
  obtain ⟨readable, -, taken⟩ := exists_of_bind taken
  split at taken
  · cases taken
  · obtain ⟨net, -, taken⟩ := exists_of_bind taken
    dsimp only at taken
    split at taken
    · cases taken
    · split at taken
      · obtain ⟨body, retrieved, taken⟩ := exists_of_bind taken
        obtain ⟨⟨text, left⟩, asString, taken⟩ := exists_of_bind taken
        cases taken
        exact (buffer_of_retrieveAsString asString).trans (buffer_of_retrieve retrieved)
      · cases taken

/-- Taking messages leaves the vector as it is. -/
theorem buffer_of_onMessage {r' : Receiver Buffer} (returns : Buffered.onMessage r = .ok r') :
    r'.buffer.buffer = r.buffer.buffer := by
  induction r using Buffered.onMessage.induct with
  | case1 r fault turned =>
    rw [Buffered.onMessage_of_error turned] at returns
    cases returns
  | case2 r message b turned ih =>
    rw [Buffered.onMessage_of_message turned] at returns
    exact (ih returns).trans (buffer_of_turn turned)
  | case3 r turned =>
    rw [Buffered.onMessage_of_badLength turned] at returns
    cases returns
    rfl
  | case4 r turned =>
    rw [Buffered.onMessage_of_wait turned] at returns
    cases returns
    rfl

/-- So long as the vector has room for a chunk, the buffer affords it. -/
theorem affords_of_room {chunk : Bytes}
    (room : b.buffer.length + chunk.length ≤ maxSize) :
    b.filled.Affords (chunk.length - (b.buffer.length - b.writerIndex)) := by
  refine ⟨by omega, ?_⟩
  intro n resized
  unfold resizeArg at resized
  split at resized <;> cases resized
  show b.buffer.length + (chunk.length - (b.buffer.length - b.writerIndex)) ≤ maxSize
  omega

/-- A message behind its header. -/
def frame (message : Bytes) : Bytes :=
  wordBytes (htonl (.ofNat 32 message.length)) ++ message

/-- The header fits into the bytes that a new buffer leaves in front. -/
theorem prepended_header (refined : b.Refines (.append (.make [] false) message)) :
    ∃ b', b.prepend (wordBytes (htonl (.ofNat 32 message.length))) = .ok b' ∧
      b'.content = frame message := by
  have cheap : kCheapPrepend ≤ b.prependableBytes := refined.cheap rfl
  have room : (wordBytes (htonl (.ofNat 32 message.length))).length ≤ b.prependableBytes := by
    rw [length_wordBytes]
    exact Nat.le_trans (by decide) cheap
  obtain ⟨b', prepended, front⟩ := refined.prepend room
  exact ⟨b', prepended, front.content⟩

/-- What is accepted is sent behind its header. -/
theorem eq_frame_of_send (sent : send message = .ok bytes) : bytes = frame message := by
  obtain ⟨b, appended, sent⟩ := exists_of_bind sent
  have fresh := Refines.create kInitialSize
  obtain ⟨b', appended', refined⟩ := fresh.append (fresh.affords_of_append appended)
  rw [appended] at appended'
  cases appended'
  obtain ⟨front, prepended, content⟩ := prepended_header refined
  obtain ⟨front', prepended', sent⟩ := exists_of_bind sent
  rw [prepended] at prepended'
  cases prepended'
  cases sent
  exact content

/-- Every message that a vector can hold is accepted. -/
theorem send_eq_frame (fits : kCheapPrepend + message.length ≤ maxSize) :
    send message = .ok (frame message) := by
  have affords : (Buffer.create kInitialSize).Affords message.length := by
    refine ⟨Nat.le_of_add_left_le fits, ?_⟩
    intro n resized
    unfold resizeArg at resized
    split at resized <;> cases resized
    exact fits
  obtain ⟨b, appended, refined⟩ := (Refines.create kInitialSize).append affords
  obtain ⟨front, prepended, content⟩ := prepended_header refined
  rw [send, appended, ok_bind]
  dsimp only
  rw [prepended, ok_bind, content]
  rfl

end LenHeaderCodec

end Yvent
