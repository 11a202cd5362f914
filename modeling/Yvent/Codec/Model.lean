import Yvent.Buffer.Refinement
import Yvent.Misc.Word

/-!
# The length-header codec

`LenHeaderCodec` follows `example/chat/codec.h`: each message goes behind a word in network order
that is its length. The machine keeps the lowest byte of a word first, so `htonl` and `ntohl` swap
the bytes. The callbacks and the logged lengths are history.
-/

namespace Yvent

/-- `Buffer::peekInt32`; nothing but the vector limits what it reads. -/
def Buffer.peekInt32 (b : Buffer) : Buffer.Checked (BitVec 32) :=
  if b.readerIndex + 4 ≤ b.buffer.length then
    .ok (wordAt (window b.buffer b.readerIndex (b.readerIndex + 4)))
  else .error .outOfBounds

namespace LenHeaderCodec

open Buffer

/-- The length of the header. -/
def kHeaderLen : Nat := 4

/-- Host to network order on a little-endian machine. -/
def htonl (w : BitVec 32) : BitVec 32 := byteSwap w

/-- Network to host order on a little-endian machine. -/
def ntohl (w : BitVec 32) : BitVec 32 := byteSwap w

/-- What one turn of the loop of `onMessage` comes to: a message and the buffer behind it, a length
that is not admissible, or waiting for more bytes. -/
inductive Turn (β : Type) where
  | message (message : Bytes) (buffer : β)
  | badLength
  | wait
  deriving DecidableEq

/-- What the receiver's callback got, how often `conn->shutdown()` was called, and the buffer. -/
structure Receiver (β : Type) where
  messages : List Bytes
  shutdowns : Nat
  buffer : β
  deriving DecidableEq

/-- The sending side: the bytes given to `conn->send`. -/
def send (message : Bytes) : Checked Bytes := do
  let b ← (Buffer.create kInitialSize).append message
  let len := BitVec.ofNat 32 message.length
  let netLen := htonl len
  let b ← b.prepend (wordBytes netLen)
  return b.content

/-! ## The receiving side on its buffer -/

namespace Buffered

/-- A turn of the loop. -/
def turn (b : Buffer) : Checked (Turn Buffer) := do
  let readable ← b.readableBytes
  if readable < kHeaderLen then return .wait
  else
    let net ← b.peekInt32
    let len := (ntohl net).toInt
    if 65536 < len ∨ len < 0 then return .badLength
    else if len.toNat + kHeaderLen ≤ readable then
      let b ← b.retrieve kHeaderLen
      let (message, b) ← b.retrieveAsString len.toNat
      return .message message b
    else return .wait

/-- A message leaves less to read. -/
theorem readable_of_turn {b b' : Buffer} {message : Bytes}
    (taken : turn b = .ok (.message message b')) :
    b'.writerIndex - b'.readerIndex < b.writerIndex - b.readerIndex := by
  obtain ⟨readable, here, taken⟩ := exists_of_bind taken
  obtain rfl := eq_of_sub here
  split at taken
  · cases taken
  · next header =>
    obtain ⟨net, -, taken⟩ := exists_of_bind taken
    dsimp only at taken
    split at taken
    · cases taken
    · split at taken
      · obtain ⟨body, retrieved, taken⟩ := exists_of_bind taken
        obtain ⟨⟨text, left⟩, asString, taken⟩ := exists_of_bind taken
        cases taken
        have behindHeader := (readable_of_retrieve retrieved).2
        have behindBody := readable_of_retrieveAsString asString
        have positive : kHeaderLen = 4 := rfl
        show left.writerIndex - left.readerIndex < _
        omega
      · cases taken

/-- `onMessage`. -/
def onMessage (r : Receiver Buffer) : Checked (Receiver Buffer) :=
  match _ : turn r.buffer with
  | .error fault => .error fault
  | .ok (.message message b) =>
    onMessage { r with messages := r.messages ++ [message], buffer := b }
  | .ok .badLength => .ok { r with shutdowns := r.shutdowns + 1 }
  | .ok .wait => .ok r
termination_by r.buffer.writerIndex - r.buffer.readerIndex
decreasing_by exact readable_of_turn (by assumption)

variable {r : Receiver Buffer} {message : Bytes} {b : Buffer}

theorem onMessage_of_error {fault : Fault} (fails : turn r.buffer = .error fault) :
    onMessage r = .error fault := by
  rw [onMessage]
  split <;> simp_all

theorem onMessage_of_message (taken : turn r.buffer = .ok (.message message b)) :
    onMessage r = onMessage { r with messages := r.messages ++ [message], buffer := b } := by
  rw [onMessage]
  split <;> simp_all

theorem onMessage_of_badLength (bad : turn r.buffer = .ok .badLength) :
    onMessage r = .ok { r with shutdowns := r.shutdowns + 1 } := by
  rw [onMessage]
  split <;> simp_all

theorem onMessage_of_wait (waits : turn r.buffer = .ok .wait) : onMessage r = .ok r := by
  rw [onMessage]
  split <;> simp_all

/-- `readFd` puts a chunk behind the content, and `onMessage` is called. -/
def deliver (r : Receiver Buffer) (chunk : Bytes) : Checked (Receiver Buffer) := do
  let buffer ← r.buffer.readFd (some chunk)
  onMessage { r with buffer }

/-- A receiver with an empty buffer. -/
def create : Receiver Buffer where
  messages := []
  shutdowns := 0
  buffer := .create kInitialSize

/-- The receiver behind a sequence of chunks. -/
def receive (chunks : List Bytes) : Checked (Receiver Buffer) := chunks.foldlM deliver create

end Buffered

/-! ## The receiving side on the bytes of its buffer -/

/-- A turn of the loop. -/
def next (buffer : Bytes) : Turn Bytes :=
  if buffer.length < kHeaderLen then .wait
  else
    let len := (ntohl (wordAt buffer)).toInt
    if 65536 < len ∨ len < 0 then .badLength
    else if len.toNat + kHeaderLen ≤ buffer.length then
      .message ((buffer.drop kHeaderLen).take len.toNat) ((buffer.drop kHeaderLen).drop len.toNat)
    else .wait

/-- A message leaves a shorter buffer. -/
theorem length_of_next {buffer rest message : Bytes} (taken : next buffer = .message message rest) :
    rest.length < buffer.length := by
  unfold next at taken
  split at taken
  · cases taken
  · next header =>
    dsimp only at taken
    split at taken
    · cases taken
    · split at taken <;> cases taken
      rw [List.length_drop, List.length_drop]
      have positive : kHeaderLen = 4 := rfl
      omega

/-- `onMessage`. -/
def onMessage (r : Receiver Bytes) : Receiver Bytes :=
  match _ : next r.buffer with
  | .message message rest =>
    onMessage { r with messages := r.messages ++ [message], buffer := rest }
  | .badLength => { r with shutdowns := r.shutdowns + 1 }
  | .wait => r
termination_by r.buffer.length
decreasing_by exact length_of_next (by assumption)

/-- Before the first bytes. -/
def Receiver.create : Receiver Bytes where
  messages := []
  shutdowns := 0
  buffer := []

/-- More bytes are read behind those in the buffer, and `onMessage` is called. -/
def Receiver.deliver (r : Receiver Bytes) (chunk : Bytes) : Receiver Bytes :=
  onMessage { r with buffer := r.buffer ++ chunk }

/-- The receiver behind a sequence of chunks. -/
def receive (chunks : List Bytes) : Receiver Bytes := chunks.foldl Receiver.deliver .create

end LenHeaderCodec

end Yvent
