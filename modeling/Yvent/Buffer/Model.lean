import Yvent.Buffer.Readable
import Yvent.Misc.Run
import Yvent.Misc.Window
import Mathlib.Algebra.Ring.Nat
import Mathlib.Logic.Function.Basic

/-!
# The buffer and its indices

`Buffer` follows `yvent/Buffer.h` and `yvent/Buffer.cpp`: a vector of bytes, the content between
`readerIndex_` and `writerIndex_`. Everything that could go wrong is an outcome here: an assertion,
a `size_t` that wraps, a size beyond what `std::vector` can have, a copy outside the vector or onto
its own source. `readv` answers the bytes it has read, or that it failed.
-/

namespace Yvent

namespace Buffer

/-- What goes wrong in a function of the buffer. -/
inductive Fault where
  | assertFailed
  | wrapped
  | lengthError
  | outOfBounds
  deriving DecidableEq, Repr

/-- A result, or what went wrong on the way to it. -/
abbrev Checked := Except Fault

/-- `std::vector<char>::max_size()`. -/
def maxSize : Nat := 2 ^ 63 - 1

/-- The condition of an `assert`. -/
def assert (p : Prop) [Decidable p] : Checked Unit :=
  if p then .ok () else .error .assertFailed

/-- A sum of two `size_t`. -/
def add (a b : Nat) : Checked Nat := if a + b < 2 ^ 64 then .ok (a + b) else .error .wrapped

/-- A difference of two `size_t`. -/
def sub (a b : Nat) : Checked Nat := if b ≤ a then .ok (a - b) else .error .wrapped

/-- `buffer_.resize(n)`. -/
def resize (buffer : Bytes) (n : Nat) : Checked Bytes :=
  if n ≤ maxSize then .ok (buffer.take n ++ List.replicate (n - buffer.length) 0)
  else .error .lengthError

/-- `std::copy(data, data + len, begin() + dest)`. -/
def copy (buffer : Bytes) (data : Bytes) (dest : Nat) : Checked Bytes :=
  if dest + data.length ≤ buffer.length then .ok (overwrite buffer dest data)
  else .error .outOfBounds

/-- `std::copy(begin() + first, begin() + last, begin() + dest)`, which needs a destination outside
of the source. -/
def move (buffer : Bytes) (first last dest : Nat) : Checked Bytes :=
  if first ≤ last ∧ last ≤ buffer.length ∧ ¬(first ≤ dest ∧ dest < last) then
    copy buffer (window buffer first last) dest
  else .error .outOfBounds

/-- `Buffer::kCheapPrepend`. -/
def kCheapPrepend : Nat := 8

/-- `Buffer::kInitialSize`. -/
def kInitialSize : Nat := 1024

/-- `sizeof extrabuf`. -/
def extrabufSize : Nat := 65536

end Buffer

/-- The vector and the two indices into it. -/
structure Buffer where
  buffer : Bytes
  readerIndex : Nat
  writerIndex : Nat
  deriving DecidableEq

namespace Buffer

/-- `Buffer::Buffer`; the argument is ignored. -/
def create (_initialSize : Nat) : Buffer where
  buffer := List.replicate (kCheapPrepend + kInitialSize) 0
  readerIndex := kCheapPrepend
  writerIndex := kCheapPrepend

variable (b : Buffer)

/-- The bytes behind `writerIndex_`. -/
def writableBytes : Checked Nat := sub b.buffer.length b.writerIndex

/-- The bytes between the two indices. -/
def readableBytes : Checked Nat := sub b.writerIndex b.readerIndex

/-- The bytes in front of `readerIndex_`. -/
def prependableBytes : Nat := b.readerIndex

/-- Room for `len` more bytes: a longer vector, or the content moved to the front. -/
def makeSpace (len : Nat) : Checked Buffer := do
  let writable ← b.writableBytes
  let room ← add writable b.prependableBytes
  let need ← add len kCheapPrepend
  if room < need then
    let size ← add b.writerIndex len
    let buffer ← resize b.buffer size
    return { b with buffer }
  else
    assert (kCheapPrepend < b.readerIndex)
    let readable ← b.readableBytes
    let buffer ← move b.buffer b.readerIndex b.writerIndex kCheapPrepend
    let writerIndex ← add kCheapPrepend readable
    let moved : Buffer := { buffer, readerIndex := kCheapPrepend, writerIndex }
    let now ← moved.readableBytes
    assert (readable = now)
    return moved

/-- At least `len` writable bytes. -/
def ensureWritableBytes (len : Nat) : Checked Buffer := do
  let writable ← b.writableBytes
  let b ← if writable < len then b.makeSpace len else pure b
  let now ← b.writableBytes
  assert (len ≤ now)
  return b

/-- `len` bytes have been written behind the content. -/
def hasWritten (len : Nat) : Checked Buffer := do
  let writable ← b.writableBytes
  assert (len ≤ writable)
  let writerIndex ← add b.writerIndex len
  return { b with writerIndex }

/-- The bytes are copied behind the content. -/
def append (data : Bytes) : Checked Buffer := do
  let b ← b.ensureWritableBytes data.length
  let buffer ← copy b.buffer data b.writerIndex
  hasWritten { b with buffer } data.length

/-- The bytes are copied in front of the content. -/
def prepend (data : Bytes) : Checked Buffer := do
  assert (data.length ≤ b.prependableBytes)
  let readerIndex ← sub b.readerIndex data.length
  let buffer ← copy b.buffer data readerIndex
  return { b with buffer, readerIndex }

/-- The content is dropped. -/
def retrieveAll : Buffer := { b with readerIndex := kCheapPrepend, writerIndex := kCheapPrepend }

/-- The first `len` bytes are dropped. -/
def retrieve (len : Nat) : Checked Buffer := do
  let readable ← b.readableBytes
  assert (len ≤ readable)
  if len < readable then
    let readerIndex ← add b.readerIndex len
    return { b with readerIndex }
  else return b.retrieveAll

/-- The first `len` bytes, which are dropped. -/
def retrieveAsString (len : Nat) : Checked (Bytes × Buffer) := do
  let readable ← b.readableBytes
  assert (len ≤ readable)
  let result := window b.buffer b.readerIndex (b.readerIndex + len)
  let b ← b.retrieve len
  return (result, b)

/-- `retrieveUntil(begin() + stop)`. -/
def retrieveUntilIndex (stop : Nat) : Checked Buffer := do
  assert (b.readerIndex ≤ stop)
  assert (stop ≤ b.writerIndex)
  let len ← sub stop b.readerIndex
  b.retrieve len

/-- How many bytes `readv` may return over its segments. -/
def readvLimit (writable : Nat) : Nat :=
  if writable < extrabufSize then writable + extrabufSize else writable

/-- `readFd`, with the answer of `readv`: the bytes it has read, or `none` for `-1`. The bytes
beyond the writable ones are in `extrabuf`. -/
def readFd (answer : Option Bytes) : Checked Buffer := do
  let writable ← b.writableBytes
  match answer with
  | none => return b
  | some data =>
    let buffer ← copy b.buffer (data.take writable) b.writerIndex
    if data.length ≤ writable then
      let writerIndex ← add b.writerIndex data.length
      return { b with buffer, writerIndex }
    else
      let full : Buffer := { b with buffer, writerIndex := buffer.length }
      full.append (data.drop writable)

/-- The bytes between the indices. -/
def content : Bytes := window b.buffer b.readerIndex b.writerIndex

/-- `findCRLF()`: the index of the first line end, if there is one. -/
def findCRLFIndex : Option Nat := (findCRLF b.content).map (b.readerIndex + ·)

/-- The argument of `resize` in `ensureWritableBytes(len)`, if it is called there. -/
def resizeArg (len : Nat) : Option Nat :=
  if b.buffer.length - b.writerIndex < len ∧
      b.buffer.length - b.writerIndex + b.readerIndex < len + kCheapPrepend then
    some (b.writerIndex + len)
  else none

end Buffer

/-! ## Byte queues -/

/-- What a buffer is for: a sequence of bytes. `prepended` tells whether something has been put in
front of it since it was last empty. -/
structure ByteQueue where
  content : Bytes
  prepended : Bool
  clear : content = [] → prepended = false

namespace ByteQueue

/-- The queue with this content; an empty one forgets what was prepended. -/
def make (content : Bytes) (prepended : Bool) : ByteQueue where
  content := content
  prepended := prepended && !content.isEmpty
  clear := by
    intro empty
    simp [empty]

variable (q : ByteQueue)

/-- The bytes go to the end of the queue. -/
def append (data : Bytes) : ByteQueue := make (q.content ++ data) q.prepended

/-- The bytes go to the front of the queue. -/
def prepend (data : Bytes) : ByteQueue := make (data ++ q.content) true

/-- The first `len` bytes leave the queue. -/
def retrieve (len : Nat) : ByteQueue := make (q.content.drop len) q.prepended

end ByteQueue

/-! ## Buffers under a sequence of operations -/

namespace Buffer

/-- Buffers named by `ι` beside the byte queues they stand for. `faults`, the strings returned by
`retrieveAsString` and the strings `expected` of the queues are history. -/
structure Pool (ι : Type) where
  buffers : ι → Buffer
  queues : ι → ByteQueue
  faults : List Fault
  strings : List Bytes
  expected : List Bytes

/-- The operations on a family of buffers. -/
inductive Op (ι : Type) where
  | append (i : ι) (data : Bytes)
  | prepend (i : ι) (data : Bytes)
  | retrieve (i : ι) (len : Nat)
  | retrieveUntil (i : ι) (stop : Nat)
  | retrieveAsString (i : ι) (len : Nat)
  | retrieveAll (i : ι)
  | ensureWritableBytes (i : ι) (len : Nat)
  | readFd (i : ι) (answer : Option Bytes)
  | swap (i j : ι)

variable {ι : Type} [DecidableEq ι]

/-- New buffers. -/
def Pool.create : Pool ι where
  buffers := fun _ => Buffer.create kInitialSize
  queues := fun _ => .make [] false
  faults := []
  strings := []
  expected := []

/-- An operation on one buffer beside the one on its queue. -/
def Pool.on (p : Pool ι) (i : ι) (op : Buffer → Checked Buffer) (spec : ByteQueue → ByteQueue) :
    Pool ι :=
  match op (p.buffers i) with
  | .ok b =>
    { p with
      buffers := Function.update p.buffers i b
      queues := Function.update p.queues i (spec (p.queues i)) }
  | .error fault => { p with faults := p.faults ++ [fault] }

/-- `retrieveAsString`. -/
def Pool.take (p : Pool ι) (i : ι) (len : Nat) : Pool ι :=
  match (p.buffers i).retrieveAsString len with
  | .ok (result, b) =>
    { p with
      buffers := Function.update p.buffers i b
      queues := Function.update p.queues i ((p.queues i).retrieve len)
      strings := p.strings ++ [result]
      expected := p.expected ++ [(p.queues i).content.take len] }
  | .error fault => { p with faults := p.faults ++ [fault] }

/-- `swap`: the vectors and the indices change places, and with them the queues. -/
def Pool.swap (p : Pool ι) (i j : ι) : Pool ι :=
  { p with
    buffers := Function.update (Function.update p.buffers i (p.buffers j)) j (p.buffers i)
    queues := Function.update (Function.update p.queues i (p.queues j)) j (p.queues i) }

/-- One operation, on the buffers and on the queues beside them. -/
def Pool.step (p : Pool ι) : Op ι → Option (Pool ι)
  | .append i data => some (p.on i (·.append data) (·.append data))
  | .prepend i data => some (p.on i (·.prepend data) (·.prepend data))
  | .retrieve i len => some (p.on i (·.retrieve len) (·.retrieve len))
  | .retrieveUntil i stop =>
    some (p.on i (·.retrieveUntilIndex stop) (·.retrieve (stop - (p.buffers i).readerIndex)))
  | .retrieveAsString i len => some (p.take i len)
  | .retrieveAll i => some (p.on i (fun b => .ok b.retrieveAll) fun _ => .make [] false)
  | .ensureWritableBytes i len => some (p.on i (·.ensureWritableBytes len) id)
  | .readFd i answer => some (p.on i (·.readFd answer) (·.append (answer.getD [])))
  | .swap i j => some (p.swap i j)

/-- `ensureWritableBytes(len)` stays within the limits of a vector. -/
def Affords (b : Buffer) (len : Nat) : Prop :=
  len ≤ maxSize ∧ ∀ n ∈ b.resizeArg len, n ≤ maxSize

instance (b : Buffer) (len : Nat) : Decidable (b.Affords len) :=
  inferInstanceAs (Decidable (_ ∧ ∀ n ∈ b.resizeArg len, n ≤ maxSize))

/-- The buffer as `readFd` leaves it to `append` when the bytes do not fit. -/
def filled (b : Buffer) : Buffer := { b with writerIndex := b.buffer.length }

/-- What the callers of the operations keep to. -/
def Admissible (p : Pool ι) : Op ι → Prop
  | .append i data => (p.buffers i).Affords data.length
  | .prepend i data => data.length ≤ (p.buffers i).prependableBytes
  | .retrieve i len | .retrieveAsString i len =>
    len ≤ (p.buffers i).writerIndex - (p.buffers i).readerIndex
  | .retrieveUntil i stop =>
    (p.buffers i).readerIndex ≤ stop ∧ stop ≤ (p.buffers i).writerIndex
  | .ensureWritableBytes i len => (p.buffers i).Affords len
  | .readFd i (some data) =>
    data.length ≤ readvLimit ((p.buffers i).buffer.length - (p.buffers i).writerIndex) ∧
      (p.buffers i).filled.Affords
        (data.length - ((p.buffers i).buffer.length - (p.buffers i).writerIndex))
  | .readFd _ none | .retrieveAll _ | .swap _ _ => True

instance : ∀ (p : Pool ι) (op : Op ι), Decidable (Admissible p op)
  | _, .append _ _ | _, .ensureWritableBytes _ _ => inferInstanceAs (Decidable (Affords _ _))
  | _, .prepend _ _ | _, .retrieve _ _ | _, .retrieveAsString _ _ =>
    inferInstanceAs (Decidable (_ ≤ _))
  | _, .retrieveUntil _ _ => inferInstanceAs (Decidable (_ ≤ _ ∧ _ ≤ _))
  | _, .readFd _ (some _) => inferInstanceAs (Decidable (_ ≤ _ ∧ Affords _ _))
  | _, .readFd _ none | _, .retrieveAll _ | _, .swap _ _ => isTrue trivial

end Buffer

end Yvent
