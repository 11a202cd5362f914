import Yvent.Buffer.Model

/-!
# A buffer is a byte queue

Between the indices of a buffer lies the content of its byte queue, whatever was done to it. The
branch of `makeSpace` that compacts is taken when the bytes before the content, without the eight
that stay, and those behind it are together as many as asked for; as those behind it alone are not,
the content then really moves forward.
-/

namespace Yvent

namespace ByteQueue

variable {q : ByteQueue} {content data : Bytes} {prepended : Bool}

theorem make_nil : make [] prepended = make [] false := by
  simp [make]

theorem make_content : make q.content q.prepended = q := by
  obtain ⟨content, prepended, clear⟩ := q
  cases content with
  | nil => simp [make, clear rfl]
  | cons c content => simp [make]

theorem prepended_make (plain : (make content prepended).prepended = false) :
    prepended = false ∨ content = [] := by
  cases prepended with
  | false => exact .inl rfl
  | true => exact .inr (by simpa [make] using plain)

theorem prepended_of_append (plain : (q.append data).prepended = false) : q.prepended = false := by
  rcases prepended_make plain with plain | empty
  · exact plain
  · exact q.clear (List.append_eq_nil_iff.mp empty).1

theorem nil_of_prepend (plain : (q.prepend data).prepended = false) :
    data = [] ∧ q.prepended = false := by
  rcases prepended_make plain with absurd | empty
  · cases absurd
  · obtain ⟨rfl, empty⟩ := List.append_eq_nil_iff.mp empty
    exact ⟨rfl, q.clear empty⟩

/-- Nothing appended changes nothing. -/
theorem append_nil : q.append [] = q := by
  rw [append, List.append_nil, make_content]

theorem append_append {more : Bytes} : (q.append data).append more = q.append (data ++ more) := by
  cases data with
  | nil => rw [append_nil, List.nil_append]
  | cons c data =>
    have nonempty : ∀ rest, (q.content ++ c :: rest).isEmpty = false := by simp
    simp [append, make, nonempty]

end ByteQueue

namespace Buffer

variable {b b' : Buffer} {q : ByteQueue} {data : Bytes} {len : Nat}

/-! ## Checked expressions -/

theorem ok_bind {α β : Type} (x : α) (f : α → Checked β) : (Except.ok x >>= f) = f x := rfl

theorem exists_of_bind {α β : Type} {x : Checked α} {f : α → Checked β} {y : β}
    (returns : (x >>= f) = .ok y) : ∃ a, x = .ok a ∧ f a = .ok y := by
  cases x with
  | error => cases returns
  | ok a => exact ⟨a, rfl, returns⟩

theorem assert_ok {p : Prop} [Decidable p] (holds : p) : assert p = .ok () := if_pos holds

theorem add_ok {m n : Nat} (small : m + n < 2 ^ 64) : add m n = .ok (m + n) := if_pos small

theorem sub_ok {m n : Nat} (le : n ≤ m) : sub m n = .ok (m - n) := if_pos le

theorem of_assert {p : Prop} [Decidable p] {x : Unit} (returns : assert p = .ok x) : p := by
  unfold assert at returns
  split at returns
  · assumption
  · cases returns

theorem eq_of_add {m n k : Nat} (returns : add m n = .ok k) : k = m + n := by
  unfold add at returns
  split at returns <;> cases returns
  rfl

theorem eq_of_sub {m n k : Nat} (returns : sub m n = .ok k) : k = m - n := by
  unfold sub at returns
  split at returns <;> cases returns
  rfl

theorem copy_ok {buffer : Bytes} {dest : Nat} (inside : dest + data.length ≤ buffer.length) :
    copy buffer data dest = .ok (overwrite buffer dest data) := if_pos inside

theorem maxSize_lt : maxSize + maxSize < 2 ^ 64 := by decide

theorem kCheapPrepend_le : kCheapPrepend ≤ maxSize := by decide

/-! ## What the indices say -/

/-- The buffer holds the content of the queue between its indices, and has the bytes to prepend
that a queue without prepended bytes leaves. -/
structure Refines (b : Buffer) (q : ByteQueue) : Prop where
  content : b.content = q.content
  ordered : b.readerIndex ≤ b.writerIndex
  inside : b.writerIndex ≤ b.buffer.length
  size : b.buffer.length ≤ maxSize
  front : kCheapPrepend ≤ b.buffer.length
  cheap : q.prepended = false → kCheapPrepend ≤ b.readerIndex

theorem Refines.create (initialSize : Nat) : (create initialSize).Refines (.make [] false) where
  content := window_self
  ordered := Nat.le_refl _
  inside := by
    rw [Buffer.create, List.length_replicate]
    decide
  size := by
    rw [Buffer.create, List.length_replicate]
    decide
  front := by
    rw [Buffer.create, List.length_replicate]
    decide
  cheap _ := Nat.le_refl _

theorem Refines.length (r : b.Refines q) : q.content.length = b.writerIndex - b.readerIndex := by
  rw [← r.content]
  exact length_window r.inside

theorem Refines.writableBytes (r : b.Refines q) :
    b.writableBytes = .ok (b.buffer.length - b.writerIndex) := sub_ok r.inside

theorem Refines.readableBytes (r : b.Refines q) :
    b.readableBytes = .ok (b.writerIndex - b.readerIndex) := sub_ok r.ordered

/-- The vector grows at its end. -/
theorem Refines.grow (r : b.Refines q) (affords : b.writerIndex + len ≤ maxSize)
    (short : b.buffer.length < b.writerIndex + len) :
    ∃ buffer, resize b.buffer (b.writerIndex + len) = .ok buffer ∧
      buffer.length = b.writerIndex + len ∧ Refines { b with buffer } q := by
  refine ⟨b.buffer ++ List.replicate (b.writerIndex + len - b.buffer.length) 0, ?_, ?_, ?_⟩
  · rw [resize, if_pos affords, List.take_of_length_le (Nat.le_of_lt short)]
  · rw [List.length_append, List.length_replicate]
    omega
  · refine ⟨?_, r.ordered, ?_, ?_, ?_, r.cheap⟩
    · exact (window_append r.inside).trans r.content
    · rw [List.length_append]
      exact Nat.le_add_right_of_le r.inside
    · rw [List.length_append, List.length_replicate]
      omega
    · rw [List.length_append]
      exact Nat.le_add_right_of_le r.front

/-- The content moves forward to the eighth byte. -/
theorem Refines.compact (r : b.Refines q) (ahead : kCheapPrepend < b.readerIndex) :
    ∃ buffer, move b.buffer b.readerIndex b.writerIndex kCheapPrepend = .ok buffer ∧
      buffer.length = b.buffer.length ∧
      Refines ⟨buffer, kCheapPrepend, kCheapPrepend + (b.writerIndex - b.readerIndex)⟩ q := by
  have ordered := r.ordered
  have inside := r.inside
  have length : (window b.buffer b.readerIndex b.writerIndex).length =
      b.writerIndex - b.readerIndex := length_window inside
  have fits : kCheapPrepend + (window b.buffer b.readerIndex b.writerIndex).length ≤
      b.buffer.length := by omega
  refine ⟨overwrite b.buffer kCheapPrepend (window b.buffer b.readerIndex b.writerIndex),
    ?_, length_overwrite fits, ?_, ?_, ?_, ?_, ?_, ?_⟩
  · rw [move, if_pos ⟨ordered, inside, by omega⟩, copy_ok fits]
  · rw [← r.content, Buffer.content, ← length]
    exact window_overwrite_self (by omega)
  · exact Nat.le_add_right ..
  · rw [length_overwrite fits, ← length]
    exact fits
  · rw [length_overwrite fits]
    exact r.size
  · rw [length_overwrite fits]
    exact r.front
  · exact fun _ => Nat.le_refl _

/-- What is retrieved is no longer readable. -/
theorem readable_of_retrieve (returns : b.retrieve len = .ok b') :
    len ≤ b.writerIndex - b.readerIndex ∧
      b'.writerIndex - b'.readerIndex = b.writerIndex - b.readerIndex - len := by
  obtain ⟨readable, here, returns⟩ := exists_of_bind returns
  obtain rfl := eq_of_sub here
  obtain ⟨_, asserted, returns⟩ := exists_of_bind returns
  have le := of_assert asserted
  refine ⟨le, ?_⟩
  split at returns
  · obtain ⟨readerIndex, sum, returns⟩ := exists_of_bind returns
    obtain rfl := eq_of_add sum
    cases returns
    exact Nat.sub_add_eq ..
  · cases returns
    rw [retrieveAll, Nat.sub_self]
    omega

theorem readable_of_retrieveAsString {text : Bytes}
    (returns : b.retrieveAsString len = .ok (text, b')) :
    b'.writerIndex - b'.readerIndex = b.writerIndex - b.readerIndex - len := by
  obtain ⟨readable, -, returns⟩ := exists_of_bind returns
  obtain ⟨_, -, returns⟩ := exists_of_bind returns
  obtain ⟨left, retrieved, returns⟩ := exists_of_bind returns
  cases returns
  exact (readable_of_retrieve retrieved).2

/-! ## The operations -/

/-- `makeSpace` keeps the content and makes the space. -/
theorem Refines.makeSpace (r : b.Refines q) (affords : b.Affords len)
    (short : b.buffer.length - b.writerIndex < len) :
    ∃ b', b.makeSpace len = .ok b' ∧ b'.Refines q ∧ len ≤ b'.buffer.length - b'.writerIndex := by
  obtain ⟨lenSmall, resized⟩ := affords
  have ordered := r.ordered
  have inside := r.inside
  have size := r.size
  have limit := maxSize_lt
  have cheapSmall := kCheapPrepend_le
  have room : add (b.buffer.length - b.writerIndex) b.prependableBytes =
      .ok (b.buffer.length - b.writerIndex + b.readerIndex) :=
    add_ok (by rw [prependableBytes]; omega)
  have need : add len kCheapPrepend = .ok (len + kCheapPrepend) := add_ok (by omega)
  by_cases less : b.buffer.length - b.writerIndex + b.readerIndex < len + kCheapPrepend
  · have asked : b.writerIndex + len ≤ maxSize :=
      resized _ (by rw [resizeArg, if_pos ⟨short, less⟩]; rfl)
    obtain ⟨buffer, grown, length, refined⟩ := r.grow asked (by omega)
    refine ⟨{ b with buffer }, ?_, refined, ?_⟩
    · simp only [Buffer.makeSpace, r.writableBytes, room, need, ok_bind, if_pos less,
        add_ok (Nat.lt_of_le_of_lt asked (by omega)), grown]
      rfl
    · show len ≤ buffer.length - b.writerIndex
      omega
  · have ahead : kCheapPrepend < b.readerIndex := by omega
    obtain ⟨buffer, moved, length, refined⟩ := r.compact ahead
    have readable : add kCheapPrepend (b.writerIndex - b.readerIndex) =
        .ok (kCheapPrepend + (b.writerIndex - b.readerIndex)) := add_ok (by omega)
    refine ⟨_, ?_, refined, ?_⟩
    · simp only [Buffer.makeSpace, r.writableBytes, room, need, ok_bind, if_neg less,
        assert_ok ahead, r.readableBytes, moved, readable, refined.readableBytes]
      rw [assert_ok (by omega), ok_bind]
      rfl
    · show len ≤ buffer.length - (kCheapPrepend + (b.writerIndex - b.readerIndex))
      omega

theorem Refines.ensureWritableBytes (r : b.Refines q) (affords : b.Affords len) :
    ∃ b', b.ensureWritableBytes len = .ok b' ∧ b'.Refines q ∧
      len ≤ b'.buffer.length - b'.writerIndex := by
  by_cases short : b.buffer.length - b.writerIndex < len
  · obtain ⟨b', made, refined, space⟩ := r.makeSpace affords short
    refine ⟨b', ?_, refined, space⟩
    simp only [Buffer.ensureWritableBytes, r.writableBytes, ok_bind, if_pos short, made,
      refined.writableBytes, assert_ok space]
    rfl
  · have space : len ≤ b.buffer.length - b.writerIndex := Nat.le_of_not_lt short
    refine ⟨b, ?_, r, space⟩
    simp only [Buffer.ensureWritableBytes, r.writableBytes, ok_bind, if_neg short, pure_bind,
      assert_ok space]
    rfl

/-- Bytes written behind the content are appended to the queue. -/
theorem Refines.written (r : b.Refines q) (space : data.length ≤ b.buffer.length - b.writerIndex) :
    Refines ⟨overwrite b.buffer b.writerIndex data, b.readerIndex, b.writerIndex + data.length⟩
      (q.append data) := by
  have inside := r.inside
  have fits : b.writerIndex + data.length ≤ b.buffer.length := by omega
  refine ⟨?_, Nat.le_add_right_of_le r.ordered, ?_, ?_, ?_, ?_⟩
  · show window _ b.readerIndex (b.writerIndex + data.length) = q.content ++ data
    rw [window_overwrite_append r.ordered fits, ← r.content, Buffer.content]
  · rw [length_overwrite fits]
    exact fits
  · rw [length_overwrite fits]
    exact r.size
  · rw [length_overwrite fits]
    exact r.front
  · intro plain
    exact r.cheap (ByteQueue.prepended_of_append plain)

theorem Refines.append (r : b.Refines q) (affords : b.Affords data.length) :
    ∃ b', b.append data = .ok b' ∧ b'.Refines (q.append data) := by
  obtain ⟨b', ensured, refined, space⟩ := r.ensureWritableBytes affords
  have inside := refined.inside
  have size := refined.size
  have limit := maxSize_lt
  have fits : b'.writerIndex + data.length ≤ b'.buffer.length := by omega
  have written := refined.written space
  refine ⟨_, ?_, written⟩
  have writable : Buffer.writableBytes { b' with buffer := overwrite b'.buffer b'.writerIndex data } =
      .ok (b'.buffer.length - b'.writerIndex) := by
    rw [← length_overwrite fits]
    exact sub_ok (by rw [length_overwrite fits]; exact inside)
  simp only [Buffer.append, ensured, ok_bind, copy_ok fits, hasWritten, writable, assert_ok space,
    add_ok (Nat.lt_of_le_of_lt fits (by omega))]
  rfl

/-- Where `makeSpace` resizes the vector, it stays within the limit. -/
theorem Refines.resize_of_makeSpace (r : b.Refines q) (returns : b.makeSpace len = .ok b')
    (less : b.buffer.length - b.writerIndex + b.readerIndex < len + kCheapPrepend) :
    b.writerIndex + len ≤ maxSize := by
  unfold Buffer.makeSpace at returns
  obtain ⟨writable, here, returns⟩ := exists_of_bind returns
  obtain ⟨room, roomIs, returns⟩ := exists_of_bind returns
  obtain ⟨need, needIs, returns⟩ := exists_of_bind returns
  rw [r.writableBytes] at here
  cases here
  obtain rfl := eq_of_add roomIs
  obtain rfl := eq_of_add needIs
  rw [prependableBytes, if_pos less] at returns
  obtain ⟨size, sizeIs, returns⟩ := exists_of_bind returns
  obtain ⟨buffer, resized, -⟩ := exists_of_bind returns
  obtain rfl := eq_of_add sizeIs
  unfold resize at resized
  split at resized
  · assumption
  · cases resized

/-- `append` returns within the limits of a vector only. -/
theorem Refines.affords_of_append (r : b.Refines q) (returns : b.append data = .ok b') :
    b.Affords data.length := by
  obtain ⟨ensured, made, -⟩ := exists_of_bind returns
  have inside := r.inside
  have ordered := r.ordered
  have size := r.size
  by_cases short : b.buffer.length - b.writerIndex < data.length
  · obtain ⟨writable, here, made⟩ := exists_of_bind made
    rw [r.writableBytes] at here
    cases here
    rw [if_pos short] at made
    obtain ⟨spaced, made, -⟩ := exists_of_bind made
    by_cases less : b.buffer.length - b.writerIndex + b.readerIndex < data.length + kCheapPrepend
    · have fits := r.resize_of_makeSpace made less
      refine ⟨by omega, ?_⟩
      rw [resizeArg, if_pos ⟨short, less⟩]
      simpa using fits
    · refine ⟨by omega, ?_⟩
      rw [resizeArg, if_neg (fun both => less both.2)]
      simp
  · refine ⟨by omega, ?_⟩
    rw [resizeArg, if_neg (fun both => short both.1)]
    simp

theorem Refines.prepend (r : b.Refines q) (room : data.length ≤ b.prependableBytes) :
    ∃ b', b.prepend data = .ok b' ∧ b'.Refines (q.prepend data) := by
  have ordered := r.ordered
  have inside := r.inside
  have room' : data.length ≤ b.readerIndex := room
  have front : b.readerIndex - data.length + data.length = b.readerIndex := by omega
  have fits : b.readerIndex - data.length + data.length ≤ b.buffer.length := by omega
  refine ⟨⟨overwrite b.buffer (b.readerIndex - data.length) data, b.readerIndex - data.length,
    b.writerIndex⟩, ?_, ?_, ?_, ?_, ?_, ?_, ?_⟩
  · simp only [Buffer.prepend, assert_ok room, sub_ok room', ok_bind, copy_ok fits]
    rfl
  · show window _ (b.readerIndex - data.length) b.writerIndex = data ++ q.content
    rw [window_overwrite_prepend (by omega) inside, front, ← r.content, Buffer.content]
  · exact Nat.sub_le_of_le_add (Nat.le_add_right_of_le ordered)
  · rw [length_overwrite fits]
    exact inside
  · rw [length_overwrite fits]
    exact r.size
  · rw [length_overwrite fits]
    exact r.front
  · intro plain
    obtain ⟨rfl, clear⟩ := ByteQueue.nil_of_prepend plain
    exact r.cheap clear

theorem Refines.retrieveAll (r : b.Refines q) : b.retrieveAll.Refines (.make [] false) where
  content := window_self
  ordered := Nat.le_refl _
  inside := r.front
  size := r.size
  front := r.front
  cheap _ := Nat.le_refl _

/-- What is retrieved leaves at the front; the indices start over when nothing is left. -/
theorem Refines.retrieve (r : b.Refines q) (readable : len ≤ b.writerIndex - b.readerIndex) :
    ∃ b', b.retrieve len = .ok b' ∧ b'.Refines (q.retrieve len) := by
  have inside := r.inside
  have size := r.size
  have limit := maxSize_lt
  by_cases less : len < b.writerIndex - b.readerIndex
  · refine ⟨{ b with readerIndex := b.readerIndex + len }, ?_, ?_, ?_, inside, size, r.front, ?_⟩
    · simp only [Buffer.retrieve, r.readableBytes, ok_bind, assert_ok readable, if_pos less,
        add_ok (show b.readerIndex + len < 2 ^ 64 by omega)]
      rfl
    · show window b.buffer (b.readerIndex + len) b.writerIndex = q.content.drop len
      rw [← r.content, Buffer.content, drop_window]
    · show b.readerIndex + len ≤ b.writerIndex
      omega
    · intro plain
      have length := r.length
      rcases ByteQueue.prepended_make plain with plain | empty
      · exact Nat.le_add_right_of_le (r.cheap plain)
      · rw [List.drop_eq_nil_iff] at empty
        omega
  · refine ⟨b.retrieveAll, ?_, ?_⟩
    · simp only [Buffer.retrieve, r.readableBytes, ok_bind, assert_ok readable, if_neg less]
      rfl
    · have empty : q.content.drop len = [] := by
        apply List.drop_eq_nil_of_le
        rw [r.length]
        omega
      rw [ByteQueue.retrieve, empty, ByteQueue.make_nil]
      exact r.retrieveAll

theorem Refines.retrieveUntilIndex (r : b.Refines q) {stop : Nat} (low : b.readerIndex ≤ stop)
    (high : stop ≤ b.writerIndex) :
    ∃ b', b.retrieveUntilIndex stop = .ok b' ∧
      b'.Refines (q.retrieve (stop - b.readerIndex)) := by
  have readable : stop - b.readerIndex ≤ b.writerIndex - b.readerIndex := by omega
  obtain ⟨b', retrieved, refined⟩ := r.retrieve readable
  refine ⟨b', ?_, refined⟩
  simp only [Buffer.retrieveUntilIndex, assert_ok low, assert_ok high, ok_bind, sub_ok low,
    retrieved]

/-- The line end that `findCRLF` finds can be retrieved with its line. -/
theorem Refines.retrieveLine (r : b.Refines q) {n : Nat} (found : findCRLF q.content = some n) :
    ∃ b', b.retrieveUntilIndex (b.readerIndex + n + 2) = .ok b' ∧
      b'.Refines (q.retrieve (n + 2)) := by
  have short := length_of_findCRLF found
  rw [r.length] at short
  have ordered := r.ordered
  obtain ⟨b', retrieved, refined⟩ :=
    r.retrieveUntilIndex (show b.readerIndex ≤ b.readerIndex + n + 2 by omega) (by omega)
  have len : b.readerIndex + n + 2 - b.readerIndex = n + 2 := by omega
  rw [len] at refined
  exact ⟨b', retrieved, refined⟩

theorem Refines.retrieveAsString (r : b.Refines q)
    (readable : len ≤ b.writerIndex - b.readerIndex) :
    ∃ b', b.retrieveAsString len = .ok (q.content.take len, b') ∧
      b'.Refines (q.retrieve len) := by
  have ordered := r.ordered
  obtain ⟨b', retrieved, refined⟩ := r.retrieve readable
  refine ⟨b', ?_, refined⟩
  simp only [Buffer.retrieveAsString, r.readableBytes, ok_bind, assert_ok readable, retrieved]
  rw [← r.content, Buffer.content, take_window (by omega)]
  rfl

/-- What a vector affords depends on its size and the indices only. -/
theorem Affords.congr (affords : b.Affords len) (length : b.buffer.length = b'.buffer.length)
    (reader : b.readerIndex = b'.readerIndex) (writer : b.writerIndex = b'.writerIndex) :
    b'.Affords len := by
  rw [Affords, resizeArg, length, reader, writer] at affords
  exact affords

/-- What `readv` put behind the content and into `extrabuf` is appended. -/
theorem Refines.readFd (r : b.Refines q)
    (affords : b.filled.Affords (data.length - (b.buffer.length - b.writerIndex))) :
    ∃ b', b.readFd (some data) = .ok b' ∧ b'.Refines (q.append data) := by
  have inside := r.inside
  have size := r.size
  have limit := maxSize_lt
  let writable := b.buffer.length - b.writerIndex
  have room : (data.take writable).length ≤ b.buffer.length - b.writerIndex := by
    rw [List.length_take]
    exact Nat.min_le_left ..
  have fits : b.writerIndex + (data.take writable).length ≤ b.buffer.length := by omega
  have written := r.written room
  by_cases all : data.length ≤ b.buffer.length - b.writerIndex
  · have whole : data.take writable = data := List.take_of_length_le all
    rw [whole] at written fits
    refine ⟨_, ?_, written⟩
    simp only [Buffer.readFd, r.writableBytes, ok_bind, if_pos all]
    rw [List.take_of_length_le all, copy_ok fits, ok_bind,
      add_ok (Nat.lt_of_le_of_lt fits (by omega))]
    rfl
  · have length : (data.take writable).length = b.buffer.length - b.writerIndex :=
      List.length_take_of_le (Nat.le_of_not_le all)
    have filled : b.writerIndex + (data.take writable).length =
        (overwrite b.buffer b.writerIndex (data.take writable)).length := by
      rw [length_overwrite fits]
      omega
    rw [filled] at written
    have spill : (data.drop writable).length = data.length - (b.buffer.length - b.writerIndex) :=
      List.length_drop ..
    rw [← spill] at affords
    obtain ⟨b', appended, refined⟩ := written.append (affords.congr (length_overwrite fits).symm rfl
      (length_overwrite fits).symm)
    refine ⟨b', ?_, ?_⟩
    · simp only [Buffer.readFd, r.writableBytes, ok_bind, if_neg all]
      rw [copy_ok fits, ok_bind]
      exact appended
    · rw [ByteQueue.append_append, List.take_append_drop] at refined
      exact refined

/-! ## The size of the vector -/

theorem length_of_copy {buffer buffer' : Bytes} {dest : Nat}
    (returns : copy buffer data dest = .ok buffer') : buffer'.length = buffer.length := by
  unfold copy at returns
  split at returns <;> cases returns
  next inside => exact length_overwrite inside

theorem length_of_makeSpace (returns : b.makeSpace len = .ok b') :
    b'.buffer.length ≤ max b.buffer.length (b.writerIndex + len) := by
  obtain ⟨writable, -, returns⟩ := exists_of_bind returns
  obtain ⟨room, -, returns⟩ := exists_of_bind returns
  obtain ⟨need, -, returns⟩ := exists_of_bind returns
  split at returns
  · obtain ⟨size, sizeIs, returns⟩ := exists_of_bind returns
    obtain rfl := eq_of_add sizeIs
    obtain ⟨buffer, resized, returns⟩ := exists_of_bind returns
    cases returns
    unfold resize at resized
    split at resized <;> cases resized
    simp only [List.length_append, List.length_take, List.length_replicate]
    omega
  · obtain ⟨_, -, returns⟩ := exists_of_bind returns
    obtain ⟨readable, -, returns⟩ := exists_of_bind returns
    obtain ⟨buffer, moved, returns⟩ := exists_of_bind returns
    obtain ⟨writerIndex, -, returns⟩ := exists_of_bind returns
    obtain ⟨now, -, returns⟩ := exists_of_bind returns
    obtain ⟨_, -, returns⟩ := exists_of_bind returns
    cases returns
    unfold move at moved
    split at moved
    · exact Nat.le_trans (Nat.le_of_eq (length_of_copy moved)) (Nat.le_max_left ..)
    · cases moved

theorem length_of_ensureWritableBytes (returns : b.ensureWritableBytes len = .ok b') :
    b'.buffer.length ≤ max b.buffer.length (b.writerIndex + len) := by
  obtain ⟨writable, -, returns⟩ := exists_of_bind returns
  dsimp only at returns
  split at returns
  · obtain ⟨spaced, spacing, returns⟩ := exists_of_bind returns
    obtain ⟨now, -, returns⟩ := exists_of_bind returns
    obtain ⟨_, -, returns⟩ := exists_of_bind returns
    cases returns
    exact length_of_makeSpace spacing
  · obtain ⟨same, kept, returns⟩ := exists_of_bind returns
    cases kept
    obtain ⟨now, -, returns⟩ := exists_of_bind returns
    obtain ⟨_, -, returns⟩ := exists_of_bind returns
    cases returns
    exact Nat.le_max_left ..

/-- A vector grows at most up to the bytes appended. -/
theorem length_of_append (returns : b.append data = .ok b') :
    b'.buffer.length ≤ max b.buffer.length (b.writerIndex + data.length) := by
  obtain ⟨ensured, made, returns⟩ := exists_of_bind returns
  obtain ⟨buffer, copied, returns⟩ := exists_of_bind returns
  obtain ⟨writable, -, returns⟩ := exists_of_bind returns
  obtain ⟨_, -, returns⟩ := exists_of_bind returns
  obtain ⟨writerIndex, -, returns⟩ := exists_of_bind returns
  cases returns
  rw [length_of_copy copied]
  exact length_of_ensureWritableBytes made

/-- A read makes the vector larger by the bytes read at most. -/
theorem length_of_readFd (returns : b.readFd (some data) = .ok b') :
    b'.buffer.length ≤ b.buffer.length + data.length := by
  obtain ⟨writable, -, returns⟩ := exists_of_bind returns
  obtain ⟨buffer, copied, returns⟩ := exists_of_bind returns
  have length := length_of_copy copied
  split at returns
  · obtain ⟨writerIndex, -, returns⟩ := exists_of_bind returns
    cases returns
    rw [length]
    exact Nat.le_add_right ..
  · have grown := length_of_append returns
    rw [List.length_drop] at grown
    dsimp only at grown
    omega

theorem buffer_of_retrieve (returns : b.retrieve len = .ok b') : b'.buffer = b.buffer := by
  obtain ⟨readable, -, returns⟩ := exists_of_bind returns
  obtain ⟨_, -, returns⟩ := exists_of_bind returns
  split at returns
  · obtain ⟨readerIndex, -, returns⟩ := exists_of_bind returns
    cases returns
    rfl
  · cases returns
    rfl

theorem buffer_of_retrieveAsString {text : Bytes}
    (returns : b.retrieveAsString len = .ok (text, b')) : b'.buffer = b.buffer := by
  obtain ⟨readable, -, returns⟩ := exists_of_bind returns
  obtain ⟨_, -, returns⟩ := exists_of_bind returns
  obtain ⟨left, retrieved, returns⟩ := exists_of_bind returns
  cases returns
  exact buffer_of_retrieve retrieved

/-! ## Sequences of operations -/

section Runs

variable {ι : Type} {p p' : Pool ι}

/-- Each buffer refines its queue, no assertion failed, no expression wrapped and no size was
refused, and the strings returned are those of the queues. -/
structure Pool.Refined (p : Pool ι) : Prop where
  buffers : ∀ i, (p.buffers i).Refines (p.queues i)
  noFault : p.faults = []
  strings : p.strings = p.expected

theorem Pool.Refined.create : Pool.Refined (Pool.create : Pool ι) where
  buffers _ := .create kInitialSize
  noFault := rfl
  strings := rfl

variable [DecidableEq ι]

theorem refines_update {buffers : ι → Buffer} {queues : ι → ByteQueue}
    (refined : ∀ i, (buffers i).Refines (queues i)) {i : ι} (r : b.Refines q) (j : ι) :
    (Function.update buffers i b j).Refines (Function.update queues i q j) := by
  by_cases same : j = i
  · rw [same, Function.update_self, Function.update_self]
    exact r
  · rw [Function.update_of_ne same, Function.update_of_ne same]
    exact refined j

theorem Pool.Refined.on (refined : p.Refined) {i : ι} {op : Buffer → Checked Buffer}
    {spec : ByteQueue → ByteQueue}
    (done : ∃ b', op (p.buffers i) = .ok b' ∧ b'.Refines (spec (p.queues i))) :
    (p.on i op spec).Refined := by
  obtain ⟨b', returned, r⟩ := done
  rw [Pool.on, returned]
  exact ⟨refines_update refined.buffers r, refined.noFault, refined.strings⟩

theorem Pool.Refined.take (refined : p.Refined) {i : ι}
    (readable : len ≤ (p.buffers i).writerIndex - (p.buffers i).readerIndex) :
    (p.take i len).Refined := by
  obtain ⟨b', returned, r⟩ := (refined.buffers i).retrieveAsString readable
  rw [Pool.take, returned]
  exact ⟨refines_update refined.buffers r, refined.noFault, by rw [refined.strings]⟩

theorem Pool.Refined.swap (refined : p.Refined) (i j : ι) : (p.swap i j).Refined where
  buffers := refines_update (refines_update refined.buffers (refined.buffers j))
    (refined.buffers i)
  noFault := refined.noFault
  strings := refined.strings

theorem Pool.Refined.step {op : Op ι} (refined : p.Refined) (good : Admissible p op)
    (taken : p.step op = some p') : p'.Refined := by
  cases op with
  | append i data =>
    cases taken
    exact refined.on ((refined.buffers i).append good)
  | prepend i data =>
    cases taken
    exact refined.on ((refined.buffers i).prepend good)
  | retrieve i len =>
    cases taken
    exact refined.on ((refined.buffers i).retrieve good)
  | retrieveUntil i stop =>
    cases taken
    exact refined.on ((refined.buffers i).retrieveUntilIndex good.1 good.2)
  | retrieveAsString i len =>
    cases taken
    exact refined.take good
  | retrieveAll i =>
    cases taken
    exact refined.on ⟨_, rfl, (refined.buffers i).retrieveAll⟩
  | ensureWritableBytes i len =>
    cases taken
    obtain ⟨b', ensured, r, -⟩ := (refined.buffers i).ensureWritableBytes good
    exact refined.on ⟨b', ensured, r⟩
  | readFd i answer =>
    cases taken
    apply refined.on
    cases answer with
    | none =>
      refine ⟨p.buffers i, ?_, ?_⟩
      · rw [Buffer.readFd, (refined.buffers i).writableBytes]
        rfl
      · rw [Option.getD_none, ByteQueue.append_nil]
        exact refined.buffers i
    | some data => exact (refined.buffers i).readFd good.2
  | swap i j =>
    cases taken
    exact refined.swap i j

/-- In every sequence of operations within their limits, buffers are byte queues. -/
theorem refined_reachable (reached : Reaches Pool.step Admissible (Pool.create : Pool ι) p) :
    p.Refined :=
  reached.invariant .create fun _ _ _ _ refined good taken => refined.step good taken

end Runs

/-- A byte is prepended, a second buffer takes the content over and reads more, and the vector grows
under what is left. -/
theorem refined_after_swap :
    ∃ p : Pool Nat, (p.buffers 1).content = [2, 3, 7] ∧ p.strings = [[9, 1]] ∧ p.Refined := by
  have run : ∃ p : Pool Nat, Reaches Pool.step Admissible Pool.create p ∧
      ((p.buffers 1).content = [2, 3, 7] ∧ p.strings = [[9, 1]]) :=
    exists_reaches_of_exec [.append 0 [1, 2, 3], .prepend 0 [9], .swap 0 1, .readFd 1 (some [7]),
      .retrieveAsString 1 2, .ensureWritableBytes 1 1100] (by decide +kernel)
  obtain ⟨p, reached, content, strings⟩ := run
  exact ⟨p, content, strings, refined_reachable reached⟩

end Buffer

end Yvent
