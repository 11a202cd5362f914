import Yvent.Buffer.Refinement

/-!
# How large a buffer becomes

`makeSpace` makes the vector larger only when the bytes in front of the content would not be enough.
So the vector of a buffer whose reader leaves at most `n` bytes unread stays below a bound that
depends on `n` alone, however much goes through it.
-/

namespace Yvent.Buffer

variable {b b' : Buffer} {q : ByteQueue} {data : Bytes} {len n : Nat}

/-- A vector that grows has had too little space at both of its ends. -/
theorem full_of_makeSpace (returns : b.makeSpace len = .ok b')
    (grown : b.buffer.length < b'.buffer.length) :
    b.buffer.length - b.writerIndex + b.readerIndex < len + kCheapPrepend := by
  obtain ⟨writable, writes, returns⟩ := exists_of_bind returns
  obtain ⟨room, rooms, returns⟩ := exists_of_bind returns
  obtain ⟨need, needs, returns⟩ := exists_of_bind returns
  obtain rfl := eq_of_sub writes
  obtain rfl := eq_of_add rooms
  obtain rfl := eq_of_add needs
  split at returns
  · assumption
  · obtain ⟨_, -, returns⟩ := exists_of_bind returns
    obtain ⟨readable, -, returns⟩ := exists_of_bind returns
    obtain ⟨buffer, moved, returns⟩ := exists_of_bind returns
    obtain ⟨writerIndex, -, returns⟩ := exists_of_bind returns
    obtain ⟨now, -, returns⟩ := exists_of_bind returns
    obtain ⟨_, -, returns⟩ := exists_of_bind returns
    cases returns
    unfold move at moved
    split at moved
    · exact absurd (length_of_copy moved) (Nat.ne_of_gt grown)
    · cases moved

theorem full_of_ensureWritableBytes (returns : b.ensureWritableBytes len = .ok b')
    (grown : b.buffer.length < b'.buffer.length) :
    b.buffer.length - b.writerIndex + b.readerIndex < len + kCheapPrepend := by
  obtain ⟨writable, -, returns⟩ := exists_of_bind returns
  dsimp only at returns
  split at returns
  · obtain ⟨spaced, spacing, returns⟩ := exists_of_bind returns
    obtain ⟨now, -, returns⟩ := exists_of_bind returns
    obtain ⟨_, -, returns⟩ := exists_of_bind returns
    cases returns
    exact full_of_makeSpace spacing grown
  · obtain ⟨same, kept, returns⟩ := exists_of_bind returns
    cases kept
    obtain ⟨now, -, returns⟩ := exists_of_bind returns
    obtain ⟨_, -, returns⟩ := exists_of_bind returns
    cases returns
    exact absurd grown (Nat.lt_irrefl _)

theorem full_of_append (returns : b.append data = .ok b')
    (grown : b.buffer.length < b'.buffer.length) :
    b.buffer.length - b.writerIndex + b.readerIndex < data.length + kCheapPrepend := by
  obtain ⟨ensured, made, returns⟩ := exists_of_bind returns
  obtain ⟨buffer, copied, returns⟩ := exists_of_bind returns
  obtain ⟨writable, -, returns⟩ := exists_of_bind returns
  obtain ⟨_, -, returns⟩ := exists_of_bind returns
  obtain ⟨writerIndex, -, returns⟩ := exists_of_bind returns
  cases returns
  have same := length_of_copy copied
  exact full_of_ensureWritableBytes made (by rwa [same] at grown)

/-- The bound for a buffer of which `n` bytes are unread before a read. -/
def growthLimit (n : Nat) : Nat := n + 3 * extrabufSize + kCheapPrepend - 2

/-- A read within the limits of `readv` takes the vector up to the bound at most. -/
theorem Refines.length_readFd (r : b.Refines q)
    (reads : data.length ≤ readvLimit (b.buffer.length - b.writerIndex))
    (unread : q.content.length ≤ n) (returns : b.readFd (some data) = .ok b') :
    b'.buffer.length ≤ max b.buffer.length (growthLimit n) := by
  have content := r.length
  have ordered := r.ordered
  have inside := r.inside
  obtain ⟨writable, writes, returns⟩ := exists_of_bind returns
  obtain rfl := eq_of_sub writes
  obtain ⟨buffer, copied, returns⟩ := exists_of_bind returns
  have length := length_of_copy copied
  split at returns
  · obtain ⟨writerIndex, -, returns⟩ := exists_of_bind returns
    cases returns
    exact Nat.le_trans (Nat.le_of_eq length) (Nat.le_max_left ..)
  · next more =>
    by_cases grown : buffer.length < b'.buffer.length
    · have full := full_of_append returns grown
      have bound := length_of_append returns
      have extra : b.buffer.length - b.writerIndex < extrabufSize := by
        unfold readvLimit at reads
        split at reads
        · assumption
        · exact absurd reads more
      rw [readvLimit, if_pos extra] at reads
      simp only [List.length_drop] at full bound
      unfold growthLimit
      have positive : kCheapPrepend = 8 := rfl
      omega
    · have same := Nat.le_trans (Nat.le_of_not_lt grown) (Nat.le_of_eq length)
      exact Nat.le_trans same (Nat.le_max_left ..)

end Yvent.Buffer
