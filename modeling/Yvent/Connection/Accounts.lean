import Yvent.Connection.Descriptors

/-!
# What a connection has been given and what it has written

The accounts behind the write-complete callback: what `sendInLoop` and `setSendFd` were given is what
has been written, what is still to be written, and what has been lost; and as long as nothing is left
to be written, the last part of it has been announced. Every function keeps them, as long as no write
takes all that is left while a file is pending or behind a loss, and no `sendfile` takes the rest of a
file.
-/

namespace Yvent

namespace Event

/-- The bytes `::sendfile` put on the socket. -/
@[simp] def fileTaken : Event → Bytes
  | .sendfile file (some n) => file.take n
  | _ => []

/-- The bytes of an attached file. -/
@[simp] def fileGiven : Event → Bytes
  | .setSendFd _ file => file
  | _ => []

/-- The bytes that an event adds to what is to be written, or that it writes. -/
@[simp] def work : Event → Bytes
  | .executed _ data => data
  | .setSendFd _ file => file
  | .write data (some n) => data.take n
  | .sendfile file (some n) => file.take n
  | _ => []

/-- Events that neither add to what is to be written nor write. -/
@[simp] def idle : Event → Bool
  | .executed _ _ | .setSendFd _ _ | .write _ _ | .sendfile _ _ => false
  | _ => true

end Event

namespace TcpConnection

/-- The file bytes `::sendfile` has taken. -/
def filesTaken (trace : List Event) : Bytes := trace.flatMap Event.fileTaken

/-- The file bytes `setSendFd` has attached. -/
def filesGiven (trace : List Event) : Bytes := trace.flatMap Event.fileGiven

/-- Whatever was given or written is followed by an invocation of the callback. -/
def Announced (trace : List Event) : Prop :=
  ∀ pre e post, trace = pre ++ e :: post → e.work ≠ [] → .writeCompleteCallback ∈ post

/-- The message of a `sendInLoop` that begins with the next step. -/
@[simp] def Frame.begun : Frame → Bytes
  | .sendInLoop data (.check _) => data
  | _ => []

/-- What a system call of the executing frame may take. A direct write takes its whole message only
while no file is pending. No write takes all that there is behind a loss. And `sendfile` does not
take the rest of a file. -/
def MayTake (lost : Bool) (c : TcpConnection) : Frame → Answer → Prop
  | .sendInLoop data .write, .count (some n) => data.length ≤ n → c.stSize = 0 ∧ lost = false
  | .handleWrite .write, .count (some n) => c.outBuffer.length ≤ n → c.stSize = 0 → lost = false
  | .handleWrite .sendfile, .count (some n) => c.file.length ≤ n → lost = true ∨ ¬Open c.trace
  | _, _ => True

instance (lost : Bool) (c : TcpConnection) :
    (f : Frame) → (answer : Answer) → Decidable (MayTake lost c f answer) := fun f answer => by
  unfold MayTake
  split <;> infer_instance

variable {cb : Callbacks} {c c' : TcpConnection} {f : Frame} {fs rest stack stack' : List Frame}
  {answer : Answer} {trace es : List Event} {passed passed' : Bytes} {lost : Bool}

/-! ## Histories -/

theorem filesTaken_append : filesTaken (trace ++ es) = filesTaken trace ++ filesTaken es :=
  List.flatMap_append

theorem filesGiven_append : filesGiven (trace ++ es) = filesGiven trace ++ filesGiven es :=
  List.flatMap_append

@[simp] theorem filesTaken_nil : filesTaken [] = [] := rfl
@[simp] theorem filesTaken_cons (e : Event) :
    filesTaken (e :: es) = e.fileTaken ++ filesTaken es := rfl
@[simp] theorem filesGiven_nil : filesGiven [] = [] := rfl
@[simp] theorem filesGiven_cons (e : Event) :
    filesGiven (e :: es) = e.fileGiven ++ filesGiven es := rfl

/-- Idle events leave every account as it is. -/
theorem accounts_of_idle (idle : ∀ e ∈ es, e.idle = true) : wrote es = [] ∧ executed es = [] ∧
    filesTaken es = [] ∧ filesGiven es = [] ∧ ∀ e ∈ es, e.work = [] := by
  have each : ∀ e : Event, e.idle = true → e.wrote = [] ∧ e.payload = [] ∧ e.fileTaken = [] ∧
      e.fileGiven = [] ∧ e.work = [] := by
    intro e idle
    cases e with
    | executed | setSendFd | write | sendfile => cases idle
    | _ => exact ⟨rfl, rfl, rfl, rfl, rfl⟩
  refine ⟨?_, ?_, ?_, ?_, fun e mem => (each e (idle e mem)).2.2.2.2⟩
  · exact List.flatMap_eq_nil_iff.mpr fun e mem => (each e (idle e mem)).1
  · exact List.flatMap_eq_nil_iff.mpr fun e mem => (each e (idle e mem)).2.1
  · exact List.flatMap_eq_nil_iff.mpr fun e mem => (each e (idle e mem)).2.2.1
  · exact List.flatMap_eq_nil_iff.mpr fun e mem => (each e (idle e mem)).2.2.2.1

theorem idle_of_still (still : ∀ e ∈ es, e.moves = false) : ∀ e ∈ es, e.idle = true := by
  intro e mem
  have none := still e mem
  cases e with
  | executed | setSendFd | write | sendfile => cases none
  | _ => rfl

theorem announced_append (announced : Announced trace) (idle : ∀ e ∈ es, e.work = []) :
    Announced (trace ++ es) := by
  intro pre e post eq busy
  rcases List.append_eq_append_iff.mp eq with ⟨late, -, here⟩ | ⟨late, here, there⟩
  · exact absurd (idle e (by rw [here]; simp)) busy
  · cases late with
    | nil => exact absurd (idle e (by rw [← show e :: post = es from there]; simp)) busy
    | cons e' late =>
      obtain ⟨rfl, rfl⟩ := List.cons.inj there
      exact List.mem_append_left _ (announced pre e late here busy)

theorem announced_callback : Announced (trace ++ [.writeCompleteCallback]) := by
  intro pre e post eq busy
  rcases split_concat eq with ⟨-, rfl, -⟩ | ⟨post', rfl, -⟩
  · exact absurd rfl busy
  · exact List.mem_append_right _ List.mem_cons_self

/-! ## The invariant -/

/-- The frame invokes the callback, or leads to the one that does. -/
@[simp] def Frame.completes : Frame → Bool
  | .handleWrite .drained | .handleWrite .complete => true
  | _ => false

/-- `outBuffer_` has been drained and the callback is about to be invoked. -/
def completing (stack : List Frame) : Bool := (top (resumed stack)).completes

/-- Something is left to be written or to be announced. -/
def Owing (c : TcpConnection) (stack : List Frame) : Prop :=
  c.outBuffer ≠ [] ∨ (top stack).rest ≠ [] ∨ c.file ≠ [] ∨ completing stack = true

/-- The accounts of a connection with the frames `stack`. -/
structure Accounted (cb : Callbacks) (c : TcpConnection) (stack : List Frame) (passed : Bytes)
    (lost : Bool) : Prop where
  stream : wrote c.trace ++ c.outBuffer ++ (top stack).rest = executed c.trace
  direct : (top stack).direct = true → c.outBuffer = []
  size : c.stSize = c.file.length
  kept : lost = false →
    filesTaken c.trace ++ c.file = filesGiven c.trace ∧ executed c.trace = passed
  gone : lost = true → (filesTaken c.trace).length + c.file.length < (filesGiven c.trace).length ∨
    ¬Open c.trace
  below : ∀ f ∈ (resumed stack).tail, f.completes = false
  completing : completing stack = true → c.outBuffer = [] ∧ c.file = [] ∧ lost = false
  announced : cb.writeComplete = true → Open c.trace → lost = false →
    Announced c.trace ∨ Owing c stack

theorem completing_of_none (none : ∀ f ∈ stack, f.completes = false) :
    completing stack = false ∧ ∀ f ∈ (resumed stack).tail, f.completes = false :=
  resumed_none rfl none

theorem completing_of_user (user : top stack = .user) : completing stack = false := by
  cases stack with
  | nil => rfl
  | cons f rest =>
    obtain rfl : f = .user := user
    rfl

theorem Accounted.whole (acc : Accounted cb c stack passed lost) (rest : (top stack).rest = [])
    (outBuffer : c.outBuffer = []) (file : c.file = []) (kept : lost = false) :
    wrote c.trace = passed ∧ filesTaken c.trace = filesGiven c.trace := by
  have stream := acc.stream
  obtain ⟨files, all⟩ := acc.kept kept
  rw [outBuffer, rest, List.append_nil, List.append_nil] at stream
  rw [file, List.append_nil] at files
  exact ⟨stream.trans all, files⟩

/-- A step that neither takes on work nor writes. -/
theorem Accounted.aside (acc : Accounted cb c stack passed lost) (es : List Event)
    (trace : c'.trace = c.trace ++ es) (idle : ∀ e ∈ es, e.idle = true)
    (outBuffer : c'.outBuffer = c.outBuffer) (file : c'.file = c.file)
    (stSize : c'.stSize = c.stSize) (rest : (top stack').rest = (top stack).rest)
    (direct : (top stack').direct = true → c.outBuffer = [])
    (below : ∀ f ∈ (resumed stack').tail, f.completes = false)
    (same : TcpConnection.completing stack' = true → TcpConnection.completing stack = true)
    (announced : cb.writeComplete = true → TcpConnection.completing stack = true →
      TcpConnection.completing stack' = true ∨ Announced c'.trace) :
    Accounted cb c' stack' passed lost := by
  obtain ⟨noWrote, noExecuted, noTaken, noGiven, noWork⟩ := accounts_of_idle idle
  have taken : filesTaken c'.trace = filesTaken c.trace := by
    rw [trace, filesTaken_append, noTaken, List.append_nil]
  have given : filesGiven c'.trace = filesGiven c.trace := by
    rw [trace, filesGiven_append, noGiven, List.append_nil]
  have begun : executed c'.trace = executed c.trace := by
    rw [trace, executed_append, noExecuted, List.append_nil]
  have before : Open c'.trace → Open c.trace := fun opened => (open_append.mp (trace ▸ opened)).1
  refine ⟨?_, ?_, ?_, ?_, ?_, below, ?_, ?_⟩
  · rw [begun, trace, wrote_append, noWrote, List.append_nil, outBuffer, rest]
    exact acc.stream
  · rw [outBuffer]
    exact direct
  · rw [stSize, file]
    exact acc.size
  · rw [taken, given, begun, file]
    exact acc.kept
  · rw [taken, given, file]
    exact fun gone => (acc.gone gone).imp id fun closed opened => closed (before opened)
  · rw [outBuffer, file]
    exact fun here => acc.completing (same here)
  · intro set opened kept
    rcases acc.announced set (before opened) kept with told | owing
    · exact Or.inl (trace ▸ announced_append told noWork)
    rw [Owing, outBuffer, file, rest]
    rcases owing with some | some | some | here
    · exact Or.inr (Or.inl some)
    · exact Or.inr (Or.inr (Or.inl some))
    · exact Or.inr (Or.inr (Or.inr (Or.inl some)))
    · rcases announced set here with later | told
      · exact Or.inr (Or.inr (Or.inr (Or.inr later)))
      · exact Or.inl told

/-- Such a step between frames none of which is about to invoke the callback. -/
theorem Accounted.elsewhere (acc : Accounted cb c stack passed lost) (es : List Event)
    (trace : c'.trace = c.trace ++ es) (idle : ∀ e ∈ es, e.idle = true)
    (outBuffer : c'.outBuffer = c.outBuffer) (file : c'.file = c.file)
    (stSize : c'.stSize = c.stSize) (rest : (top stack').rest = (top stack).rest)
    (direct : (top stack').direct = true → c.outBuffer = [])
    (here : TcpConnection.completing stack = false)
    (none : ∀ f ∈ stack', f.completes = false) : Accounted cb c' stack' passed lost := by
  obtain ⟨notHere, below⟩ := completing_of_none none
  refine acc.aside es trace idle outBuffer file stSize rest direct below ?_ ?_
  · exact fun yes => absurd (notHere.symm.trans yes) Bool.false_ne_true
  · exact fun _ yes => absurd (here.symm.trans yes) Bool.false_ne_true

/-- No frame below one that is not a `shutdownInLoop` is about to invoke the callback. -/
theorem Accounted.under (acc : Accounted cb c (f :: rest) passed lost)
    (other : f ≠ .shutdownInLoop) : ∀ g ∈ rest, g.completes = false := by
  have below := acc.below
  rw [resumed_cons other] at below
  exact below

/-- The executing frame returns. -/
theorem Accounted.pop (acc : Accounted cb c (f :: rest) passed lost)
    (settled : ∀ g ∈ rest, g.Settled) (other : f ≠ .shutdownInLoop) (noRest : f.rest = [])
    (here : f.completes = false) : Accounted cb c rest passed lost := by
  have under := top_settled settled
  refine acc.elsewhere [] (List.append_nil _).symm (by simp) rfl rfl rfl ?_ ?_ ?_ (acc.under other)
  · rw [under.rest, top_cons, noRest]
  · rw [under.direct]
    simp
  · rw [TcpConnection.completing, resumed_cons other]
    exact here

/-- A step of `sendInLoop` or `handleWrite`, said of the bytes that it moves. -/
theorem Accounted.step (acc : Accounted cb c (f :: rest) passed lost)
    (settled : ∀ g ∈ rest, g.Settled) (other : f ≠ .shutdownInLoop) (es : List Event)
    (trace : c'.trace = c.trace ++ es)
    (stream : wrote es ++ c'.outBuffer ++ (top fs).rest = c.outBuffer ++ f.rest ++ executed es)
    (direct : (top fs).direct = true → c'.outBuffer = [])
    (size : c'.stSize = c'.file.length) (file : filesTaken es ++ c'.file = c.file)
    (given : filesGiven es = []) (begun : passed ++ executed es = passed')
    (completes : (∀ g ∈ fs, g.completes = false) ∨
      fs = [.handleWrite .drained] ∧ c'.outBuffer = [] ∧ c'.file = [] ∧ lost = false)
    (announced : cb.writeComplete = true → Open c.trace → lost = false →
      Announced c.trace ∨ Owing c (f :: rest) → Announced c'.trace ∨ Owing c' (fs ++ rest)) :
    Accounted cb c' (fs ++ rest) passed' lost := by
  obtain ⟨sameRest, sameDirect, -⟩ := top_append fs settled
  have under := acc.under other
  have before : Open c'.trace → Open c.trace := fun opened => (open_append.mp (trace ▸ opened)).1
  have sizes : (filesTaken es).length + c'.file.length = c.file.length := by
    rw [← file, List.length_append]
  refine ⟨?_, ?_, size, ?_, ?_, ?_, ?_, ?_⟩
  · have earlier := acc.stream
    rw [top_cons, List.append_assoc] at earlier
    rw [trace, wrote_append, executed_append, sameRest, List.append_assoc, List.append_assoc,
      ← List.append_assoc (wrote es), stream, ← List.append_assoc, earlier]
  · rw [sameDirect]
    exact direct
  · intro kept
    obtain ⟨files, all⟩ := acc.kept kept
    rw [trace, filesTaken_append, filesGiven_append, given, List.append_nil, List.append_assoc,
      file, executed_append, all]
    exact ⟨files, begun⟩
  · intro gone
    rw [trace, filesTaken_append, filesGiven_append, given, List.append_nil, List.length_append,
      Nat.add_assoc, sizes, ← trace]
    exact (acc.gone gone).imp id fun closed opened => closed (before opened)
  · rcases completes with none | ⟨rfl, -⟩
    · exact (completing_of_none (List.forall_mem_append.mpr ⟨none, under⟩)).2
    · exact under
  · intro here
    rcases completes with none | ⟨-, whole⟩
    · rw [(completing_of_none (List.forall_mem_append.mpr ⟨none, under⟩)).1] at here
      cases here
    · exact whole
  · exact fun set opened kept =>
      announced set (before opened) kept (acc.announced set (before opened) kept)

/-- Work remains while the frame goes on. -/
theorem owing_of_rest (some : (top stack).rest ≠ []) : Announced trace ∨ Owing c stack :=
  Or.inr (Or.inr (Or.inl some))

/-- What was left before is left behind a step that does no work. -/
theorem owing_kept (before : Announced c.trace ∨ Owing c (f :: rest))
    (here : completing (f :: rest) = false) (trace : c'.trace = c.trace ++ es)
    (noWork : ∀ e ∈ es, e.work = []) (outBuffer : c'.outBuffer = c.outBuffer)
    (file : c'.file = c.file) (same : (top stack').rest = f.rest) :
    Announced c'.trace ∨ Owing c' stack' := by
  rw [Owing, outBuffer, file, same]
  rcases before with told | some | some | some | yes
  · exact Or.inl (trace ▸ announced_append told noWork)
  · exact Or.inr (Or.inl some)
  · exact Or.inr (Or.inr (Or.inl some))
  · exact Or.inr (Or.inr (Or.inr (Or.inl some)))
  · exact absurd (here.symm.trans yes) Bool.false_ne_true

/-! ## The functions that write -/

/-- `sendInLoop` gives up its message. -/
theorem Accounted.giveUp {data : Bytes} {caller : Caller}
    (acc : Accounted cb c (.sendInLoop data (.check caller) :: rest) passed lost)
    (settled : ∀ g ∈ rest, g.Settled) (closed : ¬Open c.trace) :
    Accounted cb c rest (passed ++ data) (lost || decide (data ≠ [])) := by
  have popped : Accounted cb c rest passed lost := acc.pop settled (by simp) rfl rfl
  by_cases empty : data = []
  · simpa [empty] using popped
  · have lost' : (lost || decide (data ≠ [])) = true := by simp [empty]
    rw [lost']
    obtain ⟨none, -⟩ := completing_of_none (acc.under (by simp))
    exact ⟨popped.stream, popped.direct, popped.size, by simp, fun _ => Or.inr closed, popped.below,
      fun here => absurd (none.symm.trans here) Bool.false_ne_true, by simp⟩

theorem sendInLoopStep_check_accounted {data : Bytes} {caller : Caller} {result : Option Nat}
    (acc : Accounted cb c (.sendInLoop data (.check caller) :: rest) passed lost)
    (settled : ∀ g ∈ rest, g.Settled) (opened : c.state ≠ .kDisconnected) :
    Accounted cb (sendInLoopStep cb c data (.check caller) result).2
      ((sendInLoopStep cb c data (.check caller) result).1 ++ rest) (passed ++ data) lost := by
  have begins : ∀ (pc : SendInLoopPc), (Frame.sendInLoop data pc).rest = data →
      Announced c.trace ∨ Owing c (.sendInLoop data (.check caller) :: rest) →
        Announced (c.emit (.executed caller data)).trace ∨
          Owing (c.emit (.executed caller data)) (.sendInLoop data pc :: rest) := by
    intro pc load before
    by_cases empty : data = []
    · exact owing_kept before rfl rfl (by simp [empty]) rfl rfl (load.trans empty)
    · exact owing_of_rest (by rw [top_cons, load]; exact empty)
  simp only [sendInLoopStep, if_neg opened]
  split
  · next free =>
    exact acc.step settled (by simp) [.executed caller data] rfl (by simp) (fun _ => free.2)
      acc.size rfl rfl (by simp) (Or.inl (by simp)) fun _ _ _ => begins .write rfl
  · exact acc.step settled (by simp) [.executed caller data] rfl (by simp) (by simp) acc.size
      rfl rfl (by simp) (Or.inl (by simp)) fun _ _ _ => begins (.rest 0) rfl

theorem sendInLoopStep_write_accounted {data : Bytes} {result : Option Nat}
    (acc : Accounted cb c (.sendInLoop data .write :: rest) passed lost)
    (settled : ∀ g ∈ rest, g.Settled) :
    Accounted cb (sendInLoopStep cb c data .write result).2
      ((sendInLoopStep cb c data .write result).1 ++ rest) passed lost := by
  have empty : c.outBuffer = [] := acc.direct rfl
  cases result with
  | none =>
    refine acc.step settled (by simp) [.write data none] rfl (by simp [sendInLoopStep])
      (by simp [sendInLoopStep]) acc.size rfl rfl (by simp) (Or.inl (by simp [sendInLoopStep])) ?_
    exact fun _ _ _ before => owing_kept before rfl rfl (by simp) rfl rfl rfl
  | some n =>
    simp only [sendInLoopStep]
    split
    · next part =>
      refine acc.step settled (by simp) [.write data (some n)] rfl (by simp [empty]) (by simp)
        acc.size rfl rfl (by simp) (Or.inl (by simp)) fun _ _ _ _ => owing_of_rest ?_
      simpa using part
    · next all =>
      have done : data.drop n = [] := List.drop_eq_nil_of_le (Nat.not_lt.mp all)
      have taken : data.take n = data := List.take_of_length_le (Nat.not_lt.mp all)
      split
      · refine acc.step settled (by simp) [.write data (some n), .writeCompleteCallback] (by simp)
          (by simp [empty, taken]) (by simp) acc.size rfl rfl (by simp) (Or.inl (by simp)) ?_
        exact fun _ _ _ _ => Or.inl announced_callback
      · next unset =>
        exact acc.step settled (by simp) [.write data (some n)] rfl (by simp [empty]) (by simp)
          acc.size rfl rfl (by simp) (Or.inl (by simp)) fun set => absurd set unset

theorem sendInLoopStep_rest_accounted {data : Bytes} {n : Nat} {result : Option Nat}
    (acc : Accounted cb c (.sendInLoop data (.rest n) :: rest) passed lost)
    (settled : ∀ g ∈ rest, g.Settled) :
    Accounted cb (sendInLoopStep cb c data (.rest n) result).2
      ((sendInLoopStep cb c data (.rest n) result).1 ++ rest) passed lost := by
  have buffers : ∀ c' : TcpConnection, c'.trace = c.trace →
      c'.outBuffer = c.outBuffer ++ data.drop n → c'.file = c.file →
      Announced c.trace ∨ Owing c (.sendInLoop data (.rest n) :: rest) →
        Announced c'.trace ∨ Owing c' ([] ++ rest) := by
    rintro c' trace outBuffer file (told | some | some | some | here)
    · exact Or.inl (trace ▸ told)
    · exact Or.inr (Or.inl fun none => some (List.append_eq_nil_iff.mp (outBuffer ▸ none)).1)
    · exact Or.inr (Or.inl fun none => some (List.append_eq_nil_iff.mp (outBuffer ▸ none)).2)
    · exact Or.inr (Or.inr (Or.inr (Or.inl (file ▸ some))))
    · cases here
  simp only [sendInLoopStep]
  split
  · split
    · exact acc.step settled (by simp) [] (by simp) (by simp) (by simp) acc.size rfl rfl
        (by simp) (Or.inl (by simp)) fun _ _ _ => buffers _ rfl rfl rfl
    · exact acc.step settled (by simp) [] (by simp [enableWrite]) (by simp [enableWrite]) (by simp)
        acc.size rfl rfl (by simp) (Or.inl (by simp)) fun _ _ _ => buffers _ rfl rfl rfl
  · next done =>
    have written : data.drop n = [] := by
      rw [not_or, Nat.not_lt] at done
      exact List.drop_eq_nil_of_le done.1
    exact acc.step settled (by simp) [] (by simp) (by simp [written]) (by simp) acc.size rfl rfl
      (by simp) (Or.inl (by simp)) fun _ _ _ => buffers _ rfl (by simp [written]) rfl

theorem handleWriteStep_write_accounted {result : Option Nat}
    (acc : Accounted cb c (.handleWrite .write :: rest) passed lost)
    (settled : ∀ g ∈ rest, g.Settled)
    (mayTake : ∀ n, result = some n → c.outBuffer.length ≤ n → c.stSize = 0 → lost = false) :
    Accounted cb (handleWriteStep cb c .write result).2
      ((handleWriteStep cb c .write result).1 ++ rest) passed lost := by
  cases result with
  | none =>
    refine acc.step settled (by simp) [.write c.outBuffer none] rfl (by simp [handleWriteStep])
      (by simp [handleWriteStep]) acc.size rfl rfl (by simp) (Or.inl (by simp [handleWriteStep])) ?_
    exact fun _ _ _ before =>
      owing_kept before rfl rfl (by simp) rfl rfl (top_settled settled).rest
  | some n =>
    simp only [handleWriteStep]
    split
    · next drained =>
      have file : c.file = [] := by
        have size := acc.size
        exact List.length_eq_zero_iff.mp (by have := drained.2; simp at this; omega)
      have kept : lost = false := mayTake n rfl (by simpa using drained.1) drained.2
      refine acc.step settled (by simp) [.write c.outBuffer (some n)] rfl (by simp [disableWrite])
        (by simp) acc.size rfl rfl (by simp) (Or.inr ⟨rfl, drained.1, file, kept⟩) ?_
      exact fun _ _ _ _ => Or.inr (Or.inr (Or.inr (Or.inr rfl)))
    · next left =>
      refine acc.step settled (by simp) [.write c.outBuffer (some n)] rfl (by simp) (by simp)
        acc.size rfl rfl (by simp) (Or.inl (by simp)) fun _ _ _ _ => Or.inr ?_
      by_cases empty : c.outBuffer.drop n = []
      · have size := acc.size
        refine Or.inr (Or.inr (Or.inl fun file => left ⟨empty, ?_⟩))
        show c.stSize = 0
        rw [size, show c.file = [] from file]
        rfl
      · exact Or.inl empty

theorem handleWriteStep_sendfile_accounted {result : Option Nat}
    (acc : Accounted cb c (.handleWrite .sendfile :: rest) passed lost)
    (settled : ∀ g ∈ rest, g.Settled) (fits : Fits c.file.length result)
    (mayTake : ∀ n, result = some n → c.file.length ≤ n → lost = true ∨ ¬Open c.trace) :
    Accounted cb (handleWriteStep cb c .sendfile result).2
      ((handleWriteStep cb c .sendfile result).1 ++ rest) passed lost := by
  have empty : c.outBuffer = [] := acc.direct rfl
  cases result with
  | none =>
    refine acc.step settled (by simp) [.sendfile c.file none] rfl (by simp [handleWriteStep])
      (by simp [handleWriteStep]) acc.size rfl rfl (by simp) (Or.inl (by simp [handleWriteStep])) ?_
    exact fun _ _ _ before =>
      owing_kept before rfl rfl (by simp) rfl rfl (top_settled settled).rest
  | some n =>
    have fits : n ≤ c.file.length := fits n rfl
    have size : c.stSize - n = ((c.file.drop n).length : Int) := by
      rw [acc.size, List.length_drop]
      omega
    have taken : filesTaken [.sendfile c.file (some n)] ++ c.file.drop n = c.file := by simp
    have owing : ∀ c' : TcpConnection, c'.file = c.file.drop n → Open c.trace → lost = false →
        ∀ stack, Announced c'.trace ∨ Owing c' stack := by
      intro c' file opened kept stack
      refine Or.inr (Or.inr (Or.inr (Or.inl fun none => ?_)))
      rw [file] at none
      rcases mayTake n rfl (List.drop_eq_nil_iff.mp none) with gone | closed
      · rw [kept] at gone
        cases gone
      · exact closed opened
    simp only [handleWriteStep]
    split
    · exact acc.step settled (by simp) [.sendfile c.file (some n)] rfl (by simp [disableWrite])
        (by simp) size taken rfl (by simp) (Or.inl (by simp)) fun _ opened kept _ =>
          owing _ rfl opened kept _
    · exact acc.step settled (by simp) [.sendfile c.file (some n)] rfl (by simp)
        (by simp) size taken rfl (by simp) (Or.inl (by simp)) fun _ opened kept _ =>
          owing _ rfl opened kept _

/-- The program points of `handleWrite` without a system call. -/
theorem handleWriteStep_accounted {pc : HandleWritePc} {result : Option Nat}
    (acc : Accounted cb c (.handleWrite pc :: rest) passed lost)
    (settled : ∀ g ∈ rest, g.Settled) (write : pc ≠ .write) (sendfile : pc ≠ .sendfile) :
    Accounted cb (handleWriteStep cb c pc result).2
      ((handleWriteStep cb c pc result).1 ++ rest) passed lost := by
  have under := acc.under (by simp)
  obtain ⟨notUnder, below⟩ := completing_of_none under
  have noRest := (top_settled settled).rest
  have noDirect : (top rest).direct = true → c.outBuffer = [] := by
    rw [(top_settled settled).direct]
    simp
  cases pc with
  | test =>
    simp only [handleWriteStep]
    split
    · split
      · exact acc.elsewhere [] (by simp) (by simp) rfl rfl rfl rfl (by simp) rfl
          (List.forall_mem_cons.mpr ⟨rfl, under⟩)
      · next empty =>
        split
        · exact acc.elsewhere [] (by simp) (by simp) rfl rfl rfl rfl (fun _ => by simpa using empty)
            rfl (List.forall_mem_cons.mpr ⟨rfl, under⟩)
        · exact acc.pop settled (by simp) rfl rfl
    · exact acc.pop settled (by simp) rfl rfl
  | write => exact absurd rfl write
  | drained =>
    simp only [handleWriteStep]
    split <;> exact acc.aside [] (by simp) (by simp) rfl rfl rfl rfl (by simp) under
      (fun _ => rfl) fun _ _ => Or.inl rfl
  | complete =>
    simp only [handleWriteStep]
    split
    · have none : ∀ g ∈ Frame.user :: rest, g.completes = false :=
        List.forall_mem_cons.mpr ⟨rfl, under⟩
      obtain ⟨notHere, below⟩ := completing_of_none none
      refine acc.aside [.writeCompleteCallback] rfl (by simp) rfl rfl rfl rfl (by simp) below ?_ ?_
      · exact fun yes => absurd (notHere.symm.trans yes) Bool.false_ne_true
      · exact fun _ _ => Or.inr announced_callback
    · next unset =>
      refine acc.aside [] (by simp) (by simp) rfl rfl rfl noRest noDirect below ?_ ?_
      · exact fun yes => absurd (notUnder.symm.trans yes) Bool.false_ne_true
      · exact fun set => absurd set unset
  | sendfile => exact absurd rfl sendfile
  | sent =>
    simp only [handleWriteStep]
    split
    · exact acc.elsewhere [] (by simp) (by simp) rfl rfl rfl rfl (by simp) rfl
        (List.forall_mem_cons.mpr ⟨rfl, List.forall_mem_cons.mpr ⟨rfl, under⟩⟩)
    · exact acc.elsewhere [] (by simp) (by simp) rfl rfl rfl rfl (by simp) rfl
        (List.forall_mem_cons.mpr ⟨rfl, under⟩)
  | closeFd =>
    exact acc.elsewhere [.closeFd c.sendFd] rfl (by simp) rfl rfl rfl noRest noDirect rfl under

/-- The frames that take the place of one that is not of `handleWrite`. -/
theorem FrameMove.completes {result : List Frame × TcpConnection}
    (moved : FrameMove cb c f answer result) (other : ∀ pc, f ≠ .handleWrite pc) :
    ∀ g ∈ result.1, g.completes = false := by
  intro g mem
  have leads := moved.leadsTo g mem
  cases g with
  | handleWrite pc =>
    cases pc with
    | drained | complete =>
      cases f with
      | handleWrite pc => exact absurd rfl (other pc)
      | _ => cases leads
    | _ => rfl
  | _ => rfl

/-- The functions that move no message. -/
theorem Accounted.neutral {result : List Frame × TcpConnection}
    (acc : Accounted cb c (f :: rest) passed lost) (settled : ∀ g ∈ rest, g.Settled)
    (neutral : f.neutral = true) (moved : FrameMove cb c f answer result) :
    Accounted cb result.2 (result.1 ++ rest) passed lost := by
  have same := moved.neutral neutral
  obtain ⟨es, trace, still⟩ := same.trace
  have other : f ≠ .shutdownInLoop ∧ ∀ pc, f ≠ .handleWrite pc := by
    refine ⟨?_, fun pc => ?_⟩ <;> rintro rfl <;> cases neutral
  have new : (top result.1).Settled :=
    top_settled fun g mem => Frame.settled_of_calm (same.calm g mem)
  obtain ⟨sameRest, sameDirect, -⟩ := top_append result.1 settled
  have here : TcpConnection.completing (f :: rest) = false := by
    rw [TcpConnection.completing, resumed_cons other.1]
    cases f with
    | handleWrite => cases neutral
    | _ => rfl
  refine acc.elsewhere es trace (idle_of_still still) same.outBuffer same.file same.stSize ?_ ?_
    here (List.forall_mem_append.mpr ⟨moved.completes other.2, acc.under other.1⟩)
  · rw [sameRest, new.rest, top_cons, (Frame.settled_of_calm (Frame.calm_of_neutral neutral)).rest]
  · rw [sameDirect, new.direct]
    simp

/-- One step of the executing frame. -/
theorem Accounted.run {result : List Frame × TcpConnection}
    (acc : Accounted cb c (f :: rest) passed lost) (settled : ∀ g ∈ rest, g.Settled)
    (closed : c.state = .kDisconnected → ¬Open c.trace) (mayTake : MayTake lost c f answer)
    (taken : frameStep cb c f answer = some result) :
    Accounted cb result.2 (result.1 ++ rest) (passed ++ f.begun)
      (lost || decide (c.state = .kDisconnected ∧ f.begun ≠ [])) := by
  have moved := frameMove_of_frameStep taken
  -- apart from the check of `sendInLoop`, no message begins
  have still : f.begun = [] → Accounted cb result.2 (result.1 ++ rest) passed lost →
      Accounted cb result.2 (result.1 ++ rest) (passed ++ f.begun)
        (lost || decide (c.state = .kDisconnected ∧ f.begun ≠ [])) := by
    intro none acc
    rw [none]
    simpa using acc
  by_cases neutral : f.neutral = true
  · refine still ?_ (acc.neutral settled neutral moved)
    cases f with
    | sendInLoop => cases neutral
    | _ => rfl
  cases f with
  | sendInLoop data pc =>
    cases pc with
    | check caller =>
      obtain ⟨-, rfl⟩ := Answer.silently_eq_some taken
      by_cases gone : c.state = .kDisconnected
      · simpa [sendInLoopStep, gone] using acc.giveUp settled (closed gone)
      · simpa [gone] using sendInLoopStep_check_accounted acc settled gone
    | write =>
      obtain ⟨r, rfl, -, rfl⟩ := Answer.counting_eq_some taken
      exact still rfl (sendInLoopStep_write_accounted acc settled)
    | rest n =>
      obtain ⟨-, rfl⟩ := Answer.silently_eq_some taken
      exact still rfl (sendInLoopStep_rest_accounted acc settled)
  | handleWrite pc =>
    refine still rfl ?_
    cases pc with
    | write =>
      obtain ⟨r, rfl, -, rfl⟩ := Answer.counting_eq_some taken
      refine handleWriteStep_write_accounted acc settled ?_
      rintro n rfl
      exact mayTake
    | sendfile =>
      obtain ⟨r, rfl, fits, rfl⟩ := Answer.counting_eq_some taken
      refine handleWriteStep_sendfile_accounted acc settled ?_ ?_
      · exact fun n mem => Nat.le_trans (fits n mem) (Nat.min_le_left _ _)
      · rintro n rfl
        exact mayTake
    | test | drained | complete | sent | closeFd =>
      obtain ⟨-, rfl⟩ := Answer.silently_eq_some taken
      exact handleWriteStep_accounted acc settled (by simp) (by simp)
  | send data =>
    refine still rfl ?_
    cases moved
    have under := acc.under (by simp)
    unfold sendStep
    split
    · exact acc.elsewhere [.accepted .loop data] rfl (by simp) rfl rfl rfl rfl (by simp) rfl
        (List.forall_mem_cons.mpr ⟨rfl, List.forall_mem_cons.mpr ⟨rfl, under⟩⟩)
    · exact acc.pop settled (by simp) rfl rfl
  | handleClose pc =>
    refine still rfl ?_
    cases moved
    have under := acc.under (by simp)
    cases pc with
    | notify =>
      simp only [handleCloseStep]
      split
      · exact acc.elsewhere [.notifyDisconnected] rfl (by simp) rfl rfl rfl rfl (by simp) rfl
          (List.forall_mem_cons.mpr ⟨rfl, List.forall_mem_cons.mpr ⟨rfl, under⟩⟩)
      · exact acc.elsewhere [] (by simp) (by simp) rfl rfl rfl rfl (by simp) rfl
          (List.forall_mem_cons.mpr ⟨rfl, under⟩)
    | assertConnected | assertDisconnecting | store | close => exact absurd rfl neutral
  | shutdownInLoop =>
    refine still rfl ?_
    cases moved
    have direct : (top rest).direct = true → c.outBuffer = [] := by
      rw [(top_settled settled).direct]
      simp
    -- the frame that waits below may be about to invoke the callback
    unfold shutdownInLoopStep
    split
    · exact acc.aside [] (by simp) (by simp) rfl rfl rfl (top_settled settled).rest direct acc.below
        id fun _ here => Or.inl here
    · exact acc.aside [.shutdownWr] rfl (by simp) rfl rfl rfl (top_settled settled).rest direct
        acc.below id fun _ here => Or.inl here
  | _ => exact absurd rfl neutral

/-- Nothing is left where the callback is invoked. -/
theorem Accounted.invoked {result : List Frame × TcpConnection}
    (acc : Accounted cb c (f :: rest) passed lost) (settled : ∀ g ∈ rest, g.Settled)
    (mayTake : MayTake lost c f answer) (taken : frameStep cb c f answer = some result)
    (invoked : c.trace.count .writeCompleteCallback < result.2.trace.count .writeCompleteCallback) :
    f.begun = [] ∧ (top (result.1 ++ rest)).rest = [] ∧ result.2.outBuffer = [] ∧
      result.2.file = [] ∧ lost = false := by
  obtain ⟨es, trace, caused⟩ := (frameMove_of_frameStep taken).caused.events
  have calls : .writeCompleteCallback ∈ es := by
    by_contra none
    rw [trace, List.count_append, List.count_eq_zero.mpr none] at invoked
    exact Nat.lt_irrefl _ invoked
  rcases caused _ calls with rfl | ⟨data, rfl⟩
  · obtain ⟨outBuffer, file, kept⟩ := acc.completing rfl
    obtain ⟨-, rfl⟩ := Answer.silently_eq_some taken
    refine ⟨rfl, ?_, ?_, ?_, kept⟩
    · simp only [handleWriteStep]
      split
      · rfl
      · exact (top_settled settled).rest
    · simp only [handleWriteStep]
      split <;> exact outBuffer
    · simp only [handleWriteStep]
      split <;> exact file
  · have empty : c.outBuffer = [] := acc.direct rfl
    obtain ⟨r, rfl, -, rfl⟩ := Answer.counting_eq_some taken
    cases r with
    | none => simp [sendInLoopStep] at invoked
    | some n =>
      simp only [sendInLoopStep] at invoked ⊢
      split at invoked
      · simp at invoked
      · next all =>
        obtain ⟨stSize, kept⟩ := mayTake (Nat.not_lt.mp all)
        have size := acc.size
        have file : c.file = [] := List.length_eq_zero_iff.mp (by omega)
        rw [if_neg all]
        split
        · exact ⟨rfl, rfl, empty, file, kept⟩
        · exact ⟨rfl, List.drop_eq_nil_of_le (Nat.not_lt.mp all), empty, file, kept⟩

end TcpConnection

end Yvent
