import Yvent.Connection.Accounts

/-!
# The write-complete callback

The callback is invoked at the end of a direct write that took all of its message, and behind the
write that drained `outBuffer_` while no file is pending. The first of the two places does not look
at the pending file, and the end of a file does not invoke it at all. What is left besides these is
right: the callback stands for everything that `sendInLoop` and `setSendFd` were given, and whatever
has been written completely is followed by it.
-/

namespace Yvent

namespace TcpConnection

/-- A connection with the bytes passed to `sendInLoop` so far. `lost` tells whether some bytes will
never be written, as `sendInLoop` gave up a message or `setSendFd` replaced a file. -/
structure Watch where
  system : System
  passed : Bytes
  lost : Bool

namespace Watch

/-- Nothing was passed in or lost. -/
def start : Watch := { system := .start, passed := [], lost := false }

/-- The bytes that the step passes to `sendInLoop`. -/
def passes (s : System) : Label → Bytes
  | .run _ => (top s.stack).begun
  | _ => []

/-- `sendInLoop` gives up a message, or `setSendFd` replaces a file that has not been sent. -/
def loses (s : System) : Label → Bool
  | .run _ => s.conn.state = .kDisconnected ∧ (top s.stack).begun ≠ []
  | .call (.setSendFd _ _ _) => s.conn.stSize ≠ 0
  | _ => false

/-- One step, with the ledger beside it. -/
def step (cb : Callbacks) (w : Watch) (l : Label) : Option Watch :=
  (System.step cb w.system l).map fun s =>
    { system := s, passed := w.passed ++ passes w.system l, lost := w.lost || loses w.system l }

/-- All bytes passed to `sendInLoop` and all bytes of every attached file have been written. -/
def Complete (w : Watch) : Prop :=
  wrote w.system.conn.trace = w.passed ∧
    filesTaken w.system.conn.trace = filesGiven w.system.conn.trace

/-- How often `writeCompleteCallback_` was invoked. -/
def invocations (w : Watch) : Nat := w.system.conn.trace.count .writeCompleteCallback

/-- The size that comes with a descriptor is that of its file. -/
def Sized (_ : Watch) : Label → Prop
  | .call (.setSendFd _ file stSize) => stSize = file.length
  | _ => True

/-- The socket takes what the executing frame offers as `MayTake` says. -/
def Timely (w : Watch) : Label → Prop
  | .run answer => MayTake w.lost w.system.conn (top w.system.stack) answer
  | _ => True

/-- The steps at which the callback is right. -/
def Announces (w : Watch) (l : Label) : Prop := Sized w l ∧ Timely w l

instance (w : Watch) : Decidable w.Complete := inferInstanceAs (Decidable (_ ∧ _))

instance (w : Watch) : (l : Label) → Decidable (Sized w l)
  | .call (.setSendFd _ _ _) => inferInstanceAs (Decidable (_ = _))
  | .call (.send _) | .call .shutdown | .call .forceClose | .run _ | .ret | .next | .poll _
  | .addTask | .other _ _ | .resume _ => isTrue trivial

instance (w : Watch) : (l : Label) → Decidable (Timely w l)
  | .run _ => inferInstanceAs (Decidable (MayTake _ _ _ _))
  | .call _ | .ret | .next | .poll _ | .addTask | .other _ _ | .resume _ => isTrue trivial

instance (w : Watch) (l : Label) : Decidable (Announces w l) :=
  inferInstanceAs (Decidable (_ ∧ _))

/-- Completion means complete: a step that invokes the callback leads to a state in which all is
written, and when all is written and user code or no code is executing, the last part of it has been
announced. -/
def CompletionSound (cb : Callbacks) (ok : Watch → Label → Prop) (w : Watch) : Prop :=
  (∀ l w', ok w l → step cb w l = some w' → w.invocations < w'.invocations → w'.Complete) ∧
    (cb.writeComplete = true → top w.system.stack = .user → Open w.system.conn.trace →
      w.Complete → Announced w.system.conn.trace)

end Watch

variable {cb : Callbacks} {c : TcpConnection} {rest : List Frame} {s s' : System} {l : Label}
  {passed : Bytes} {lost : Bool} {w w' : Watch}

/-! ## The other steps -/

/-- A file is attached. -/
theorem Accounted.setSendFd {fd : Int} {file : Bytes}
    (acc : Accounted cb c (.user :: rest) passed lost) :
    Accounted cb (c.setSendFd fd file file.length) (.user :: rest) passed
      (lost || decide (c.stSize ≠ 0)) := by
  have attached : (c.setSendFd fd file file.length).trace = c.trace ++ [.setSendFd fd file] := rfl
  have taken : filesTaken (c.trace ++ [.setSendFd fd file]) = filesTaken c.trace := by
    rw [filesTaken_append]
    simp
  have given : filesGiven (c.trace ++ [.setSendFd fd file]) = filesGiven c.trace ++ file := by
    rw [filesGiven_append]
    simp
  have begun : executed (c.trace ++ [.setSendFd fd file]) = executed c.trace := by
    rw [executed_append]
    simp
  have wrote' : wrote (c.trace ++ [.setSendFd fd file]) = wrote c.trace := by
    rw [wrote_append]
    simp
  have before : Open (c.trace ++ [.setSendFd fd file]) → Open c.trace := fun opened =>
    (open_append.mp opened).1
  have free : (lost || decide (c.stSize ≠ 0)) = false → lost = false ∧ c.file = [] := by
    intro kept
    have size := acc.size
    rw [Bool.or_eq_false_iff, decide_eq_false_iff_not, not_not] at kept
    exact ⟨kept.1, List.length_eq_zero_iff.mp (by omega)⟩
  have notHere : TcpConnection.completing (.user :: rest) = false := rfl
  refine ⟨?_, acc.direct, rfl, ?_, ?_, acc.below, ?_, ?_⟩
  · rw [attached, wrote', begun]
    exact acc.stream
  · intro kept
    obtain ⟨kept, empty⟩ := free kept
    obtain ⟨files, all⟩ := acc.kept kept
    rw [empty, List.append_nil] at files
    rw [attached, taken, given, begun, files]
    exact ⟨rfl, all⟩
  · intro gone
    rw [attached, taken, given, List.length_append]
    cases lost with
    | true =>
      refine (acc.gone rfl).imp (fun less => ?_) fun closed opened => closed (before opened)
      exact Nat.add_lt_add_right (by omega) _
    | false =>
      -- the file in the slot will not be sent
      have busy : c.stSize ≠ 0 := by simpa using gone
      have size := acc.size
      have files := congrArg List.length (acc.kept rfl).1
      rw [List.length_append] at files
      exact Or.inl (Nat.add_lt_add_right (by omega) _)
  · exact fun yes => absurd (notHere.symm.trans yes) Bool.false_ne_true
  · intro set opened kept
    obtain ⟨kept, empty⟩ := free kept
    by_cases some : file = []
    · refine owing_kept (acc.announced set (before opened) kept) rfl attached ?_ rfl ?_ rfl
      · simp [some]
      · exact some.trans empty.symm
    · exact Or.inr (Or.inr (Or.inr (Or.inl some)))

/-- User code calls the connection. -/
theorem Accounted.call {call : Call} (acc : Accounted cb s.conn s.stack passed lost)
    (here : s.stack = .user :: rest)
    (sized : ∀ fd file stSize, call = .setSendFd fd file stSize → stSize = file.length) :
    Accounted cb (s.callStep call).conn (s.callStep call).stack passed
      (lost || Watch.loses s (.call call)) := by
  rw [here] at acc
  have user : ∀ g ∈ s.stack, g.completes = false := by
    rw [here]
    exact List.forall_mem_cons.mpr ⟨rfl, acc.under (by simp)⟩
  cases call with
  | send | forceClose =>
    rw [show Watch.loses s _ = false from rfl, Bool.or_false]
    exact acc.elsewhere [] (List.append_nil _).symm (by simp) rfl rfl rfl rfl
      (by simp [System.callStep]) rfl (List.forall_mem_cons.mpr ⟨rfl, user⟩)
  | shutdown =>
    rw [show Watch.loses s (.call .shutdown) = false from rfl, Bool.or_false]
    exact acc.elsewhere [.shutdownCalled .loop] rfl (by simp) rfl rfl rfl rfl
      (by simp [System.callStep]) rfl (List.forall_mem_cons.mpr ⟨rfl, user⟩)
  | setSendFd fd file stSize =>
    obtain rfl := sized fd file stSize rfl
    show Accounted cb _ s.stack _ _
    rw [here]
    exact acc.setSendFd

/-- The loop between two frames, and the other threads. -/
theorem Accounted.outside (acc : Accounted cb s.conn s.stack passed lost)
    (out : System.Outside s s') :
    Accounted cb s'.conn s'.stack passed lost := by
  cases out with
  | begin f idle first stack conn =>
    have plain : f.rest = [] ∧ f.direct = false ∧ f.completes = false := by
      cases f with
      | sendInLoop data pc => cases pc <;> first | exact ⟨rfl, rfl, rfl⟩ | cases first
      | handleWrite => cases first
      | _ => exact ⟨rfl, rfl, rfl⟩
    rw [idle] at acc
    rw [conn, stack]
    refine acc.elsewhere [] (List.append_nil _).symm (by simp) rfl rfl rfl plain.1 ?_ rfl
      (List.forall_mem_singleton.mpr plain.2.2)
    rw [top_cons, plain.2.1]
    simp
  | event e other stack conn =>
    have idle : e.idle = true := by
      cases e with
      | executed | setSendFd | write | sendfile => cases other
      | _ => rfl
    rw [conn, stack]
    exact acc.aside [e] rfl (List.forall_mem_singleton.mpr idle) rfl rfl rfl rfl acc.direct
      acc.below id fun _ here => Or.inl here
  | store stack conn =>
    rw [conn, stack]
    exact acc.aside [.store .kDisconnecting] rfl (by simp) rfl rfl rfl rfl acc.direct acc.below id
      fun _ here => Or.inl here
  | silent stack conn =>
    rw [conn, stack]
    exact acc

/-! ## Runs -/

namespace Watch

/-- The output of the connection and the accounts of the ledger. -/
structure Inv (cb : Callbacks) (w : Watch) : Prop where
  output : Output w.system.conn w.system.stack w.system.waiting
  accounted : Accounted cb w.system.conn w.system.stack w.passed w.lost

theorem inv_start : Inv cb start where
  output := output_start
  accounted := by
    refine ⟨rfl, fun _ => rfl, rfl, fun _ => ⟨rfl, rfl⟩, by simp [start], by decide, by decide, ?_⟩
    intro _ _ _
    refine Or.inl fun pre e post eq => ?_
    simp [start, System.start, create] at eq

theorem accounted_step (inv : Inv cb w) (good : Announces w l)
    (taken : System.step cb w.system l = some s') :
    Accounted cb s'.conn s'.stack (w.passed ++ passes w.system l)
      (w.lost || loses w.system l) := by
  obtain ⟨output, acc⟩ := inv
  have settled := output.settled
  have quiet : ∀ {t : System}, (∀ answer, l ≠ .run answer) → loses w.system l = false →
      Accounted cb t.conn t.stack w.passed w.lost →
      Accounted cb t.conn t.stack (w.passed ++ passes w.system l)
        (w.lost || loses w.system l) := by
    intro t other none acc
    have nothing : passes w.system l = [] := by
      cases l with
      | run answer => exact absurd rfl (other answer)
      | _ => rfl
    rw [nothing, none, List.append_nil, Bool.or_false]
    exact acc
  cases l with
  | run answer =>
    obtain ⟨f, rest, frames, conn, here, ran, rfl⟩ := System.run_of_step taken
    have mayTake : MayTake w.lost w.system.conn (top w.system.stack) answer := good.2
    rw [here] at acc settled mayTake
    have ends := acc.run settled output.closed mayTake ran
    simpa only [passes, loses, here, top_cons] using ends
  | call call =>
    cases System.move_of_step taken with
    | call _ here =>
      have sized : ∀ fd file stSize, call = .setSendFd fd file stSize → stSize = file.length := by
        rintro fd file stSize rfl
        exact good.1
      simpa [passes] using acc.call here sized
  | ret =>
    cases System.move_of_step taken with
    | ret here =>
      rw [here] at acc settled
      exact quiet (by simp) rfl (acc.pop settled (by simp) rfl rfl)
  | next | poll | addTask | other | resume =>
    cases System.turn_of_step taken with
    | outside _ out => exact quiet (by simp) rfl (acc.outside out)

theorem Inv.step (inv : Inv cb w) (good : Announces w l) (taken : Watch.step cb w l = some w') :
    Inv cb w' := by
  obtain ⟨s', moved, rfl⟩ := Option.map_eq_some_iff.mp taken
  exact ⟨output_step inv.output moved, accounted_step inv good moved⟩

/-- Only functions of the connection invoke the callback. -/
theorem count_of_not_run (other : ∀ answer, l ≠ .run answer)
    (taken : System.step cb s l = some s') :
    s'.conn.trace.count .writeCompleteCallback = s.conn.trace.count .writeCompleteCallback := by
  cases System.turn_of_step taken with
  | run answer => exact absurd rfl (other answer)
  | call call => cases call <;> simp [System.callStep, TcpConnection.setSendFd]
  | ret => rfl
  | outside _ out =>
    cases out with
    | begin _ _ _ _ conn | silent _ conn => rw [conn]
    | event e other _ conn =>
      rw [conn, emit_trace, List.count_append, List.count_singleton, if_neg, Nat.add_zero]
      intro same
      rw [eq_of_beq same] at other
      cases other
    | store _ conn => simp [conn, store]

/-- All is written where the callback is invoked. -/
theorem complete_of_invoked (inv : Inv cb w) (good : Announces w l)
    (taken : Watch.step cb w l = some w') (invoked : w.invocations < w'.invocations) :
    w'.Complete := by
  have next := (inv.step good taken).accounted
  obtain ⟨s', moved, rfl⟩ := Option.map_eq_some_iff.mp taken
  cases l with
  | run answer =>
    obtain ⟨output, acc⟩ := inv
    have settled := output.settled
    have mayTake : MayTake w.lost w.system.conn (top w.system.stack) answer := good.2
    obtain ⟨f, rest, frames, conn, here, ran, rfl⟩ := System.run_of_step moved
    rw [here] at acc settled mayTake
    obtain ⟨begun, rest, outBuffer, file, kept⟩ := acc.invoked settled mayTake ran invoked
    have none : loses w.system (.run answer) = false := by
      show decide (_ ∧ (top w.system.stack).begun ≠ []) = false
      rw [here, top_cons, begun]
      simp
    exact next.whole rest outBuffer file (by rw [kept, none]; rfl)
  | call | ret | next | poll | addTask | other | resume =>
    have same := count_of_not_run (by simp) moved
    exact absurd invoked (Nat.not_lt.mpr (Nat.le_of_eq same))

/-- All that is written has been announced. -/
theorem announced_of_complete (inv : Inv cb w) (set : cb.writeComplete = true)
    (user : top w.system.stack = .user) (opened : Open w.system.conn.trace)
    (complete : w.Complete) : Announced w.system.conn.trace := by
  obtain ⟨-, acc⟩ := inv
  obtain ⟨written, sent⟩ := complete
  have kept : w.lost = false := by
    by_contra gone
    rw [Bool.not_eq_false] at gone
    rcases acc.gone gone with less | closed
    · rw [sent] at less
      omega
    · exact closed opened
  obtain ⟨files, all⟩ := acc.kept kept
  have stream := acc.stream
  rw [all, ← written, List.append_assoc, List.append_right_eq_self, List.append_eq_nil_iff]
    at stream
  rw [← sent, List.append_right_eq_self] at files
  rcases acc.announced set opened kept with told | some | some | some | here
  · exact told
  · exact absurd stream.1 some
  · exact absurd stream.2 some
  · exact absurd files some
  · rw [completing_of_user user] at here
    cases here

/-- In every run in which a direct write takes a whole message only while no file is pending, no
write takes all that there is behind a loss, and no `sendfile` takes the rest of a file, the
callback stands for all that was given, and all that has been written is announced by it. -/
theorem completionSound_of_announces (reached : Reaches (Watch.step cb) Announces start w) :
    CompletionSound cb Announces w := by
  have inv : Inv cb w :=
    reached.invariant inv_start fun _ _ _ _ inv good taken => inv.step good taken
  exact ⟨fun _ _ good taken invoked => complete_of_invoked inv good taken invoked,
    announced_of_complete inv⟩

/-- The connection callback makes the calls of the list, the last of them a `send` that comes to its
direct write. -/
def sendsFirst (calls : List Label) : List Label :=
  List.flatten [List.replicate 3 (.run .silent), calls, [.run .silent, .run .silent]]

/-- The `send` buffers what is left, and `handleWrite` comes to its system call. -/
def handlesWrite : List Label := List.flatten [
  [.run .silent, .run .silent, .ret, .ret, .next, .poll [some EPOLLOUT], .next],
  List.replicate 5 (.run .silent)]

/-- A message leaves in two pieces. -/
theorem completionSound_of_pieces : ∃ w, CompletionSound allCallbacks Announces w ∧
    w.passed = [1, 2, 3] ∧ w.Complete ∧ w.invocations = 1 := by
  obtain ⟨w, reached, ended⟩ : ∃ w, Reaches (Watch.step allCallbacks) Announces start w ∧
      (w.passed = [1, 2, 3] ∧ w.Complete ∧ w.invocations = 1) :=
    exists_reaches_of_exec (List.flatten [sendsFirst [.call (.send [1, 2, 3])],
      [.run (.count (some 1))], handlesWrite, [.run (.count (some 2)), .run .silent, .run .silent]])
      (by decide +kernel)
  exact ⟨w, completionSound_of_announces reached, ended⟩

/-- A head that is written at once invokes the callback while the file is pending. And when the head
leaves in two pieces and the file behind it, the callback is not invoked at all. -/
theorem completion_unsound :
    (∃ w l w', Reaches (Watch.step allCallbacks) Sized start w ∧ Sized w l ∧
      Watch.step allCallbacks w l = some w' ∧ w.invocations < w'.invocations ∧ ¬w'.Complete) ∧
    ∃ w, Reaches (Watch.step allCallbacks) Sized start w ∧ top w.system.stack = .user ∧
      Open w.system.conn.trace ∧ w.Complete ∧ ¬Announced w.system.conn.trace := by
  constructor
  · obtain ⟨w, reached, ended⟩ : ∃ w, Reaches (Watch.step allCallbacks) Sized start w ∧
        ((Watch.step allCallbacks w (.run (.count (some 1)))).any fun w' =>
          decide (w.invocations < w'.invocations ∧ ¬w'.Complete)) = true :=
      exists_reaches_of_exec (sendsFirst [.call (.setSendFd 5 [1, 2] 2), .call (.send [0])])
        (by decide +kernel)
    obtain ⟨w', taken, wrong⟩ := (Option.any_eq_true _ _).mp ended
    exact ⟨w, .run (.count (some 1)), w', reached, trivial, taken, of_decide_eq_true wrong⟩
  · obtain ⟨w, reached, user, opened, complete, sent, silent⟩ :
        ∃ w, Reaches (Watch.step allCallbacks) Sized start w ∧ top w.system.stack = .user ∧
          Open w.system.conn.trace ∧ w.Complete ∧
          .sendfile [1, 2] (some 2) ∈ w.system.conn.trace ∧
          .writeCompleteCallback ∉ w.system.conn.trace :=
      exists_reaches_of_exec (List.flatten [
        sendsFirst [.call (.setSendFd 5 [1, 2] 2), .call (.send [0, 9])],
        [.run (.count (some 1))], handlesWrite, [.run (.count (some 1)), .next, .next],
        [.poll [some EPOLLOUT], .next], List.replicate 5 (.run .silent),
        [.run (.count (some 2)), .run .silent, .run .silent]]) (by decide +kernel)
    refine ⟨w, reached, user, opened, complete, fun announced => silent ?_⟩
    obtain ⟨pre, post, eq⟩ := List.append_of_mem sent
    rw [eq]
    exact List.mem_append_right _ (List.mem_cons_of_mem _ (announced pre _ post eq (by simp)))

end Watch

end TcpConnection

end Yvent
