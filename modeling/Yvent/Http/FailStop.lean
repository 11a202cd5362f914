import Yvent.Connection.Cause
import Yvent.Http.FinalResponse
import Yvent.Http.Rejection
import Yvent.Http.Turns

/-!
# After a bad request

Nothing records that a connection has sent a bad request. The rejected line stays at the head of
`inBuffer_`, so every later `onMessage` comes to it again and rejects it again, and the `send` of
the second answer is refused because the first `onMessage` has shut the connection down.
-/

namespace Yvent.Http

open TcpConnection

/-- The program points of `onRequest` and of the `reset` behind it. -/
def CallbackPc.onRequest : CallbackPc → Bool
  | .httpCallback _ _ | .send _ _ | .closeConnection _ | .reset => true
  | .onConnection | .parseRequest | .sendBadRequest | .shutdownBadRequest | .parseDone => false

namespace Session

variable {s s' s₁ : Session} {l : Label} {label : SessionLabel} {httpCallback : Bool}
  {pc : CallbackPc} {start : List Event} {messages : List Bytes} {data : Bytes} {system : System}

/-- `parseRequest` returns false. -/
def Rejects (s : Session) : Prop :=
  ∃ context context' inBuffer, s.context = some context ∧
    Http.parseRequest context s.inBuffer = some (false, context', inBuffer)

/-- From `s` to `s'` the connection has served no request and `onMessage` has answered at most once;
it would still reject. -/
structure FailStop (s s' : Session) : Prop where
  rejects : s'.Rejects
  log : s'.log = s.log
  callback : ∀ pc depth, s'.callback = some (pc, depth) → pc.onRequest = false
  once : ∃ es, s'.system.conn.trace = s.system.conn.trace ++ es ∧
    (acceptedBy .loop es = [] ∨ acceptedBy .loop es = [badRequest])

/-! ## The line at the head of the buffer -/

/-- The parser waits for a request line and has one that it rejects. -/
def HeadKept (s : Session) : Prop :=
  ∃ context, s.context = some context ∧ context.state = .requestLine ∧ HeadRejected s.inBuffer

theorem HeadKept.rejects (head : s.HeadKept) : s.Rejects := by
  obtain ⟨context, present, here, rejected⟩ := head
  obtain ⟨req, returns⟩ := parseRequest_of_headRejected here rejected
  exact ⟨context, _, _, present, returns⟩

/-- What is read later stands behind the line. -/
theorem HeadKept.follow (head : s.HeadKept) : (s.follow l system).HeadKept := by
  unfold Session.follow
  split
  · exact head
  · next b data _ =>
    obtain ⟨context, present, here, rejected⟩ := head
    exact ⟨context, present, here, rejected.append (b :: data)⟩
  · exact head

/-- On such a line `parseRequest` returns false and changes neither. -/
theorem HeadKept.parse {context context' : HttpContext} {result : Bool} {inBuffer : Bytes}
    (head : s.HeadKept) (present : s.context = some context)
    (returns : Http.parseRequest context s.inBuffer = some (result, context', inBuffer)) :
    result = false ∧ context'.state = .requestLine ∧ inBuffer = s.inBuffer := by
  obtain ⟨context₀, present₀, here, rejected⟩ := head
  rw [present] at present₀
  cases present₀
  obtain ⟨req, again⟩ := parseRequest_of_headRejected here rejected
  rw [returns] at again
  cases again
  exact ⟨rfl, here, rfl⟩

/-- `parseRequest` returns in the line states only. -/
theorem parsing_of_returns {c c' : HttpContext} {readable rest : Bytes} {result : Bool}
    (returns : Http.parseRequest c readable = some (result, c', rest)) : c.Parsing := by
  have stuck : (∀ readable, parseTurn c readable = .more c readable) →
      ∀ fuel, parseLoop fuel c readable = none := by
    intro turn fuel
    induction fuel with
    | zero => rfl
    | succ fuel ih =>
      rw [parseLoop, turn]
      exact ih
  cases here : c.state with
  | requestLine => exact Or.inl here
  | headers => exact Or.inr here
  | body | allDone =>
    rw [Http.parseRequest, stuck fun readable => by simp only [parseTurn, here]] at returns
    cases returns

/-! ## What the loop thread has given the connection -/

/-- The messages that the connection has taken from the loop thread since `start`. -/
def Gave (start : List Event) (messages : List Bytes) (system : System) : Prop :=
  ∃ es, system.conn.trace = start ++ es ∧ acceptedBy .loop es = messages

/-- Unless a `send` begins on a connected connection, nothing is added. -/
theorem Gave.step {s s' : System} (gave : Gave start messages s)
    (refused : ∀ data, top s.stack = .send data → s.conn.state ≠ .kConnected)
    (taken : System.step serverCallbacks s l = some s') : Gave start messages s' := by
  obtain ⟨es, trace, given⟩ := gave
  obtain ⟨more, after, none | ⟨data, onTop, connected, -⟩⟩ := System.accepted_step taken
  · exact ⟨es ++ more, by rw [after, trace, List.append_assoc],
      by rw [acceptedBy_append, given, none, List.append_nil]⟩
  · exact absurd connected (refused data onTop)

/-- `send` passes its message on in the step that enters `sendInLoop`, if at all. -/
theorem Gave.send {s s' : System} (gave : Gave start [] s) (onTop : top s.stack = .send data)
    (taken : System.step serverCallbacks s l = some s') : Gave start [] s' ∨
      top s'.stack = .sendInLoop data (.check .loop) ∧ Gave start [data] s' := by
  obtain ⟨es, trace, given⟩ := gave
  obtain ⟨more, after, none | ⟨data', onTop', -, next, one⟩⟩ := System.accepted_step taken
  · exact Or.inl ⟨es ++ more, by rw [after, trace, List.append_assoc],
      by rw [acceptedBy_append, given, none, List.append_nil]⟩
  · rw [onTop] at onTop'
    cases onTop'
    exact Or.inr ⟨next, es ++ more, by rw [after, trace, List.append_assoc],
      by rw [acceptedBy_append, given, one, List.nil_append]⟩

/-- It has taken the answer at most once, and nothing else. -/
def AtMostOnce (start : List Event) (system : System) : Prop :=
  Gave start [] system ∨ Gave start [badRequest] system

theorem AtMostOnce.step {s s' : System} (once : AtMostOnce start s)
    (refused : ∀ data, top s.stack = .send data → s.conn.state ≠ .kConnected)
    (taken : System.step serverCallbacks s l = some s') : AtMostOnce start s' :=
  once.imp (fun gave => gave.step refused taken) (fun gave => gave.step refused taken)

/-! ## The frame of the callback -/

/-- The frame of the callback is on the stack. -/
def Nested (s : Session) : Prop :=
  ∀ pc depth, s.callback = some (pc, depth) →
    ∃ above rest, s.system.stack = above ++ .user :: rest ∧ rest.length + 1 = depth

/-- A step does not reach below the executing frame. -/
theorem step_above {s s' : System} {f : Frame} {rest : List Frame} (busy : s.stack = f :: rest)
    (taken : System.step serverCallbacks s l = some s') : ∃ frames, s'.stack = frames ++ rest := by
  cases System.turn_of_step taken with
  | run answer here moved =>
    rw [busy] at here
    cases here
    exact ⟨_, rfl⟩
  | call call =>
    obtain ⟨frames, grown⟩ := System.callStep_stack s call
    refine ⟨frames ++ [f], ?_⟩
    rw [grown, busy, List.append_assoc, List.singleton_append]
  | ret here =>
    rw [busy] at here
    cases here
    exact ⟨[], rfl⟩
  | outside _ out =>
    cases out with
    | begin _ idle =>
      rw [busy] at idle
      cases idle
    | event _ _ stack | store stack | silent stack => exact ⟨[f], stack.trans busy⟩

theorem nested_of_callback {depth : Nat} {above rest : List Frame}
    (callback : s.callback = some (pc, depth)) (stack : s.system.stack = above ++ .user :: rest)
    (length : rest.length + 1 = depth) : s.Nested := by
  intro pc' depth' same
  rw [callback] at same
  cases same
  exact ⟨above, rest, stack, length⟩

/-- While the callback is executing, only other threads take steps beside it. -/
theorem beside_of_executing {rest : List Frame} (stack : s.system.stack = .user :: rest)
    (executing : s.executing = some pc) (free : s.executing.isSome = true → l.ofUser = false)
    (taken : System.step serverCallbacks s.system l = some system) : Beside s.system system := by
  have notUser : l.ofUser = false := free (by rw [executing]; rfl)
  rcases System.step_busy stack notUser taken with ⟨_, _, moved, _⟩ | beside
  · cases moved
  · exact beside

/-- The executing frame is replaced by a callback. -/
theorem stack_of_run {s s' : System} {f : Frame} {answer : Answer} (onTop : top s.stack = f)
    (notUser : f ≠ .user)
    (calls : ∀ {result}, frameStep serverCallbacks s.conn f answer = some result →
      result.1 = [.user])
    (taken : System.step serverCallbacks s (.run answer) = some s') :
    ∃ rest, s'.stack = .user :: rest := by
  cases stack : s.stack with
  | nil =>
    rw [stack] at onTop
    exact absurd onTop.symm notUser
  | cons g rest =>
    rw [stack, top_cons] at onTop
    subst onTop
    simp only [System.step, stack] at taken
    obtain ⟨result, step, rfl⟩ := Option.map_eq_some_iff.mp taken
    exact ⟨rest, congrArg (· ++ rest) (calls step)⟩

theorem Nested.follow (nested : s.Nested) (free : s.executing.isSome = true → l.ofUser = false)
    (taken : System.step serverCallbacks s.system l = some system) :
    (s.follow l system).Nested := by
  have begins : ∀ pc inBuffer, (∃ rest, system.stack = .user :: rest) →
      Nested { s with system, inBuffer, callback := some (pc, system.stack.length) } := by
    rintro pc inBuffer ⟨rest, stack⟩
    have callback : system.stack = [] ++ .user :: rest := stack
    refine nested_of_callback rfl callback ?_
    rw [stack, List.length_cons]
  unfold Session.follow
  split
  · next answer onTop =>
    refine begins _ _ (stack_of_run onTop (by simp) (fun step => ?_) taken)
    cases answer <;> cases step
    rfl
  · next b data onTop =>
    refine begins _ _ (stack_of_run onTop (by simp) (fun step => ?_) taken)
    cases step
    rfl
  · intro pc depth callback
    replace callback : s.callback = some (pc, depth) := callback
    obtain ⟨above, rest, stack, length⟩ := nested pc depth callback
    cases above with
    | nil =>
      have executing : s.executing = some pc := by simp [executing, callback, stack, ← length]
      have beside := beside_of_executing stack executing free taken
      exact ⟨[], rest, beside.stack.trans stack, length⟩
    | cons f above =>
      obtain ⟨frames, next⟩ := step_above stack taken
      exact ⟨frames ++ above, rest, next.trans (List.append_assoc _ _ _).symm, length⟩

theorem Nested.step (nested : s.Nested) (taken : s.step httpCallback label = some s') :
    s'.Nested := by
  cases move_of_step taken with
  | system free stepped => exact nested.follow free stepped
  | @callback pc label s' here moved =>
    obtain ⟨depth, callback, length⟩ := exists_of_executing here
    obtain ⟨above, rest, stack, size⟩ := nested pc depth callback
    have goes : ∀ pc' {c : Call} {system : System},
        System.step serverCallbacks s.system (.call c) = some system →
        ∀ log, Nested { s.goto pc' with system, log } := by
      intro pc' c system called log
      cases System.move_of_step called
      obtain ⟨frames, grown⟩ := System.callStep_stack s.system c
      rw [stack, ← List.append_assoc] at grown
      exact nested_of_callback (goto_callback callback pc') grown size
    have stays : ∀ pc' context inBuffer log, Nested { s.goto pc' with context, inBuffer, log } :=
      fun pc' _ _ _ => nested_of_callback (goto_callback callback pc') stack size
    have returned : ∀ context system, Nested { s with system, context, callback := none } :=
      fun _ _ _ _ none => by cases none
    cases moved with
    | onConnection _ _ | wait | reset _ _ => exact returned _ _
    | parse | invoke | skip | answer | keepAlive => exact stays _ _ _ _
    | badRequest called | badShutdown called | call called | issue called | close called =>
      exact goes _ called _

/-! ## The steps behind the rejection -/

/-- How far the connection is with its answer to the bad request. -/
inductive Refusing (start : List Event) (s : Session) : Prop
  | rejected {rest : List Frame} (stack : s.system.stack = .user :: rest)
      (callback : s.callback = some (.sendBadRequest, rest.length + 1))
      (gave : Gave start [] s.system)
  | called {rest : List Frame} (stack : s.system.stack = .send badRequest :: .user :: rest)
      (callback : s.callback = some (.shutdownBadRequest, rest.length + 1))
      (gave : Gave start [] s.system)
  | sending {above rest : List Frame} (stack : s.system.stack = above ++ .user :: rest)
      (frames : ∀ f ∈ above, sending f = true)
      (callback : s.callback = some (.shutdownBadRequest, rest.length + 1))
      (once : AtMostOnce start s.system)
  | closing {f : Frame} {rest : List Frame} (stack : s.system.stack = f :: rest)
      (frame : f = .shutdown ∨ f = .shutdownStore)
      (callback : s.callback = some (.parseDone, rest.length))
      (once : AtMostOnce start s.system)
  | closed (unconnected : s.system.conn.state ≠ .kConnected)
      (callback : ∀ pc depth, s.callback = some (pc, depth) → pc.onRequest = false)
      (once : AtMostOnce start s.system)

theorem Refusing.once (refusing : Refusing start s) : AtMostOnce start s.system := by
  cases refusing with
  | rejected _ _ gave | called _ _ gave => exact Or.inl gave
  | sending _ _ _ once | closing _ _ _ once | closed _ _ once => exact once

theorem Refusing.callback (refusing : Refusing start s) :
    ∀ pc depth, s.callback = some (pc, depth) → pc.onRequest = false := by
  intro pc depth same
  cases refusing with
  | rejected _ callback | called _ callback | sending _ _ callback | closing _ _ callback =>
    rw [callback] at same
    cases same
    rfl
  | closed _ callback => exact callback pc depth same

theorem onRequest_of_callback {depth : Nat} (callback : s.callback = some (pc, depth))
    (none : pc.onRequest = false) :
    ∀ pc depth, s.callback = some (pc, depth) → pc.onRequest = false := by
  intro pc' depth' same
  rw [callback] at same
  cases same
  exact none

/-- A callback that begins serves nothing yet. -/
theorem onRequest_of_follow
    (callback : ∀ pc depth, s.callback = some (pc, depth) → pc.onRequest = false) :
    ∀ pc depth, (s.follow l system).callback = some (pc, depth) → pc.onRequest = false := by
  unfold Session.follow
  split
  · exact onRequest_of_callback rfl rfl
  · exact onRequest_of_callback rfl rfl
  · exact callback

/-- The send of the answer is called and not yet executing. -/
theorem Refusing.step_called {rest : List Frame}
    (stack : s.system.stack = .send badRequest :: .user :: rest)
    (callback : s.callback = some (.shutdownBadRequest, rest.length + 1))
    (gave : Gave start [] s.system)
    (taken : System.step serverCallbacks s.system l = some system) :
    Refusing start (s.follow l system) := by
  have notUser := System.ofUser_of_busy stack (by simp) taken
  have given := gave.send (by rw [stack]; rfl) taken
  rw [follow_eq (by simp [stack]) (by simp [stack])]
  rcases System.step_busy stack notUser taken with ⟨answer, result, moved, rfl⟩ | beside
  · cases moved
    refine .sending rfl ?_ callback (given.imp_right And.right)
    unfold sendStep
    split <;> simp
  · have stack := beside.stack.trans stack
    refine .called stack callback (given.resolve_right fun passed => ?_)
    have onTop := passed.1
    rw [stack] at onTop
    cases onTop

/-- The answer is on its way to the socket. -/
theorem Refusing.step_sending {f : Frame} {above rest : List Frame}
    (stack : s.system.stack = f :: above ++ .user :: rest)
    (frames : ∀ g ∈ f :: above, Session.sending g = true)
    (callback : s.callback = some (.shutdownBadRequest, rest.length + 1))
    (once : AtMostOnce start s.system)
    (taken : System.step serverCallbacks s.system l = some system) :
    Refusing start (s.follow l system) := by
  obtain ⟨here, under⟩ := List.forall_mem_cons.mp frames
  have onTop : top s.system.stack = f := by rw [stack]; rfl
  have notUser := System.ofUser_of_busy stack (by rintro rfl; cases here) taken
  have once := once.step (by rw [onTop]; rintro data rfl; cases here) taken
  rw [follow_eq (by rw [onTop]; rintro rfl; cases here) (by rw [onTop]; rintro rfl; cases here)]
  rcases System.step_busy stack notUser taken with ⟨answer, result, moved, rfl⟩ | beside
  · have among := sending_frameMove moved here
    have stack : result.1 ++ (above ++ .user :: rest) = result.1 ++ above ++ .user :: rest :=
      (List.append_assoc _ _ _).symm
    exact .sending stack (List.forall_mem_append.mpr ⟨among, under⟩) callback once
  · exact .sending (beside.stack.trans stack) frames callback once

/-- The connection is being shut down behind the answer. -/
theorem Refusing.step_closing {f : Frame} {rest : List Frame}
    (stack : s.system.stack = f :: rest) (frame : f = .shutdown ∨ f = .shutdownStore)
    (callback : s.callback = some (.parseDone, rest.length))
    (once : AtMostOnce start s.system)
    (taken : System.step serverCallbacks s.system l = some system) :
    Refusing start (s.follow l system) := by
  have onTop : top s.system.stack = f := by rw [stack]; rfl
  have notUser := System.ofUser_of_busy stack (by rcases frame with rfl | rfl <;> simp) taken
  have once := once.step (by rw [onTop]; rcases frame with rfl | rfl <;> simp) taken
  have quiet := onRequest_of_callback callback rfl
  rw [follow_eq (by rw [onTop]; rcases frame with rfl | rfl <;> simp)
    (by rw [onTop]; rcases frame with rfl | rfl <;> simp)]
  rcases System.step_busy stack notUser taken with ⟨answer, result, moved, rfl⟩ | beside
  · rcases frame with rfl | rfl
    · cases moved
      by_cases connected : s.system.conn.state = .kConnected
      · have stack : shutdownStep s.system.conn ++ rest = .shutdownStore :: rest := by
          rw [shutdownStep, if_pos connected]
          rfl
        exact .closing stack (Or.inr rfl) callback once
      · exact .closed connected quiet once
    · cases moved
      exact .closed (by simp [store]) quiet once
  · exact .closing (beside.stack.trans stack) frame callback once

/-- The connection, its loop or another thread takes a step. -/
theorem Refusing.step_system (refusing : Refusing start s)
    (begun : ∀ f ∈ s.system.stack, f.starting = false)
    (free : s.executing.isSome = true → l.ofUser = false)
    (taken : System.step serverCallbacks s.system l = some system) :
    Refusing start (s.follow l system) := by
  cases refusing with
  | @rejected rest stack callback gave =>
    have executing : s.executing = some .sendBadRequest := by simp [executing, callback, stack]
    have beside := beside_of_executing stack executing free taken
    rw [follow_eq (by simp [stack]) (by simp [stack])]
    exact .rejected (beside.stack.trans stack) callback (gave.step (by simp [stack]) taken)
  | called stack callback gave => exact step_called stack callback gave taken
  | @sending above rest stack frames callback once =>
    cases above with
    | nil =>
      have executing : s.executing = some .shutdownBadRequest := by
        simp [executing, callback, stack]
      have beside := beside_of_executing stack executing free taken
      have stack' : system.stack = [] ++ .user :: rest := beside.stack.trans stack
      rw [follow_eq (by simp [stack]) (by simp [stack])]
      exact .sending stack' frames callback (once.step (by simp [stack]) taken)
    | cons f above => exact step_sending stack frames callback once taken
  | closing stack frame callback once => exact step_closing stack frame callback once taken
  | closed unconnected callback once =>
    have same : (s.follow l system).system = system := follow_system.1
    have unconnected' := System.unconnected_step begun unconnected taken
    have once := once.step (fun _ _ => unconnected) taken
    exact .closed (by rw [same]; exact unconnected') (onRequest_of_follow callback)
      (by rw [same]; exact once)

/-- The callback takes a step. -/
theorem Refusing.step_callback (refusing : Refusing start s) (head : s.HeadKept)
    (begun : ∀ f ∈ s.system.stack, f.starting = false) (here : s.executing = some pc)
    (moved : CallbackMove s pc label s') : s'.log = s.log ∧ Refusing start s' := by
  obtain ⟨depth, callback, length⟩ := exists_of_executing here
  cases refusing with
  | @rejected rest stack callback' gave =>
    rw [callback] at callback'
    cases callback'
    cases moved with
    | @badRequest system called =>
      have gave := gave.step (by simp [stack]) called
      have next : system.stack = .send badRequest :: .user :: rest := by
        cases System.move_of_step called
        simp [System.callStep, stack]
      exact ⟨rfl, .called next (goto_callback callback .shutdownBadRequest) gave⟩
  | called stack callback' | closing stack _ callback' =>
    rw [callback] at callback'
    cases callback'
    simp [stack] at length
  | @sending above rest stack frames callback' once =>
    rw [callback] at callback'
    cases callback'
    have alone : above = [] := by
      rw [stack, List.length_append, List.length_cons] at length
      exact List.eq_nil_of_length_eq_zero (by omega)
    subst alone
    cases moved with
    | @badShutdown system called =>
      have once := once.step (by simp [stack]) called
      have next : system.stack = .shutdown :: .user :: rest := by
        cases System.move_of_step called
        simp [System.callStep, stack]
      exact ⟨rfl, .closing next (Or.inl rfl) (goto_callback callback .parseDone) once⟩
  | closed unconnected quiet once =>
    have notServing := quiet pc depth callback
    have stays : ∀ pc', pc'.onRequest = false → ∀ pc'' depth,
        (s.goto pc').callback = some (pc'', depth) → pc''.onRequest = false := fun pc' none =>
      onRequest_of_callback (goto_callback callback pc') none
    have kept : ∀ {l : Label} {system : System},
        System.step serverCallbacks s.system l = some system →
        system.conn.state ≠ .kConnected ∧ AtMostOnce start system := fun taken =>
      ⟨System.unconnected_step begun unconnected taken, once.step (fun _ _ => unconnected) taken⟩
    cases moved with
    | onConnection _ returned | wait _ _ returned =>
      exact ⟨rfl, .closed (kept returned).1 (by simp) (kept returned).2⟩
    | parse present returns =>
      obtain ⟨rfl, -, -⟩ := head.parse present returns
      exact ⟨rfl, .closed unconnected (stays .sendBadRequest rfl) once⟩
    | badRequest called =>
      exact ⟨rfl, .closed (kept called).1 (stays .shutdownBadRequest rfl) (kept called).2⟩
    | badShutdown called =>
      exact ⟨rfl, .closed (kept called).1 (stays .parseDone rfl) (kept called).2⟩
    | invoke _ present done | skip _ present done =>
      obtain ⟨context, present', here, -⟩ := head
      rw [present] at present'
      cases present'
      rw [HttpContext.parseDone, here] at done
      cases done
    | call | answer | issue | close | keepAlive | reset => cases notServing

/-- Only a connection that is down has other callbacks. -/
theorem Refusing.unconnected_of_onConnection {depth : Nat} (refusing : Refusing start s)
    (callback : s.callback = some (.onConnection, depth)) : s.system.conn.state ≠ .kConnected := by
  cases refusing with
  | rejected _ callback' | called _ callback' | sending _ _ callback' | closing _ _ callback' =>
    rw [callback] at callback'
    cases callback'
  | closed unconnected => exact unconnected

/-- The context stays as it is, or is parsed again. -/
theorem HeadKept.step_callback (head : s.HeadKept) (refusing : Refusing start s)
    (here : s.executing = some pc) (taken : s.callbackStep httpCallback pc label = some s') :
    s'.HeadKept := by
  obtain ⟨depth, callback, length⟩ := exists_of_executing here
  have moved := callbackMove_of_callbackStep taken
  have notServing := refusing.callback pc depth callback
  cases moved with
  | onConnection context returned =>
    have unconnected := refusing.unconnected_of_onConnection callback
    simp only [callbackStep, if_neg unconnected, ret] at taken
    obtain ⟨system, -, same⟩ := Option.map_eq_some_iff.mp taken
    cases same
    exact head
  | parse present returns =>
    obtain ⟨rfl, here, rfl⟩ := head.parse present returns
    obtain ⟨-, -, -, rejected⟩ := head
    exact ⟨_, rfl, here, rejected⟩
  | badRequest | badShutdown | wait | invoke | skip => exact head
  | call | answer | issue | close | keepAlive | reset => cases notServing

/-! ## Runs -/

/-- The invariant of a session that has rejected a request in `s₁`. -/
structure Failed (s₁ s : Session) : Prop where
  begun : ∀ f ∈ s.system.stack, f.starting = false
  head : s.HeadKept
  log : s.log = s₁.log
  refusing : Refusing s₁.system.conn.trace s

theorem Failed.step (failed : Failed s₁ s) (taken : s.step httpCallback label = some s') :
    Failed s₁ s' := by
  have moved := move_of_step taken
  have begun : ∀ f ∈ s'.system.stack, f.starting = false :=
    moved.keeps (I := fun system => ∀ f ∈ system.stack, f.starting = false) System.begun_step
      failed.begun
  cases moved with
  | system free stepped =>
    exact ⟨begun, failed.head.follow, follow_system.2.trans failed.log,
      failed.refusing.step_system failed.begun free stepped⟩
  | @callback pc label s' here moved =>
    obtain ⟨log, refusing⟩ := failed.refusing.step_callback failed.head failed.begun here moved
    have stepped : s.callbackStep httpCallback pc label = some s' := by
      cases label with
      | system => cases moved
      | go | call | answer => simpa only [Session.step, here, Option.bind_some] using taken
    exact ⟨begun, failed.head.step_callback failed.refusing here stepped, log.trans failed.log,
      refusing⟩

theorem failed_of_rejects (order : OrderInv s.system) (nested : s.Nested)
    (here : s.executing = some .parseRequest) (rejects : s.Rejects)
    (taken : s.step httpCallback .go = some s₁) : Failed s₁ s₁ := by
  obtain ⟨context, context', inBuffer, present, returns⟩ := rejects
  obtain ⟨depth, callback, length⟩ := exists_of_executing here
  obtain ⟨above, rest, stack, size⟩ := nested .parseRequest depth callback
  have alone : above = [] := by
    rw [stack, List.length_append, List.length_cons] at length
    exact List.eq_nil_of_length_eq_zero (by omega)
  subst alone
  have begun : ∀ f ∈ s.system.stack, f.starting = false := by
    have tail := order.tail
    rw [stack] at tail ⊢
    exact List.forall_mem_cons.mpr ⟨rfl, tail⟩
  obtain ⟨state, rfl, rejected⟩ := headRejected_of_rejected (parsing_of_returns returns) returns
  simp only [step, here, Option.bind_some, callbackStep, present, returns, Option.map_some,
    Option.some.injEq] at taken
  subst taken
  have answers := goto_callback callback .sendBadRequest
  rw [← size] at answers
  exact ⟨begun, ⟨context', rfl, state, rejected⟩, rfl,
    .rejected stack answers ⟨[], (List.append_nil _).symm, rfl⟩⟩

/-- Once `parseRequest` has returned false, it does so in every later call, `onRequest` is not
invoked again, and the connection takes the answer at most once. -/
theorem failStop_of_rejects (reached : Reaches (step httpCallback) anyStep .start s)
    (here : s.executing = some .parseRequest) (rejects : s.Rejects)
    (taken : s.step httpCallback .go = some s₁)
    (later : Reaches (step httpCallback) anyStep s₁ s') : FailStop s₁ s' := by
  have order : OrderInv s.system := reached.invariant (I := fun s => OrderInv s.system)
    orderInv_start fun _ _ _ _ order _ taken => (move_of_step taken).keeps orderInv_step order
  have nested : s.Nested := reached.invariant (I := Nested) (fun _ _ none => by cases none)
    fun _ _ _ _ nested _ taken => nested.step taken
  have failed : Failed s₁ s' := later.invariant (failed_of_rejects order nested here rejects taken)
    fun _ _ _ _ failed _ taken => failed.step taken
  refine ⟨failed.head.rejects, failed.log, failed.refusing.callback, ?_⟩
  rcases failed.refusing.once with ⟨es, trace, given⟩ | ⟨es, trace, given⟩
  · exact ⟨es, trace, Or.inl given⟩
  · exact ⟨es, trace, Or.inr given⟩

/-- The result of the call of `parseRequest` that is about to be made. -/
def nextResult (s : Session) : Option Bool :=
  match s.executing with
  | some .parseRequest =>
    s.context.bind fun context => (Http.parseRequest context s.inBuffer).map Prod.fst
  | _ => none

theorem rejects_of_nextResult (result : s.nextResult = some false) :
    s.executing = some .parseRequest ∧ s.Rejects := by
  unfold nextResult at result
  split at result
  · next here =>
    obtain ⟨context, present, result⟩ := Option.bind_eq_some_iff.mp result
    obtain ⟨⟨result, context', inBuffer⟩, returns, rfl⟩ := Option.map_eq_some_iff.mp result
    exact ⟨here, context, context', inBuffer, present, returns⟩
  · cases result

/-- The answer is written, the connection is shut down, and a request is read. -/
def laterRead : List SessionLabel :=
  List.flatten [[.run .silent, .run .silent, .run (.count (some 28)), .run .silent,
      .run .silent].map .system, [.go],
    [.run .silent, .run .silent, .run .silent].map .system, [.go],
    [.run .silent, .next, .next, .poll [some EPOLLIN], .next, .run .silent, .run .silent,
      .run .silent, .run (.bytes (some (getLine ++ Buffer.kCRLF)))].map .system,
    [.go, .go], [.run .silent].map .system, [.go], [.run .silent].map .system, [.go]]

/-- A bad line, and a good request in a later read. -/
theorem failStop_after_next_read :
    ∃ s₁ s' : Session, FailStop s₁ s' ∧ sent s'.system.conn.trace = badRequest ∧
      s'.inBuffer = ascii ['B', 'A', 'D', '\r', '\n'] ++ getLine ++ Buffer.kCRLF := by
  obtain ⟨s, reached, result, run⟩ :
      ∃ s, Reaches (step true) anyStep .start s ∧ s.nextResult = some false ∧
        (exec (step true) (.go :: .go :: laterRead) s).any (fun s' =>
          sent s'.system.conn.trace = badRequest ∧
          s'.inBuffer = ascii ['B', 'A', 'D', '\r', '\n'] ++ getLine ++ Buffer.kCRLF) = true :=
    exists_reaches_of_exec
      (List.flatten [[.run .silent, .run .silent, .run .silent].map .system, [.go],
        [.ret, .next, .poll [some EPOLLIN], .next, .run .silent, .run .silent, .run .silent,
          .run (.bytes (some (ascii ['B', 'A', 'D', '\r', '\n'])))].map .system])
      (by decide +kernel)
  obtain ⟨here, rejects⟩ := rejects_of_nextResult result
  obtain ⟨s', run, holds⟩ := (Option.any_eq_true _ _).mp run
  obtain ⟨s₁, taken, run⟩ := Option.bind_eq_some_iff.mp run
  exact ⟨s₁, s', failStop_of_rejects reached here rejects taken (reaches_of_exec _ run),
    of_decide_eq_true holds⟩

end Session

end Yvent.Http
