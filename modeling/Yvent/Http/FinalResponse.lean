import Yvent.Http.SessionStep

/-!
# After a final response

`onRequest` shuts the connection down behind a response with `closeConnection()`. From then on
`send` refuses, and what still goes out is that response. `onMessage` goes on parsing what later
reads bring, though: a request that they complete reaches `httpCallback_`, which may even replace the
file that is still to be sent.
-/

namespace Yvent.Http

open TcpConnection

/-- A final response has been issued. -/
def Happening.final : Happening → Bool
  | .issued close _ _ _ _ => close
  | .invoked _ => false

/-- The request that `httpCallback_` was invoked with. -/
def Happening.request? : Happening → Option HttpRequest
  | .invoked request => some request
  | .issued _ _ _ _ _ => none

namespace Session

variable {s s' : Session} {l : Label} {label : SessionLabel} {httpCallback : Bool} {pc : CallbackPc}
  {start : List Event} {pending text file : Bytes} {system : System}

/-- A response that closes the connection was issued. -/
def final (s : Session) : Bool := s.log.any Happening.final

/-- Behind a final response `httpCallback_` is not invoked, and the bytes put on the socket are
those of the response, or of its file alone where `send` has refused the text. -/
def NothingFollows (s : Session) : Prop :=
  ∀ before pending text file start after,
    s.log = before ++ .issued true pending text file start :: after →
    (∀ request, .invoked request ∉ after) ∧
      ∃ es, s.system.conn.trace = start ++ es ∧ (sent es <+: text ++ file ∨ sent es <+: file)

/-- Output comes from the loop thread, and files from `httpCallback_`: other threads do not send,
and other code of the loop attaches no file. -/
def InScope : SessionLabel → Prop
  | .system (.other _ (.send _)) | .system (.call (.setSendFd _ _ _)) => False
  | _ => True

/-- `parseRequest` completes a request. -/
def completes (s : Session) : Bool :=
  match s.context with
  | none => false
  | some context =>
    match Http.parseRequest context s.inBuffer with
    | none => false
    | some (_, context, _) => context.parseDone

/-- No request is completed after a final response, and no file of an earlier response is waiting
when a final one is issued. -/
def OrderlyAt (s : Session) : Option CallbackPc → Prop
  | some .parseRequest => s.final = true → s.completes = false
  | some (.send response attached) =>
    response.closeConnection = true → s.system.conn.stSize = 0 ∨ s.system.conn.file = attached
  | _ => True

/-- A final response is issued with `outBuffer_` empty. -/
def DrainedAt (s : Session) : Option CallbackPc → Prop
  | some (.send response _) => response.closeConnection = true → s.system.conn.outBuffer = []
  | _ => True

/-- The side condition under which `httpCallback_` is not invoked behind a final response. -/
def Orderly (s : Session) : SessionLabel → Prop
  | .go => s.OrderlyAt s.executing
  | _ => True

/-- The side condition under which nothing follows a final response. -/
def Clean (s : Session) : SessionLabel → Prop
  | .go => s.OrderlyAt s.executing ∧ s.DrainedAt s.executing
  | _ => True

instance : (label : SessionLabel) → Decidable (InScope label)
  | .system (.other _ (.send _)) | .system (.call (.setSendFd _ _ _)) => isFalse id
  | .system (.other _ .shutdown) | .system (.other _ .forceClose)
  | .system (.other _ (.setSendFd _ _ _)) | .system (.call (.send _)) | .system (.call .shutdown)
  | .system (.call .forceClose) | .system .ret | .system (.run _) | .system .next
  | .system (.poll _) | .system .addTask | .system (.resume _) | .go | .call _ | .answer _ =>
    isTrue trivial

instance (s : Session) : (pc : Option CallbackPc) → Decidable (s.OrderlyAt pc)
  | some .parseRequest => inferInstanceAs (Decidable (_ → _))
  | some (.send _ _) => inferInstanceAs (Decidable (_ → _ ∨ _))
  | none | some .onConnection | some .sendBadRequest | some .shutdownBadRequest | some .parseDone
  | some (.httpCallback _ _) | some (.closeConnection _) | some .reset => isTrue trivial

instance (s : Session) : (pc : Option CallbackPc) → Decidable (s.DrainedAt pc)
  | some (.send _ _) => inferInstanceAs (Decidable (_ → _))
  | none | some .parseRequest | some .onConnection | some .sendBadRequest
  | some .shutdownBadRequest | some .parseDone | some (.httpCallback _ _)
  | some (.closeConnection _) | some .reset => isTrue trivial

instance (s : Session) : (label : SessionLabel) → Decidable (s.Clean label)
  | .go => inferInstanceAs (Decidable (_ ∧ _))
  | .system _ | .call _ | .answer _ => isTrue trivial

theorem Clean.orderly (clean : s.Clean label) : s.Orderly label := by
  cases label with
  | go => exact clean.1
  | system | call | answer => trivial

/-! ## The connection behind a final response -/

/-- The frames of `send`, under which no user code runs. -/
@[simp] def sending : Frame → Bool
  | .sendInLoop _ _ | .sendReturn _ => true
  | _ => false

/-- The program points at which nothing of a request is left to be done. -/
def quiet (context : Option HttpContext) : CallbackPc → Prop
  | .onConnection | .parseRequest | .reset => True
  | .sendBadRequest | .shutdownBadRequest | .parseDone => ∀ c, context = some c → c.parseDone = false
  | .httpCallback _ _ | .send _ _ | .closeConnection _ => False

/-- The callback has nothing left to do for a request. -/
def Quiet (s : Session) : Prop := ∀ pc depth, s.callback = some (pc, depth) → quiet s.context pc

/-- What goes out since `start` stays within what was pending and the response. -/
def Drains (start : List Event) (pending text file : Bytes) (system : System) : Prop :=
  ∃ response, (response = text ++ file ∨ response = file) ∧
    Draining start (pending ++ response) system

/-- How far the connection is with its final response. -/
inductive Ending (start : List Event) (pending text file : Bytes) (s : Session) : Prop
  | issued {rest : List Frame} (stack : s.system.stack = .send text :: .user :: rest)
      (callback : s.callback = some (.closeConnection true, rest.length + 1))
      (unsent : ∃ es, s.system.conn.trace = start ++ es ∧ sent es = [])
      (outBuffer : s.system.conn.outBuffer = pending)
      (slot : pendingFile s.system.conn.stSize s.system.conn.file <+: file)
  | sending {above rest : List Frame} (stack : s.system.stack = above ++ .user :: rest)
      (frames : ∀ f ∈ above, sending f = true)
      (callback : s.callback = some (.closeConnection true, rest.length + 1))
      (drains : Drains start pending text file s.system)
  | closing {f : Frame} {rest : List Frame} (stack : s.system.stack = f :: rest)
      (frame : f = .shutdown ∨ f = .shutdownStore)
      (callback : s.callback = some (.reset, rest.length))
      (drains : Drains start pending text file s.system)
  | closed (unconnected : s.system.conn.state ≠ .kConnected) (callback : s.Quiet)
      (drains : Drains start pending text file s.system)

/-- The invariants of a connection to which only the loop thread sends. -/
structure Served (system : System) : Prop where
  output : Output system.conn system.stack system.waiting
  order : OrderInv system
  alone : ∀ caller, system.waiting caller = []
  below : ∀ f ∈ system.stack.tail, f.isSend = false

theorem served_start : Served .start where
  output := filesInv_start.output
  order := orderInv_start
  alone := filesInv_start.alone
  below := by simp [System.start]

theorem Served.step {s s' : System} (served : Served s)
    (refused : ∀ t data, l = .other t (.send data) → s.conn.state ≠ .kConnected)
    (taken : System.step serverCallbacks s l = some s') : Served s' where
  output := output_step served.output taken
  order := orderInv_step served.order taken
  alone := alone_step served.output served.alone refused taken
  below := System.below_step served.below taken

theorem Drains.step {s s' : System} (drains : Drains start pending text file s) (served : Served s)
    (refused : ∀ t data, l = .other t (.send data) → s.conn.state ≠ .kConnected)
    (dull : ∀ c, l = .call c → Dull s c) (taken : System.step serverCallbacks s l = some s') :
    Drains start pending text file s' := by
  obtain ⟨limit, response, draining⟩ := drains
  exact ⟨limit, response,
    draining.move served.output.settled served.alone refused dull taken⟩

/-- What `send` makes of the text. -/
theorem drains_of_send {rest : List Frame} {s : System} (served : Served s)
    (stack : s.stack = .send text :: .user :: rest)
    (unsent : ∃ es, s.conn.trace = start ++ es ∧ sent es = [])
    (outBuffer : s.conn.outBuffer = pending)
    (slot : pendingFile s.conn.stSize s.conn.file <+: file) :
    Drains start pending text file { s with
      conn := (sendStep s.conn text).2, stack := (sendStep s.conn text).1 ++ .user :: rest } := by
  obtain ⟨es, trace, unsent⟩ := unsent
  have begun : ∀ f ∈ rest, f.starting = false := by
    have tail := served.order.tail
    rw [stack] at tail
    exact (List.forall_mem_cons.mp tail).2
  have noSend : ∀ data, Frame.send data ∉ rest := by
    have tail := served.below
    rw [stack] at tail
    intro data mem
    cases (List.forall_mem_cons.mp tail).2 _ mem
  unfold sendStep
  split
  · next connected =>
    refine ⟨text ++ file, Or.inl rfl, ⟨es ++ [.accepted .loop text], ?_, ?_⟩, by simp, by simp,
      fun _ _ _ => ?_, by simp [noSend], by simpa using begun⟩
    · rw [emit_trace, trace, List.append_assoc]
    · rw [sent_append, unsent]
      simpa [due, outBuffer] using slot
    · rw [emit_state, connected]
      simp
  · refine ⟨file, Or.inr rfl, ⟨es, trace, ?_⟩, by simp, by simp, by simp, by simp [noSend],
      by simpa using begun⟩
    rw [unsent]
    simpa [due, outBuffer] using slot

/-! ## Its steps -/

/-- Outside a read and the end of `enableRead` no callback begins. -/
theorem follow_eq (notRead : top s.system.stack ≠ .handleRead)
    (notStart : top s.system.stack ≠ .enableRead .enable) :
    s.follow l system = { s with system } := by
  unfold follow
  split
  · exact absurd (by assumption) notStart
  · exact absurd (by assumption) notRead
  · rfl

theorem follow_system : (s.follow l system).system = system ∧ (s.follow l system).log = s.log := by
  unfold follow
  split <;> exact ⟨rfl, rfl⟩

/-- A callback that begins has nothing of a request to do yet. -/
theorem Quiet.follow (callback : s.Quiet) : (s.follow l system).Quiet := by
  unfold Session.follow
  split
  · intro pc depth same
    cases same
    trivial
  · intro pc depth same
    cases same
    trivial
  · exact callback

/-- Only `sendInLoop` and the end of `send` take the place of such a frame. -/
theorem sending_frameMove {c : TcpConnection} {f : Frame} {answer : Answer}
    {result : List Frame × TcpConnection} (moved : FrameMove serverCallbacks c f answer result)
    (here : sending f = true) : ∀ g ∈ result.1, sending g = true := by
  cases moved with
  | sendReturn => simp
  | sendInLoop data pc answer r =>
    cases pc with
    | check =>
      simp only [sendInLoopStep]
      repeat' split
      all_goals simp
    | write =>
      cases r with
      | none => simp [sendInLoopStep]
      | some n =>
        simp only [sendInLoopStep]
        repeat' split
        all_goals simp_all [serverCallbacks]
    | rest n =>
      simp only [sendInLoopStep]
      split <;> simp
  | _ => cases here

theorem quiet_of_callback {depth : Nat} (callback : s.callback = some (pc, depth))
    (still : quiet s.context pc) : s.Quiet := by
  intro pc' depth' same
  rw [callback] at same
  cases same
  exact still

theorem quiet_of_returned (returned : s.callback = none) : s.Quiet := by
  intro pc depth same
  rw [returned] at same
  cases same

theorem refused_of_inScope (scope : InScope (.system l)) (t : Tid) (data : Bytes)
    (same : l = .other t (.send data)) : s.system.conn.state ≠ .kConnected := by
  subst same
  exact absurd scope id

theorem dull_of_notUser (notUser : l.ofUser = false) (c : Call) (same : l = .call c) :
    Dull s.system c := by
  subst same
  cases notUser

/-- A step while the `send` of the response is about to begin. -/
theorem issued_step {rest : List Frame} (served : Served s.system)
    (taken : System.step serverCallbacks s.system l = some system)
    (stack : s.system.stack = .send text :: .user :: rest)
    (callback : s.callback = some (.closeConnection true, rest.length + 1))
    (unsent : ∃ es, s.system.conn.trace = start ++ es ∧ sent es = [])
    (outBuffer : s.system.conn.outBuffer = pending)
    (slot : pendingFile s.system.conn.stSize s.system.conn.file <+: file) :
    Ending start pending text file (s.follow l system) := by
  have notUser := System.ofUser_of_busy stack (by simp) taken
  rw [follow_eq (by simp [stack]) (by simp [stack])]
  rcases System.step_busy stack notUser taken with ⟨answer, result, moved, rfl⟩ | beside
  · cases moved
    refine .sending rfl ?_ callback (drains_of_send served stack unsent outBuffer slot)
    unfold sendStep
    split <;> simp
  · obtain ⟨more, trace, still⟩ := beside.trace
    obtain ⟨es, before, unsent⟩ := unsent
    refine .issued (beside.stack.trans stack) callback ⟨es ++ more, ?_, ?_⟩ ?_ ?_
    · show system.conn.trace = _
      rw [trace, before, List.append_assoc]
    · rw [sent_append, unsent, still]
      rfl
    · exact beside.outBuffer.trans outBuffer
    · show pendingFile system.conn.stSize system.conn.file <+: file
      rw [beside.stSize, beside.file]
      exact slot

/-- A step inside `send`, or while the callback is about to go on behind it. -/
theorem sending_step {above rest : List Frame} (served : Served s.system)
    (scope : InScope (.system l)) (free : s.executing.isSome = true → l.ofUser = false)
    (taken : System.step serverCallbacks s.system l = some system)
    (stack : s.system.stack = above ++ .user :: rest) (frames : ∀ f ∈ above, sending f = true)
    (callback : s.callback = some (.closeConnection true, rest.length + 1))
    (drains : Drains start pending text file s.system) :
    Ending start pending text file (s.follow l system) := by
  cases above with
  | nil =>
    -- The callback is executing, so no other user code is.
    have executing : s.executing = some (.closeConnection true) := by
      simp [executing, callback, stack]
    have notUser : l.ofUser = false := free (by rw [executing]; rfl)
    have drains := drains.step served (refused_of_inScope scope) (dull_of_notUser notUser) taken
    rw [follow_eq (by simp [stack]) (by simp [stack])]
    rcases System.step_busy stack notUser taken with ⟨_, _, moved, _⟩ | beside
    · cases moved
    · have stack : system.stack = [] ++ .user :: rest := beside.stack.trans stack
      exact .sending stack (by simp) callback drains
  | cons f above =>
    obtain ⟨here, frames⟩ := List.forall_mem_cons.mp frames
    have onTop : top s.system.stack = f := by rw [stack]; rfl
    have notUser : l.ofUser = false :=
      System.ofUser_of_busy stack (by rintro rfl; cases here) taken
    have drains := drains.step served (refused_of_inScope scope) (dull_of_notUser notUser) taken
    rw [follow_eq (by rw [onTop]; rintro rfl; cases here) (by rw [onTop]; rintro rfl; cases here)]
    rcases System.step_busy stack notUser taken with ⟨answer, result, moved, rfl⟩ | beside
    · have among := sending_frameMove moved here
      have stack : result.1 ++ (above ++ .user :: rest) = result.1 ++ above ++ .user :: rest :=
        (List.append_assoc _ _ _).symm
      refine .sending stack ?_ callback drains
      intro g mem
      rcases List.mem_append.mp mem with mem | mem
      · exact among g mem
      · exact frames g mem
    · have stack : system.stack = f :: above ++ .user :: rest := beside.stack.trans stack
      exact .sending stack (List.forall_mem_cons.mpr ⟨here, frames⟩) callback drains

/-- A step inside `shutdown`. -/
theorem closing_step {f : Frame} {rest : List Frame} (served : Served s.system)
    (scope : InScope (.system l)) (taken : System.step serverCallbacks s.system l = some system)
    (stack : s.system.stack = f :: rest) (frame : f = .shutdown ∨ f = .shutdownStore)
    (callback : s.callback = some (.reset, rest.length))
    (drains : Drains start pending text file s.system) :
    Ending start pending text file (s.follow l system) := by
  have onTop : top s.system.stack = f := by rw [stack]; rfl
  have notUser : l.ofUser = false :=
    System.ofUser_of_busy stack (by rcases frame with rfl | rfl <;> simp) taken
  have drains := drains.step served (refused_of_inScope scope) (dull_of_notUser notUser) taken
  rw [follow_eq (by rw [onTop]; rcases frame with rfl | rfl <;> simp)
    (by rw [onTop]; rcases frame with rfl | rfl <;> simp)]
  rcases System.step_busy stack notUser taken with ⟨answer, result, moved, rfl⟩ | beside
  · rcases frame with rfl | rfl
    · cases moved
      by_cases connected : s.system.conn.state = .kConnected
      · have stack : shutdownStep s.system.conn ++ rest = .shutdownStore :: rest := by
          rw [shutdownStep, if_pos connected]
          rfl
        exact .closing stack (Or.inr rfl) callback drains
      · exact .closed connected (quiet_of_callback callback trivial) drains
    · cases moved
      exact .closed (by simp [store]) (quiet_of_callback callback trivial) drains
  · exact .closing (beside.stack.trans stack) frame callback drains

/-- A connection that has been shut down stays so, and refuses whatever it is given. -/
theorem Drains.step_unconnected {s s' : System} (drains : Drains start pending text file s)
    (served : Served s) (unconnected : s.conn.state ≠ .kConnected)
    (noFile : ∀ fd file stSize, l ≠ .call (.setSendFd fd file stSize))
    (taken : System.step serverCallbacks s l = some s') :
    s'.conn.state ≠ .kConnected ∧ Drains start pending text file s' := by
  have begun : ∀ f ∈ s.stack, f.starting = false := by
    obtain ⟨_, _, draining⟩ := drains
    exact draining.begun
  have dull : ∀ c, l = .call c → Dull s c := by
    intro c same
    cases c with
    | send => exact unconnected
    | setSendFd fd file stSize => exact absurd same (noFile fd file stSize)
    | shutdown | forceClose => trivial
  exact ⟨System.unconnected_step begun unconnected taken,
    drains.step served (fun _ _ _ => unconnected) dull taken⟩

/-- A step of a connection that has been shut down. -/
theorem closed_step (served : Served s.system) (scope : InScope (.system l))
    (taken : System.step serverCallbacks s.system l = some system)
    (unconnected : s.system.conn.state ≠ .kConnected) (callback : s.Quiet)
    (drains : Drains start pending text file s.system) :
    Ending start pending text file (s.follow l system) := by
  have noFile : ∀ fd file stSize, l ≠ .call (.setSendFd fd file stSize) := by
    rintro fd file stSize rfl
    exact scope
  obtain ⟨unconnected, drains⟩ := drains.step_unconnected served unconnected noFile taken
  have same : (s.follow l system).system = system := follow_system.1
  exact .closed (by rw [same]; exact unconnected) callback.follow (by rw [same]; exact drains)

/-- The connection, its loop or another thread takes a step behind the final response. -/
theorem Ending.step_system (ending : Ending start pending text file s) (served : Served s.system)
    (scope : InScope (.system l)) (free : s.executing.isSome = true → l.ofUser = false)
    (taken : System.step serverCallbacks s.system l = some system) :
    Ending start pending text file (s.follow l system) := by
  cases ending with
  | issued stack callback unsent outBuffer slot =>
    exact issued_step served taken stack callback unsent outBuffer slot
  | sending stack frames callback drains =>
    exact sending_step served scope free taken stack frames callback drains
  | closing stack frame callback drains =>
    exact closing_step served scope taken stack frame callback drains
  | closed unconnected callback drains =>
    exact closed_step served scope taken unconnected callback drains

theorem goto_callback {depth : Nat} (callback : s.callback = some (pc, depth)) (pc' : CallbackPc) :
    (s.goto pc').callback = some (pc', depth) := by
  rw [goto, callback]
  rfl

/-- The callback takes a step on a connection that has been shut down. -/
theorem closed_callback {depth : Nat} (served : Served s.system)
    (clean : label = .go → pc = .parseRequest → s.completes = false)
    (moved : CallbackMove s pc label s') (callback : s.callback = some (pc, depth))
    (unconnected : s.system.conn.state ≠ .kConnected) (quiet : s.Quiet)
    (drains : Drains start pending text file s.system) :
    s'.log = s.log ∧ Ending start pending text file s' := by
  have still := quiet pc depth callback
  have returns : ∀ {system : System} {context : Option HttpContext},
      System.step serverCallbacks s.system .ret = some system →
      Ending start pending text file { s with system, context, callback := none } := by
    intro system context returned
    obtain ⟨unconnected, drains⟩ := drains.step_unconnected served unconnected (by simp) returned
    exact .closed unconnected (quiet_of_returned rfl) drains
  cases moved with
  | onConnection _ returned | wait _ _ returned | reset _ returned =>
    exact ⟨rfl, returns returned⟩
  | @parse context context' result inBuffer present parsed =>
    have unfinished : context'.parseDone = false := by
      have waits := clean rfl rfl
      simpa [completes, present, parsed] using waits
    refine ⟨rfl, .closed unconnected (quiet_of_callback (goto_callback callback _) ?_) drains⟩
    have none : ∀ c, some context' = some c → c.parseDone = false := by
      rintro c ⟨⟩
      exact unfinished
    cases result <;> exact none
  | badRequest called =>
    obtain ⟨unconnected', drains⟩ := drains.step_unconnected served unconnected (by simp) called
    exact ⟨rfl, .closed unconnected' (quiet_of_callback (goto_callback callback _) still) drains⟩
  | badShutdown called =>
    obtain ⟨unconnected', drains⟩ := drains.step_unconnected served unconnected (by simp) called
    exact ⟨rfl, .closed unconnected' (quiet_of_callback (goto_callback callback _) still) drains⟩
  | invoke _ present done | skip _ present done =>
    rw [still _ present] at done
    cases done
  | call | answer | issue | close | keepAlive => cases still

/-- The callback takes a step behind the final response. -/
theorem Ending.step_callback (ending : Ending start pending text file s) (served : Served s.system)
    (clean : label = .go → pc = .parseRequest → s.completes = false)
    (here : s.executing = some pc) (moved : CallbackMove s pc label s') :
    s'.log = s.log ∧ Ending start pending text file s' := by
  obtain ⟨depth, callback, length⟩ := exists_of_executing here
  cases ending with
  | issued stack callback' | closing stack _ callback' =>
    rw [callback] at callback'
    cases callback'
    simp [stack] at length
  | @sending above rest stack frames callback' drains =>
    rw [callback] at callback'
    cases callback'
    have alone : above = [] := by
      rw [stack, List.length_append, List.length_cons] at length
      exact List.eq_nil_of_length_eq_zero (by omega)
    subst alone
    cases moved with
    | @close system called =>
      have drains := drains.step served (by simp) (by rintro c ⟨⟩; trivial) called
      simp only [System.step, stack, List.nil_append, List.head?_cons, if_true,
        Option.some.injEq] at called
      have stack : system.stack = .shutdown :: .user :: rest := by
        rw [← called]
        simp [System.callStep, stack]
      exact ⟨rfl, .closing stack (Or.inl rfl) (goto_callback callback .reset) drains⟩
  | closed unconnected quiet drains =>
    exact closed_callback served clean moved callback unconnected quiet drains

/-! ## Runs -/

/-- The invariant of a session whose steps are clean: behind a final response nothing is logged. -/
structure SessionInv (s : Session) : Prop where
  served : Served s.system
  ended : ∀ before pending text file start after,
    s.log = before ++ .issued true pending text file start :: after →
    after = [] ∧ Ending start pending text file s

theorem sessionInv_start : SessionInv .start where
  served := served_start
  ended before pending text file start after same := by
    cases before <;> cases same

theorem CallbackMove.served (moved : CallbackMove s pc label s') (served : Served s.system) :
    Served s'.system := by
  cases moved with
  | onConnection _ taken | badRequest taken | badShutdown taken | wait _ _ taken | call taken
  | issue taken | close taken | reset _ taken => exact served.step (by simp) taken
  | parse | invoke | skip | answer | keepAlive => exact served

theorem Move.served (moved : Move s label s') (scope : InScope label) (served : Served s.system) :
    Served s'.system := by
  cases moved with
  | @system l system free taken =>
    rw [follow_system.1]
    refine served.step ?_ taken
    rintro t data rfl
    exact absurd scope id
  | callback here moved => exact moved.served served

/-- The final response is issued. -/
theorem ending_of_issue {response : HttpResponse} {attached : Bytes}
    (here : s.executing = some (.send response attached)) (close : response.closeConnection = true)
    (orderly : s.OrderlyAt (some (.send response attached)))
    (called : System.step serverCallbacks s.system (.call (.send (response.appendToBuffer []))) =
      some system) (log : List Happening) :
    Ending s.system.conn.trace s.system.conn.outBuffer (response.appendToBuffer []) attached
      { s.goto (.closeConnection true) with system, log } := by
  obtain ⟨depth, callback, length⟩ := exists_of_executing here
  have slot := orderly close
  cases System.move_of_step called with
  | @call rest _ stack =>
    have depthIs : rest.length + 1 = depth := by simpa [stack] using length
    have stack : (s.system.callStep (.send (response.appendToBuffer []))).stack =
        .send (response.appendToBuffer []) :: .user :: rest := by simp [System.callStep, stack]
    refine .issued stack ?_ ⟨[], ?_, rfl⟩ rfl ?_
    · rw [depthIs]
      exact goto_callback callback _
    · simp [System.callStep]
    · show pendingFile s.system.conn.stSize s.system.conn.file <+: attached
      unfold pendingFile
      split
      · exact List.nil_prefix
      · next waits =>
        have same := slot.resolve_left waits
        exact same ▸ List.prefix_refl _

theorem SessionInv.step (inv : SessionInv s) (scope : InScope label) (orderly : s.Orderly label)
    (taken : s.step httpCallback label = some s') : SessionInv s' := by
  have moved := move_of_step taken
  refine ⟨moved.served scope inv.served, fun before pending text file start after same => ?_⟩
  cases moved with
  | system free stepped =>
    rw [follow_system.2] at same
    obtain ⟨nothing, ending⟩ := inv.ended before pending text file start after same
    exact ⟨nothing, ending.step_system inv.served scope free stepped⟩
  | @callback pc label s' here moved =>
    have later : ∀ after, s.log = before ++ .issued true pending text file start :: after →
        s'.log = s.log ∧ after = [] ∧ Ending start pending text file s' := by
      intro after same
      obtain ⟨nothing, ending⟩ := inv.ended before pending text file start after same
      have final : s.final = true := by simp [Session.final, same, Happening.final]
      have waits : label = .go → pc = .parseRequest → s.completes = false := by
        rintro rfl rfl
        have orderly : s.OrderlyAt s.executing := orderly
        rw [here] at orderly
        exact orderly final
      obtain ⟨log, ending⟩ := ending.step_callback inv.served waits here moved
      exact ⟨log, nothing, ending⟩
    -- Whatever is logged now is logged behind no final response.
    have grows : ∀ happening, s'.log = s.log ++ [happening] →
        after = [] ∧ happening = .issued true pending text file start := by
      intro happening log
      rw [log] at same
      rcases split_concat same with ⟨rfl, eq, -⟩ | ⟨after', -, earlier⟩
      · exact ⟨rfl, eq⟩
      · have unchanged := (later after' earlier).1
        rw [log] at unchanged
        simp at unchanged
    cases moved with
    | invoke response present done =>
      have last := (grows _ rfl).2
      cases last
    | @issue response attached system called =>
      obtain ⟨nothing, last⟩ := grows _ rfl
      obtain ⟨close, rfl, rfl, rfl, rfl⟩ := Happening.issued.inj last
      have orderly : s.OrderlyAt s.executing := orderly
      rw [here] at orderly
      refine ⟨nothing, ?_⟩
      rw [close]
      exact ending_of_issue here close orderly called _
    | _ => exact (later after same).2

/-- In an orderly run, what goes out behind a final response is what was pending in front of it and
the response itself. -/
theorem output_of_orderly
    (reached : Reaches (step httpCallback) (fun s label => InScope label ∧ s.Orderly label) .start s)
    {before after : List Happening}
    (log : s.log = before ++ .issued true pending text file start :: after) :
    after = [] ∧ ∃ es, s.system.conn.trace = start ++ es ∧
      (sent es <+: pending ++ (text ++ file) ∨ sent es <+: pending ++ file) := by
  have inv : SessionInv s := reached.invariant sessionInv_start fun _ _ _ _ inv good taken =>
    inv.step good.1 good.2 taken
  obtain ⟨nothing, ending⟩ := inv.ended before pending text file start after log
  refine ⟨nothing, ?_⟩
  have drained : Drains start pending text file s.system → ∃ es,
      s.system.conn.trace = start ++ es ∧
        (sent es <+: pending ++ (text ++ file) ∨ sent es <+: pending ++ file) := by
    rintro ⟨response, known, draining⟩
    obtain ⟨es, trace, within⟩ := draining.bytes
    have bytes : sent es <+: pending ++ response := (List.prefix_append _ _).trans within
    rcases known with rfl | rfl
    · exact ⟨es, trace, Or.inl bytes⟩
    · exact ⟨es, trace, Or.inr bytes⟩
  cases ending with
  | issued _ _ unsent =>
    obtain ⟨es, trace, unsent⟩ := unsent
    exact ⟨es, trace, Or.inl (unsent ▸ List.nil_prefix)⟩
  | sending _ _ _ drains | closing _ _ _ drains | closed _ _ drains => exact drained drains

/-- Every final response was issued with nothing in front of it. -/
def Undelayed (s : Session) : Prop :=
  ∀ pending text file start, .issued true pending text file start ∈ s.log → pending = []

theorem undelayed_step (inv : s.Undelayed) (clean : s.Clean label)
    (taken : s.step httpCallback label = some s') : s'.Undelayed := by
  intro pending text file start mem
  cases move_of_step taken with
  | system => exact inv pending text file start (follow_system.2 ▸ mem)
  | callback here moved =>
    cases moved with
    | invoke =>
      rcases List.mem_append.mp mem with mem | mem
      · exact inv pending text file start mem
      · cases List.mem_singleton.mp mem
    | @issue response attached system called =>
      rcases List.mem_append.mp mem with mem | mem
      · exact inv pending text file start mem
      · obtain ⟨close, rfl, -⟩ := Happening.issued.inj (List.mem_singleton.mp mem)
        have drained : s.DrainedAt s.executing := clean.2
        rw [here] at drained
        exact drained close.symm
    | _ => exact inv pending text file start mem

/-- In a run of clean steps nothing follows a final response. -/
theorem nothingFollows_of_clean
    (reached : Reaches (step httpCallback) (fun s label => InScope label ∧ s.Clean label) .start s) :
    s.NothingFollows := by
  have undelayed : s.Undelayed := reached.invariant (by simp [Undelayed, Session.start])
    fun _ _ _ _ inv good taken => undelayed_step inv good.2 taken
  have orderly : Reaches (step httpCallback) (fun s label => InScope label ∧ s.Orderly label)
      .start s := reached.mono fun _ _ good => ⟨good.1, good.2.orderly⟩
  intro before pending text file start after log
  obtain ⟨rfl, es, trace, bytes⟩ := output_of_orderly orderly log
  obtain rfl : pending = [] := undelayed pending text file start (by simp [log])
  exact ⟨fun request => List.not_mem_nil, es, trace, bytes⟩

/-- A response with a file: the text is written at once, half a request is read behind it, and the
file goes out. -/
theorem nothingFollows_after_file :
    ∃ s : Session, s.final = true ∧ s.NothingFollows ∧ sent s.system.conn.trace =
      HttpResponse.appendToBuffer { closeConnection := true } [] ++ [1, 2] := by
  obtain ⟨s, reached, final, bytes⟩ :
      ∃ s, Reaches (step true) (fun s label => InScope label ∧ s.Clean label) .start s ∧
        s.final = true ∧ sent s.system.conn.trace =
          HttpResponse.appendToBuffer { closeConnection := true } [] ++ [1, 2] :=
    exists_reaches_of_exec
      (List.flatten [[.run .silent, .run .silent, .run .silent].map .system, [.go],
        [.ret, .next, .poll [some EPOLLIN], .next, .run .silent, .run .silent, .run .silent,
          .run (.bytes (some (ascii ['G', 'E', 'T', ' ', '/', ' ', 'H', 'T', 'T', 'P', '/', '1',
            '.', '0', '\r', '\n', '\r', '\n'])))].map .system,
        [.go, .go, .call (.setSendFd 5 [1, 2] 2), .answer id, .go],
        [.run .silent, .run .silent, .run (.count (some 34)), .run .silent,
          .run .silent].map .system, [.go],
        [.run .silent, .run .silent, .run .silent].map .system, [.go],
        [.run .silent, .next, .next, .poll [some (EPOLLIN ||| EPOLLOUT)], .next, .run .silent,
          .run .silent, .run .silent, .run (.bytes (some (ascii ['G', 'E'])))].map .system,
        [.go, .go],
        [.run .silent, .run .silent, .run (.count (some 2))].map .system])
      (by decide +kernel)
  exact ⟨s, final, nothingFollows_of_clean reached, bytes⟩

/-- A second request arrives while the file of the final response is waiting. It reaches
`httpCallback_`, whose `setSendFd` takes the place of that file. -/
theorem request_after_final_response :
    ∃ s : Session, Reaches (step true) (fun _ label => InScope label) .start s ∧
      .setSendFd 5 [1, 2] ∈ s.system.conn.trace ∧ sent s.system.conn.trace =
        HttpResponse.appendToBuffer { closeConnection := true } [] ++ [7, 8] ∧
      ¬s.NothingFollows := by
  obtain ⟨s, reached, log, attached, bytes⟩ :
      ∃ s, Reaches (step true) (fun _ label => InScope label) .start s ∧
        (s.log.map fun happening => (happening.final, happening.request?.isSome)) =
          [(false, true), (true, false), (false, true), (true, false)] ∧
        .setSendFd 5 [1, 2] ∈ s.system.conn.trace ∧ sent s.system.conn.trace =
          HttpResponse.appendToBuffer { closeConnection := true } [] ++ [7, 8] :=
    exists_reaches_of_exec
      (List.flatten [[.run .silent, .run .silent, .run .silent].map .system, [.go],
        [.ret, .next, .poll [some EPOLLIN], .next, .run .silent, .run .silent, .run .silent,
          .run (.bytes (some (ascii ['G', 'E', 'T', ' ', '/', ' ', 'H', 'T', 'T', 'P', '/', '1',
            '.', '0', '\r', '\n', '\r', '\n'])))].map .system,
        [.go, .go, .call (.setSendFd 5 [1, 2] 2), .answer id, .go],
        [.run .silent, .run .silent, .run (.count (some 34)), .run .silent,
          .run .silent].map .system, [.go],
        [.run .silent, .run .silent, .run .silent].map .system, [.go],
        [.run .silent, .next, .next, .poll [some EPOLLIN], .next, .run .silent, .run .silent,
          .run .silent, .run (.bytes (some (ascii ['G', 'E', 'T', ' ', '/', ' ', 'H', 'T', 'T',
            'P', '/', '1', '.', '0', '\r', '\n', '\r', '\n'])))].map .system,
        [.go, .go, .call (.setSendFd 6 [7, 8] 2), .answer id, .go],
        [.run .silent].map .system, [.go], [.run .silent].map .system, [.go],
        [.run .silent, .next, .next, .poll [some EPOLLOUT], .next, .run .silent, .run .silent,
          .run .silent, .run .silent, .run .silent, .run (.count (some 2))].map .system])
      (by decide +kernel)
  refine ⟨s, reached, attached, bytes, fun nothing => ?_⟩
  obtain ⟨first, rest, same, -, log⟩ := List.map_eq_cons_iff.mp log
  obtain ⟨final, rest, rfl, isFinal, log⟩ := List.map_eq_cons_iff.mp log
  obtain ⟨second, rest, rfl, isRequest, -⟩ := List.map_eq_cons_iff.mp log
  cases final with
  | invoked => cases isFinal
  | issued close pending text file start =>
    obtain rfl : close = true := (Prod.mk.inj isFinal).1
    have nothing := (nothing [first] pending text file start (second :: rest) same).1
    cases second with
    | invoked request => exact nothing request List.mem_cons_self
    | issued => cases (Prod.mk.inj isRequest).2

end Session

end Yvent.Http
