import Yvent.Connection.SendFile
import Yvent.Http.Dispatch
import Yvent.Http.ResponseStream

/-!
# Requests and responses

A client sends requests on a connection that is kept alive and reads the responses off what comes
back. `onMessage` dispatches the requests in their order, `onRequest` issues one response for each,
and the connection writes the responses in the order in which they were issued, each with its file
behind it. So the client's `n`-th response is the answer to its `n`-th request.
-/

namespace Yvent.Http

open TcpConnection

/-- The application behind `httpCallback_`: how it fills the response to a request, and the file that
it attaches, which is empty for none. -/
structure Handler where
  fill : HttpRequest → HttpResponse → HttpResponse
  file : HttpRequest → Bytes

/-- The response to a request. -/
def Handler.response (h : Handler) (req : HttpRequest) : HttpResponse :=
  h.fill req { closeConnection := req.close }

/-- What the response puts on the socket. -/
def Handler.answer (h : Handler) (req : HttpRequest) : Response where
  head := (h.response req).appendToBuffer []
  file := h.file req

/-- What a client is to get for a request. -/
def Handler.received (h : Handler) (req : HttpRequest) : ParsedResponse :=
  (h.response req).received (h.file req)

/-- The response that was issued. -/
def Happening.response? : Happening → Option Response
  | .issued _ _ text attached _ => some ⟨text, attached⟩
  | .invoked _ => none

/-- Every request in the log has its answer behind it. -/
def Paired (h : Handler) (log : List Happening) : Prop :=
  log.filterMap Happening.response? = (log.filterMap Happening.request?).map h.answer

/-- The file of the response that `onRequest` has not issued yet. -/
def CallbackPc.attached : CallbackPc → Option Bytes
  | .httpCallback _ attached | .send _ attached => some attached
  | _ => none

variable {h : Handler} {s s' : Session} {system : System} {l : Label} {label : SessionLabel}
  {pc : CallbackPc} {depth : Nat} {earlier : List Happening} {req : HttpRequest}
  {rs : List Request}

/-- The response that `httpCallback_` fills, and the file that it has attached. -/
def CallbackPc.filling : CallbackPc → Option (HttpResponse × Bytes)
  | .httpCallback response attached => some (response, attached)
  | _ => none

namespace Session

/-- The responses that were issued. -/
def responses (s : Session) : List Response := s.log.filterMap Happening.response?

/-- The file of the response that the callback has not issued yet. -/
def attaching (s : Session) : Option Bytes := s.callback.bind fun (pc, _) => pc.attached

/-- What the connection is asked to do in a step of the callback. -/
def asks (s : Session) : CallbackPc → SessionLabel → Option Label
  | .onConnection, .go | .reset, .go => some .ret
  | .sendBadRequest, .go => some (.call (.send badRequest))
  | .shutdownBadRequest, .go => some (.call .shutdown)
  | .parseDone, .go => if s.context.any HttpContext.parseDone then none else some .ret
  | .httpCallback _ _, .call c => some (.call c)
  | .send response _, .go => some (.call (.send (response.appendToBuffer [])))
  | .closeConnection close, .go => if close then some (.call .shutdown) else none
  | _, _ => none

/-- The step of the connection in a step of the session. -/
def connectionLabel (s : Session) : SessionLabel → Option Label
  | .system l => some l
  | label => s.executing.bind fun pc => s.asks pc label

/-- The side condition on the connection: the callbacks, other code of the loop and the other threads
call it in turn. -/
def CallsInTurn (s : Session) (label : SessionLabel) : Prop :=
  ∀ l ∈ s.connectionLabel label, InTurn s.system l

/-- The side condition on the application: what is sent is sent by `onRequest`, and `httpCallback_`
fills the response and attaches the file as `h` says. -/
def Answers (h : Handler) (s : Session) : SessionLabel → Prop
  | .system (.call (.send _)) | .system (.call (.setSendFd _ _ _)) | .call (.send _) => False
  | .answer fill =>
    ∀ filling ∈ s.executing.bind CallbackPc.filling,
      ∀ req ∈ s.log.getLast?.bind Happening.request?,
        ⟨(fill filling.1).appendToBuffer [], filling.2⟩ = h.answer req
  | _ => True

/-- The connection is called in turn, and requests are answered as `h` says. -/
def Exchanges (h : Handler) (s : Session) (label : SessionLabel) : Prop :=
  s.CallsInTurn label ∧ Answers h s label

instance (s : Session) (label : SessionLabel) : Decidable (s.CallsInTurn label) :=
  inferInstanceAs (Decidable (∀ l ∈ s.connectionLabel label, InTurn s.system l))

instance (h : Handler) (s : Session) : (label : SessionLabel) → Decidable (Answers h s label)
  | .system (.call (.send _)) | .system (.call (.setSendFd _ _ _)) | .call (.send _) => isFalse id
  | .answer fill => inferInstanceAs (Decidable (∀ filling ∈ s.executing.bind CallbackPc.filling,
      ∀ req ∈ s.log.getLast?.bind Happening.request?,
        (⟨(fill filling.1).appendToBuffer [], filling.2⟩ : Response) = h.answer req))
  | .system (.call .shutdown) | .system (.call .forceClose) | .system .ret | .system (.run _)
  | .system .next | .system (.poll _) | .system .addTask | .system (.other _ _)
  | .system (.resume _) | .go | .call .shutdown | .call .forceClose | .call (.setSendFd _ _ _) =>
    isTrue trivial

instance (h : Handler) (s : Session) (label : SessionLabel) : Decidable (Exchanges h s label) :=
  inferInstanceAs (Decidable (_ ∧ _))

end Session

/-! ## Responses on the connection -/

/-- The calls that neither send nor attach. -/
def dull : Call → Bool
  | .shutdown | .forceClose => true
  | .send _ | .setSendFd _ _ _ => false

theorem issued_concat {trace : List Event} {e : Event} (still : responds e = false) :
    issued (trace ++ [e]) = issued trace :=
  issued_append (List.forall_mem_singleton.mpr still)

/-- Where `send` is not executed, no response is issued. -/
theorem issued_step {s s' : System}
    (notSend : (top s.stack).isSend = false ∨ ∀ answer, l ≠ .run answer)
    (inTurn : Responses s l) (quiet : ∀ c, l = .call c → dull c = true)
    (taken : System.step serverCallbacks s l = some s') :
    issued s'.conn.trace = issued s.conn.trace := by
  cases System.move_of_step taken with
  | run answer here moved =>
    obtain ⟨es, trace, cause⟩ := moved.caused.events
    replace notSend := notSend.resolve_right fun other => other answer rfl
    rw [here, top_cons] at notSend
    rw [trace]
    refine issued_append fun e mem => ?_
    have caused := cause e mem
    cases e with
    | accepted caller data =>
      rw [caused.1] at notSend
      cases notSend
    | setSendFd => cases caused
    | _ => rfl
  | call c =>
    have still := quiet c rfl
    cases c with
    | send | setSendFd => cases still
    | shutdown => exact issued_concat rfl
    | forceClose => rfl
  | acceptSend => exact absurd inTurn id
  | checkShutdown | refuseShutdown | pushSend | storeDisconnecting => exact issued_concat rfl
  | ret | swapTasks | dispatchSelf | dispatchOther | endTasks | startTask | poll | addTask
  | refuse | checkForceClose | pushShutdown | pushForceClose => rfl

/-- Only user code enters `send`. -/
theorem noSend_step {s s' : System} (noSend : ∀ f ∈ s.stack, f.isSend = false)
    (quiet : ∀ c, l = .call c → dull c = true)
    (taken : System.step serverCallbacks s l = some s') : ∀ f ∈ s'.stack, f.isSend = false := by
  cases System.turn_of_step taken with
  | run answer here moved =>
    rw [here] at noSend
    rw [List.forall_mem_append]
    exact ⟨moved.noSend, (List.forall_mem_cons.mp noSend).2⟩
  | call c =>
    have still := quiet c rfl
    cases c with
    | send | setSendFd => cases still
    | shutdown | forceClose => exact List.forall_mem_cons.mpr ⟨rfl, noSend⟩
  | ret here =>
    rw [here] at noSend
    exact (List.forall_mem_cons.mp noSend).2
  | outside _ out =>
    cases out with
    | begin f _ first stack =>
      rw [stack, List.forall_mem_singleton]
      cases f with
      | send => cases first
      | _ => rfl
    | event _ _ stack | store stack | silent stack =>
      rw [stack]
      exact noSend

/-- The connection beside the responses that `onRequest` has issued and the file that is attached for
the next one. The last response may still stand in front of `send`, and a connection that is not
connected takes no more. -/
inductive Handed (system : System) (responses : List Response) (attaching : Option Bytes) : Prop
  | settled (noSend : ∀ f ∈ system.stack, f.isSend = false)
      (issued : issued system.conn.trace = ⟨responses, attaching.getD []⟩)
  | entering {before : List Response} {r : Response} {rest : List Frame}
      (stack : system.stack = .send r.head :: rest) (below : ∀ f ∈ rest, f.isSend = false)
      (attaching : attaching = none) (responses : responses = before ++ [r])
      (issued : issued system.conn.trace = ⟨before, r.file⟩)
  | refused (begun : ∀ f ∈ system.stack, f.starting = false)
      (unconnected : system.conn.state ≠ .kConnected)
      (part : (issued system.conn.trace).responses <+: responses)

variable {responses : List Response} {attaching : Option Bytes} {system' : System}

/-- The step that a `send` on the stack takes: it accepts the response, or the connection refuses
it. -/
theorem run_send {data : Bytes} {rest : List Frame} {answer : Answer}
    (stack : system.stack = .send data :: rest)
    (taken : System.step serverCallbacks system (.run answer) = some system') :
    system.conn.state = .kConnected ∧
      system'.stack = .sendInLoop data (.check .loop) :: .sendReturn data :: rest ∧
      system'.conn = system.conn.emit (.accepted .loop data) ∨
    system.conn.state ≠ .kConnected ∧ system'.stack = rest ∧ system'.conn = system.conn := by
  obtain ⟨f, below, frames, conn, here, ran, rfl⟩ := System.run_of_step taken
  rw [stack] at here
  cases here
  obtain ⟨-, eq⟩ := Answer.silently_eq_some ran
  unfold sendStep at eq
  split at eq
  · next connected =>
    cases eq
    exact Or.inl ⟨connected, rfl, rfl⟩
  · next unconnected =>
    cases eq
    exact Or.inr ⟨unconnected, rfl, rfl⟩

/-- What a connection that is not connected has taken is all that it takes. -/
theorem responses_refused (unconnected : system.conn.state ≠ .kConnected)
    (inTurn : Responses system l) (quiet : ∀ c, l = .call c → dull c = true)
    (taken : System.step serverCallbacks system l = some system') :
    issued system'.conn.trace = issued system.conn.trace := by
  by_cases executes : (top system.stack).isSend = false ∨ ∀ answer, l ≠ .run answer
  · exact issued_step executes inTurn quiet taken
  · obtain ⟨isSend, running⟩ := not_or.mp executes
    obtain ⟨answer, same⟩ := not_forall.mp running
    cases not_not.mp same
    cases stack : system.stack with
    | nil => simp [stack] at isSend
    | cons f rest =>
      rw [stack, top_cons] at isSend
      cases f with
      | send data =>
        rcases run_send stack taken with ⟨connected, -⟩ | ⟨-, -, same⟩
        · exact absurd connected unconnected
        · rw [same]
      | _ => simp at isSend

theorem Handed.step (handed : Handed system responses attaching)
    (begun : ∀ data, top system.stack = .send data → ∀ f ∈ system.stack, f.starting = false)
    (inTurn : Responses system l) (quiet : ∀ c, l = .call c → dull c = true)
    (taken : System.step serverCallbacks system l = some system') :
    Handed system' responses attaching := by
  cases handed with
  | settled noSend issued =>
    have notSend : (top system.stack).isSend = false := by
      cases stack : system.stack with
      | nil => rfl
      | cons f rest => exact noSend f (stack ▸ List.mem_cons_self)
    exact .settled (noSend_step noSend quiet taken)
      ((issued_step (Or.inl notSend) inTurn quiet taken).trans issued)
  | @entering before r rest stack below none log issued =>
    have begun := begun r.head (by rw [stack]; rfl)
    by_cases running : ∃ answer, l = .run answer
    · obtain ⟨answer, rfl⟩ := running
      rcases run_send stack taken with ⟨-, next, conn⟩ | ⟨unconnected, next, conn⟩
      · refine .settled ?_ ?_
        · rw [next]
          exact List.forall_mem_cons.mpr ⟨rfl, List.forall_mem_cons.mpr ⟨rfl, below⟩⟩
        · rw [conn, emit_trace, issued_accepted, attached, issued, none, log]
          rfl
      · rw [stack] at begun
        refine .refused ?_ ?_ ?_
        · rw [next]
          exact (List.forall_mem_cons.mp begun).2
        · rw [conn]
          exact unconnected
        · rw [conn, issued, log]
          exact List.prefix_append _ _
    · have beside : ∀ answer, l ≠ .run answer := fun answer same => running ⟨answer, same⟩
      refine .entering (r := r) ?_ below none log
        ((issued_step (Or.inr beside) inTurn quiet taken).trans issued)
      have notUser := System.ofUser_of_busy stack (by simp) taken
      cases System.turn_of_step taken with
      | run answer => exact absurd rfl (beside answer)
      | call | ret => cases notUser
      | outside _ out =>
        cases out with
        | begin _ idle =>
          rw [stack] at idle
          cases idle
        | event _ _ same | store same | silent same => exact same.trans stack
  | refused begun unconnected part =>
    refine .refused (System.begun_step begun taken)
      (System.unconnected_step begun unconnected taken) ?_
    rw [responses_refused unconnected inTurn quiet taken]
    exact part

/-- `httpCallback_` attaches a file. -/
theorem Handed.attach {rest : List Frame} {fd stSize : Int} {file : Bytes}
    (handed : Handed system responses attaching) (stack : system.stack = .user :: rest) :
    Handed (system.callStep (.setSendFd fd file stSize)) responses (some file) := by
  have trace : issued (system.callStep (.setSendFd fd file stSize)).conn.trace =
      { issued system.conn.trace with attached := file } := issued_setSendFd fd file
  cases handed with
  | settled noSend issued =>
    refine .settled noSend ?_
    rw [trace, issued]
    rfl
  | entering other =>
    rw [stack] at other
    cases other
  | refused begun unconnected part =>
    refine .refused begun unconnected ?_
    rw [trace]
    exact part

/-- `onRequest` issues a response. -/
theorem Handed.issue {rest : List Frame} {text file : Bytes}
    (handed : Handed system responses (some file)) (stack : system.stack = .user :: rest) :
    Handed (system.callStep (.send text)) (responses ++ [⟨text, file⟩]) none := by
  cases handed with
  | settled noSend issued => exact .entering (r := ⟨text, file⟩) rfl noSend rfl rfl issued
  | entering other =>
    rw [stack] at other
    cases other
  | refused begun unconnected part =>
    exact .refused (List.forall_mem_cons.mpr ⟨rfl, begun⟩) unconnected
      (part.trans (List.prefix_append _ _))

/-- A response is begun or done. -/
theorem Handed.reattach {rest : List Frame} {attaching' : Option Bytes}
    (handed : Handed system responses attaching) (stack : system.stack = .user :: rest)
    (same : attaching'.getD [] = attaching.getD []) : Handed system responses attaching' := by
  cases handed with
  | settled noSend issued => exact .settled noSend (by rw [issued, same])
  | entering other =>
    rw [stack] at other
    cases other
  | refused begun unconnected part => exact .refused begun unconnected part

/-! ## Answers in the log -/

theorem Paired.concat (paired : Paired h earlier) {close : Bool} {pending text file : Bytes}
    {trace : List Event} (answer : ⟨text, file⟩ = h.answer req) :
    Paired h (earlier ++ [.invoked req] ++ [.issued close pending text file trace]) := by
  have same : earlier.filterMap Happening.response? =
      (earlier.filterMap Happening.request?).map h.answer := paired
  simp [Paired, List.filterMap_append, List.filterMap_cons, Happening.response?,
    Happening.request?, same, answer]

namespace Session

theorem responses_concat {happening : Happening} (log : s'.log = s.log ++ [happening]) :
    s'.responses = s.responses ++ happening.response?.toList := by
  rw [Session.responses, Session.responses, log, List.filterMap_append]
  cases happening <;> rfl

/-- Every request that was dispatched has its answer, but for the one that is being answered. -/
inductive Answered (h : Handler) (s : Session) : Prop
  | paired (idle : s.attaching = none) (log : Paired h s.log)
  | filling {response : HttpResponse} {file : Bytes} {depth : Nat} {earlier : List Happening}
      {req : HttpRequest} (callback : s.callback = some (.httpCallback response file, depth))
      (log : s.log = earlier ++ [.invoked req]) (paired : Paired h earlier)
  | filled {response : HttpResponse} {file : Bytes} {depth : Nat} {earlier : List Happening}
      {req : HttpRequest} (callback : s.callback = some (.send response file, depth))
      (log : s.log = earlier ++ [.invoked req]) (paired : Paired h earlier)
      (answer : ⟨response.appendToBuffer [], file⟩ = h.answer req)

theorem Answered.of_idle (answered : Answered h s) (idle : s.attaching = none) :
    Paired h s.log := by
  cases answered with
  | paired _ log => exact log
  | filling callback | filled callback =>
    rw [attaching, callback] at idle
    cases idle

theorem Answered.of_httpCallback {response : HttpResponse} {file : Bytes}
    (answered : Answered h s) (callback : s.callback = some (.httpCallback response file, depth)) :
    ∃ earlier req, s.log = earlier ++ [.invoked req] ∧ Paired h earlier := by
  cases answered with
  | paired idle =>
    rw [attaching, callback] at idle
    cases idle
  | filling _ log paired => exact ⟨_, _, log, paired⟩
  | filled other =>
    rw [callback] at other
    cases other

theorem Answered.of_send {response : HttpResponse} {file : Bytes} (answered : Answered h s)
    (callback : s.callback = some (.send response file, depth)) :
    ∃ earlier req, s.log = earlier ++ [.invoked req] ∧ Paired h earlier ∧
      ⟨response.appendToBuffer [], file⟩ = h.answer req := by
  cases answered with
  | paired idle =>
    rw [attaching, callback] at idle
    cases idle
  | filling other =>
    rw [callback] at other
    cases other
  | filled other log paired answer =>
    rw [callback] at other
    cases other
    exact ⟨_, _, log, paired, answer⟩

/-! ## Steps of the session -/

/-- A step of the connection leaves the callback alone, or there is no response to be issued. -/
theorem Follows.callback_kept (follows : s.Follows)
    (free : s.executing.isSome = true → l.ofUser = false)
    (taken : System.step serverCallbacks s.system l = some system) :
    (s.follow l system).callback = s.callback ∨
      s.attaching = none ∧ (s.follow l system).attaching = none := by
  have begins : (s.follow l system).callback = s.callback ∨
      (s.follow l system).attaching = none := by
    unfold follow
    split
    · exact Or.inr rfl
    · exact Or.inr rfl
    · exact Or.inl rfl
  have idle : s.attaching = none → (s.follow l system).callback = s.callback ∨
      s.attaching = none ∧ (s.follow l system).attaching = none :=
    fun none => begins.imp_right fun follow => ⟨none, follow⟩
  cases follows with
  | starting _ callback | between _ callback => exact idle (by rw [attaching, callback]; rfl)
  | connecting _ callback => exact idle (by rw [attaching, callback]; rfl)
  | lost ended unconnected context log callback =>
    refine idle ?_
    cases here : s.callback with
    | none => rw [attaching, here]; rfl
    | some running =>
      obtain ⟨pc, depth⟩ := running
      cases callback pc depth here
      rw [attaching, here]
      rfl
  | within ended callback covered =>
    have same := (covered.beside callback free taken).2.1
    exact Or.inl (by rw [same])

theorem Follows.begun (follows : s.Follows) {data : Bytes} (onTop : top s.system.stack = .send data) :
    ∀ f ∈ s.system.stack, f.starting = false := by
  cases follows with
  | starting stack =>
    rw [stack] at onTop
    cases onTop
  | connecting ended | lost ended | between ended | within ended => exact begun_of_ended ended

/-- The callback is executed in its own frame. -/
theorem Follows.user (follows : s.Follows) (here : s.executing = some pc)
    (moved : CallbackMove s pc label s') : ∃ rest, s.system.stack = .user :: rest := by
  obtain ⟨depth, callback, length⟩ := exists_of_executing here
  have covers : ∀ {pc' depth'}, s.callback = some (pc', depth') →
      Covered s.system.stack depth' → ∃ rest, s.system.stack = .user :: rest := by
    intro pc' depth' same covered
    rw [callback] at same
    cases same
    obtain ⟨rest, stack, -⟩ := covered.executing length
    exact ⟨rest, stack⟩
  cases follows with
  | starting _ none | between _ none =>
    rw [none] at callback
    cases callback
  | connecting _ callback covered | within _ callback covered => exact covers callback covered
  | lost ended unconnected context log only =>
    cases only _ _ callback
    cases moved with
    | parse here =>
      rw [context] at here
      cases here

theorem dull_of_answers (answers : Answers h s (.system l)) (c : Call) (same : l = .call c) :
    dull c = true := by
  subst same
  cases c with
  | send | setSendFd => exact absurd answers id
  | shutdown | forceClose => rfl

/-- The invariant of an exchange: nothing gets lost on the way from the log to the connection. -/
structure Exchange (h : Handler) (s : Session) : Prop where
  follows : s.Follows
  handed : Handed s.system s.responses s.attaching
  answered : Answered h s

theorem Exchange.step_system (exchange : Exchange h s)
    (free : s.executing.isSome = true → l.ofUser = false)
    (exchanges : Exchanges h s (.system l))
    (taken : System.step serverCallbacks s.system l = some system) :
    Exchange h (s.follow l system) := by
  obtain ⟨follows, handed, answered⟩ := exchange
  have responses : (s.follow l system).responses = s.responses :=
    congrArg (List.filterMap Happening.response?) follow_system.2
  have kept := follows.callback_kept free taken
  have attaching : (s.follow l system).attaching = s.attaching := by
    rcases kept with same | ⟨none, none'⟩
    · rw [Session.attaching, same, Session.attaching]
    · rw [none, none']
  refine ⟨follows.step_system free taken, ?_, ?_⟩
  · rw [follow_system.1, responses, attaching]
    exact handed.step (fun data => follows.begun) (exchanges.1 l rfl).1
      (dull_of_answers exchanges.2) taken
  · have log : (s.follow l system).log = s.log := follow_system.2
    rcases kept with same | ⟨none, none'⟩
    · cases answered with
      | paired idle paired => exact .paired (attaching.trans idle) (log ▸ paired)
      | filling callback here paired =>
        exact .filling (same.trans callback) (log.trans here) paired
      | filled callback here paired answer =>
        exact .filled (same.trans callback) (log.trans here) paired answer
    · exact .paired none' (log ▸ answered.of_idle none)

/-- A step of the callback in which the connection neither sends nor attaches, or does nothing. -/
theorem Exchange.step_dull (exchange : Exchange h s) {rest : List Frame}
    (stack : s.system.stack = .user :: rest) (inTurn : InTurn s.system l)
    (quiet : ∀ c, l = .call c → dull c = true)
    (taken : System.step serverCallbacks s.system l = some system) (attaching : Option Bytes)
    (same : attaching.getD [] = s.attaching.getD []) : Handed system s.responses attaching := by
  have handed := exchange.handed.reattach stack same
  exact handed.step (fun data => exchange.follows.begun) inTurn.1 quiet taken

theorem attaching_of_callback (callback : s.callback = some (pc, depth)) :
    s.attaching = pc.attached := by
  rw [attaching, callback]
  rfl

theorem Exchange.step_callback (exchange : Exchange h s) (here : s.executing = some pc)
    (exchanges : Exchanges h s label) (accepts : pc ≠ .sendBadRequest)
    (taken : s.callbackStep true pc label = some s') : Exchange h s' := by
  have follows := exchange.follows.step_callback here taken
  have moved := callbackMove_of_callbackStep taken
  obtain ⟨depth, callback, length⟩ := exists_of_executing here
  obtain ⟨rest, stack⟩ := exchange.follows.user here moved
  have attaching := attaching_of_callback callback
  have goes : ∀ pc', s'.callback = (s.goto pc').callback →
      Handed s'.system s'.responses pc'.attached → Answered h s' → Exchange h s' := by
    intro pc' same handed answered
    have attaching := attaching_of_callback (same.trans (goto_callback callback pc'))
    exact ⟨follows, attaching ▸ handed, answered⟩
  have idle : ∀ pc', s'.callback = (s.goto pc').callback → pc'.attached = none →
      Paired h s'.log → Answered h s' := fun pc' same none paired =>
    .paired ((attaching_of_callback (same.trans (goto_callback callback pc'))).trans none) paired
  cases moved with
  | onConnection context returned | wait _ _ returned | reset context returned =>
    have inTurn : InTurn s.system .ret :=
      exchanges.1 _ (by simp_all [connectionLabel, asks])
    exact ⟨follows, exchange.step_dull stack inTurn (by simp) returned none (by rw [attaching]; rfl),
      .paired rfl (exchange.answered.of_idle attaching)⟩
  | @parse context context' result inBuffer present returns =>
    have paired := exchange.answered.of_idle attaching
    have handed := exchange.handed
    rw [attaching] at handed
    cases result with
    | true => exact goes .parseDone rfl handed (idle .parseDone rfl rfl paired)
    | false => exact goes .sendBadRequest rfl handed (idle .sendBadRequest rfl rfl paired)
  | badRequest => exact absurd rfl accepts
  | badShutdown called =>
    have inTurn : InTurn s.system (.call .shutdown) :=
      exchanges.1 _ (by simp [connectionLabel, here, asks])
    have handed := exchange.step_dull stack inTurn (by simp [dull]) called none
      (by rw [attaching]; rfl)
    exact goes .parseDone rfl handed
      (idle .parseDone rfl rfl (exchange.answered.of_idle attaching))
  | invoke response present done =>
    refine goes (.httpCallback response []) rfl ?_
      (.filling (goto_callback callback _) rfl (exchange.answered.of_idle attaching))
    rw [responses_concat (s := s) rfl]
    rw [show s.responses ++ (Happening.invoked _).response?.toList = _ from List.append_nil _]
    exact exchange.handed.reattach stack (by rw [attaching]; rfl)
  | skip response present done =>
    simp only [callbackStep, present, Option.bind_some, done, if_true] at taken
    have same := congrArg Session.log (Option.some.inj taken)
    simp [goto] at same
  | @call c response file system called =>
    have inTurn : InTurn s.system (.call c) := exchanges.1 _ (by simp [connectionLabel, here, asks])
    obtain ⟨earlier, req, log, paired⟩ := exchange.answered.of_httpCallback callback
    refine goes _ rfl ?_ (.filling (goto_callback callback _) log paired)
    cases c with
    | send => exact absurd exchanges.2 id
    | setSendFd fd file' stSize =>
      have eq : s.system.callStep (.setSendFd fd file' stSize) = system := by
        simpa [System.step, stack] using called
      rw [← eq]
      exact exchange.handed.attach stack
    | shutdown | forceClose =>
      exact exchange.step_dull stack inTurn (by simp [dull]) called _ (by rw [attaching]; rfl)
  | @answer response file fill =>
    obtain ⟨earlier, req, log, paired⟩ := exchange.answered.of_httpCallback callback
    have handed := exchange.handed
    rw [attaching] at handed
    have filled : (⟨(fill response).appendToBuffer [], file⟩ : Response) = h.answer req :=
      exchanges.2 (response, file) (by simp [here, CallbackPc.filling]) req
        (by simp [log, Happening.request?])
    exact goes (.send (fill response) file) rfl handed
      (.filled (goto_callback callback _) log paired filled)
  | @issue response file system called =>
    obtain ⟨earlier, req, log, paired, answer⟩ := exchange.answered.of_send callback
    have eq : s.system.callStep (.send (response.appendToBuffer [])) = system := by
      simpa [System.step, stack] using called
    have handed := exchange.handed
    rw [attaching] at handed
    refine goes (.closeConnection response.closeConnection) rfl ?_
      (idle (.closeConnection response.closeConnection) rfl rfl ?_)
    · rw [← eq, responses_concat (s := s) rfl]
      exact handed.issue stack
    · show Paired h (s.log ++ [_])
      rw [log]
      exact paired.concat answer
  | close called =>
    have inTurn : InTurn s.system (.call .shutdown) :=
      exchanges.1 _ (by simp [connectionLabel, here, asks])
    have handed := exchange.step_dull stack inTurn (by simp [dull]) called none
      (by rw [attaching]; rfl)
    exact goes .reset rfl handed (idle .reset rfl rfl (exchange.answered.of_idle attaching))
  | keepAlive =>
    have handed := exchange.handed
    rw [attaching] at handed
    exact goes .reset rfl handed (idle .reset rfl rfl (exchange.answered.of_idle attaching))

/-! ## Runs -/

/-- What has been read is a part of the requests. -/
def Asked (rs : List Request) (s : Session) : Prop :=
  (reads s.system.conn.trace).flatten <+: stream rs

theorem Move.reads (moved : Move s label s') :
    Http.reads s.system.conn.trace <+: Http.reads s'.system.conn.trace := by
  refine moved.keeps (I := fun system => Http.reads s.system.conn.trace <+:
    Http.reads system.conn.trace) (fun {t l t'} part taken => ?_) (List.prefix_refl _)
  obtain ⟨es, trace, -⟩ := System.accepted_step taken
  rw [trace, reads_append]
  exact part.trans (List.prefix_append _ _)

theorem Asked.before (asked : Asked rs s') (moved : Move s label s') : Asked rs s := by
  obtain ⟨later, same⟩ := moved.reads
  rw [Asked, ← same, List.flatten_append] at asked
  exact (List.prefix_append _ _).trans asked

/-- None of the requests is rejected. -/
theorem Follows.accepts (follows : s.Follows) (asked : Asked rs s) :
    s.executing ≠ some .sendBadRequest := by
  intro here
  obtain ⟨depth, callback, -⟩ := exists_of_executing here
  cases follows with
  | starting _ none | between _ none =>
    rw [none] at callback
    cases callback
  | connecting _ other =>
    rw [callback] at other
    cases other
  | lost _ _ _ _ only => cases only _ _ callback
  | @within conn chunks chunk _ _ ended same covered read delivered stage =>
    rw [callback] at same
    cases same
    obtain ⟨context, ⟨returns, -⟩, -⟩ := stage
    rw [Asked, read, List.flatten_append, List.flatten_singleton] at asked
    obtain ⟨conn', d, undispatched, delivered', serves⟩ :=
      serves_deliverAll chunks ((List.prefix_append _ _).trans asked)
    cases delivered.symm.trans delivered'
    have text : undispatched ++ chunk <+: stream (rs.drop d) := by
      rw [← serves.arrived, List.append_assoc, ← stream_take_append_drop rs d] at asked
      exact (List.prefix_append_right_inj _).mp asked
    rw [serves.resumes] at returns
    rcases parseRequest_stream text with ⟨_, _, _, _, _, _, _, parsed⟩ | ⟨-, _, _, parsed, -⟩
    · cases returns.symm.trans parsed
    · cases returns.symm.trans parsed

/-- The requests as `onRequest` gets them. -/
def dispatched (rs : List Request) : List HttpRequest :=
  rs.filterMap fun r => freshRequest r.bytes

/-- Every request is answered with a file of two bytes. -/
def twoBytes : Handler where
  fill _ response := (response.setStatusCode .k200Ok).setBodyLen 2
  file _ := [1, 2]

end Session

end Yvent.Http
