import Yvent.Http.Session

/-!
# The steps of a session

Every step of a session is one of the connection, its loop or another thread, or one of the callback
that is executing; the moves of a callback are listed with what they log and call.
-/

namespace Yvent.Http.Session

open TcpConnection

variable {s s' : Session} {l : Label} {label : SessionLabel} {httpCallback : Bool} {pc : CallbackPc}

theorem exists_of_executing (here : s.executing = some pc) :
    ∃ depth, s.callback = some (pc, depth) ∧ s.system.stack.length = depth := by
  unfold executing at here
  split at here
  · next pc' depth callback =>
    split at here
    · next same =>
      cases here
      exact ⟨depth, callback, same⟩
    · cases here
  · cases here

/-- The steps of a callback. -/
inductive CallbackMove (s : Session) : CallbackPc → SessionLabel → Session → Prop
  | onConnection {system : System} (context : Option HttpContext)
      (returned : System.step serverCallbacks s.system .ret = some system) :
      CallbackMove s .onConnection .go { s with system, context, callback := none }
  | parse {context context' : HttpContext} {result : Bool} {inBuffer : Bytes}
      (here : s.context = some context)
      (returns : Http.parseRequest context s.inBuffer = some (result, context', inBuffer)) :
      CallbackMove s .parseRequest .go
        { s.goto (if result then .parseDone else .sendBadRequest) with
          context := some context', inBuffer := inBuffer }
  | badRequest {system : System}
      (called : System.step serverCallbacks s.system (.call (.send badRequest)) = some system) :
      CallbackMove s .sendBadRequest .go { s.goto .shutdownBadRequest with system := system }
  | badShutdown {system : System}
      (called : System.step serverCallbacks s.system (.call .shutdown) = some system) :
      CallbackMove s .shutdownBadRequest .go { s.goto .parseDone with system := system }
  | wait {context : HttpContext} {system : System} (here : s.context = some context)
      (unfinished : context.parseDone = false)
      (returned : System.step serverCallbacks s.system .ret = some system) :
      CallbackMove s .parseDone .go { s with system, callback := none }
  | invoke {context : HttpContext} (response : HttpResponse) (here : s.context = some context)
      (done : context.parseDone = true) :
      CallbackMove s .parseDone .go
        { s.goto (.httpCallback response []) with log := s.log ++ [.invoked context.request] }
  | skip {context : HttpContext} (response : HttpResponse) (here : s.context = some context)
      (done : context.parseDone = true) :
      CallbackMove s .parseDone .go (s.goto (.send response []))
  | call {c : Call} {response : HttpResponse} {attached : Bytes} {system : System}
      (called : System.step serverCallbacks s.system (.call c) = some system) :
      CallbackMove s (.httpCallback response attached) (.call c)
        { s.goto (.httpCallback response (attach attached c)) with system := system }
  | answer {response : HttpResponse} {attached : Bytes} (fill : HttpResponse → HttpResponse) :
      CallbackMove s (.httpCallback response attached) (.answer fill)
        (s.goto (.send (fill response) attached))
  | issue {response : HttpResponse} {attached : Bytes} {system : System}
      (called : System.step serverCallbacks s.system (.call (.send (response.appendToBuffer []))) =
        some system) :
      CallbackMove s (.send response attached) .go
        { s.goto (.closeConnection response.closeConnection) with
          system := system,
          log := s.log ++ [.issued response.closeConnection s.system.conn.outBuffer
            (response.appendToBuffer []) attached s.system.conn.trace] }
  | close {system : System}
      (called : System.step serverCallbacks s.system (.call .shutdown) = some system) :
      CallbackMove s (.closeConnection true) .go { s.goto .reset with system := system }
  | keepAlive : CallbackMove s (.closeConnection false) .go (s.goto .reset)
  | reset {system : System} (context : Option HttpContext)
      (returned : System.step serverCallbacks s.system .ret = some system) :
      CallbackMove s .reset .go { s with system, context, callback := none }

theorem callbackMove_of_callbackStep (taken : s.callbackStep httpCallback pc label = some s') :
    CallbackMove s pc label s' := by
  unfold callbackStep at taken
  split at taken
  · obtain ⟨system, returned, rfl⟩ := Option.map_eq_some_iff.mp taken
    exact .onConnection _ returned
  · obtain ⟨context, here, taken⟩ := Option.bind_eq_some_iff.mp taken
    obtain ⟨⟨result, context', inBuffer⟩, returns, rfl⟩ := Option.map_eq_some_iff.mp taken
    exact .parse here returns
  · obtain ⟨system, called, rfl⟩ := Option.map_eq_some_iff.mp taken
    exact .badRequest called
  · obtain ⟨system, called, rfl⟩ := Option.map_eq_some_iff.mp taken
    exact .badShutdown called
  · obtain ⟨context, here, taken⟩ := Option.bind_eq_some_iff.mp taken
    split at taken
    · next done =>
      split at taken
      · cases taken
        exact .invoke _ here done
      · cases taken
        exact .skip _ here done
    · next unfinished =>
      obtain ⟨system, returned, rfl⟩ := Option.map_eq_some_iff.mp taken
      rw [Bool.not_eq_true] at unfinished
      exact .wait here unfinished returned
  · obtain ⟨system, called, rfl⟩ := Option.map_eq_some_iff.mp taken
    exact .call called
  · cases taken
    exact .answer _
  · obtain ⟨system, called, rfl⟩ := Option.map_eq_some_iff.mp taken
    exact .issue called
  · split at taken
    · next yes =>
      obtain ⟨system, called, rfl⟩ := Option.map_eq_some_iff.mp taken
      subst yes
      exact .close called
    · next no =>
      cases taken
      rw [Bool.not_eq_true] at no
      subst no
      exact .keepAlive
  · obtain ⟨system, returned, rfl⟩ := Option.map_eq_some_iff.mp taken
    exact .reset _ returned
  · cases taken

/-- The steps of a session. -/
inductive Move (s : Session) : SessionLabel → Session → Prop
  | system {l : Label} {system : System} (free : s.executing.isSome = true → l.ofUser = false)
      (taken : System.step serverCallbacks s.system l = some system) :
      Move s (.system l) (s.follow l system)
  | callback {pc : CallbackPc} {label : SessionLabel} {s' : Session}
      (here : s.executing = some pc) (moved : CallbackMove s pc label s') : Move s label s'

theorem move_of_step (taken : s.step httpCallback label = some s') : Move s label s' := by
  unfold step at taken
  split at taken
  · split at taken
    · cases taken
    · next free =>
      obtain ⟨system, moved, rfl⟩ := Option.map_eq_some_iff.mp taken
      rw [not_and, Bool.not_eq_true] at free
      exact .system free moved
  · obtain ⟨pc, here, moved⟩ := Option.bind_eq_some_iff.mp taken
    exact .callback here (callbackMove_of_callbackStep moved)

/-- What every step of the connection keeps, every step of the session keeps. -/
theorem Move.keeps {I : System → Prop}
    (kept : ∀ {s l s'}, I s → System.step serverCallbacks s l = some s' → I s')
    (moved : Move s label s') (holds : I s.system) : I s'.system := by
  cases moved with
  | @system l system free taken =>
    have same : (s.follow l system).system = system := by
      unfold follow
      split <;> rfl
    rw [same]
    exact kept holds taken
  | callback here moved =>
    cases moved with
    | onConnection _ taken | badRequest taken | badShutdown taken | wait _ _ taken | call taken
    | issue taken | close taken | reset _ taken => exact kept holds taken
    | parse | invoke | skip | answer | keepAlive => exact holds

end Yvent.Http.Session
