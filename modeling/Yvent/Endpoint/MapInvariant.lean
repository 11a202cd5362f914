import Yvent.Endpoint.Work

/-!
# What goes into the map and out of it

`enableRead` runs once for a connection, a closed connection is out of the map unless its erasure is
under way, and `newConnection` does not wait for a callback that closes its connection.
-/

namespace Yvent.Endpoint

variable {cb : Callbacks} {s s' t : System} {l : Label} {L : LoopId} {f : Frame}
  {frames rest : List Frame} {answer : Answer} {c : ConnId} {made : LoopId → List Task}

/-- How the state of a connection goes with the registration of its channel. -/
def Conn.Consistent (conn : Conn) : Prop :=
  match conn.channel with
  | .kNew => conn.state = .kConnecting
  | .kAdded => conn.state = .kConnected ∨ conn.state = .kDisconnecting
  | .kDeleted => conn.state = .kDisconnected

/-- How many frames and tasks of the loop lead to the `enableRead` of the connection. -/
def Loop.starts (loop : Loop) (c : ConnId) : Nat := loop.todo.countP (·.starts c)

/-- `enableRead` is under way for the connection at most once, and not any more after it has run. -/
structure System.StartsOnce (s : System) (c : ConnId) : Prop where
  once : ∃ L, ∀ L', (s.loops L').starts c ≤ if L' = L then 1 else 0
  past : s.Begun c → ∀ L, (s.loops L).starts c = 0

/-- What holds of the holder, the tasks and the frames of every loop. -/
structure MapInv (s : System) : Prop where
  sound : Sound s
  server : s.holder.isServer = true
  pending : ∀ t c, s.pending t ≠ some (.shutdownStore c)
  placed : ∀ L, ∀ f ∈ (s.loops L).todo, f.Placed L
  consistent : ∀ c, (s.conns c).Consistent
  starts : ∀ c, s.StartsOnce c
  apart : ∀ L c, (s.loops L).Creates c → ¬(s.loops L).Closes c
  erased : ∀ c, s.Closed c → (c ∉ s.holder.conns ∧ ∀ L, ¬(s.loops L).Creates c) ∨ s.Erasing c
  bound : ∀ c ∈ s.holder.conns, c < s.nextConnId

theorem Conn.Consistent.closed_iff {conn : Conn} (consistent : conn.Consistent) :
    conn.channel = .kDeleted ↔ conn.state = .kDisconnected := by
  rw [Conn.Consistent] at consistent
  cases channel : conn.channel with
  | kNew | kDeleted =>
    rw [channel] at consistent
    simp [consistent]
  | kAdded =>
    rw [channel] at consistent
    rcases consistent with state | state <;> simp [state]

theorem Conn.Consistent.disconnecting {conn : Conn} (consistent : conn.Consistent)
    (connected : conn.state = .kConnected) :
    Conn.Consistent { conn with state := .kDisconnecting } := by
  rw [Conn.Consistent] at consistent ⊢
  cases channel : conn.channel with
  | kNew | kDeleted =>
    rw [channel, connected] at consistent
    cases consistent
  | kAdded => exact Or.inr rfl

theorem System.FrameOk.begun_of_closes (ok : s.FrameOk f) (closes : f.closes c = true) :
    s.Begun c := by
  cases f with
  | handleEvents c' | handleRead c' | forceCloseInLoop c' =>
    obtain rfl : c' = c := of_decide_eq_true closes
    exact ok
  | closeCallback c' | handleCloseInLoop c' =>
    obtain rfl : c' = c := of_decide_eq_true closes
    exact System.Closed.begun ok
  | handleClose c' pc =>
    obtain rfl : c' = c := of_decide_eq_true closes
    cases pc with
    | store => exact ok
    | notify | notified | close | closed => exact System.Closed.begun ok
  | _ => cases closes

theorem System.FrameOk.bound_of_starts (ok : s.FrameOk f) (starts : f.starts c = true) :
    c < s.nextConnId := by
  cases f with
  | newConnection c' pc =>
    cases pc with
    | enable =>
      obtain rfl : c' = c := of_decide_eq_true starts
      exact ok.1
    | insert => cases starts
  | clientNewConnection c' =>
    obtain rfl : c' = c := of_decide_eq_true starts
    exact ok
  | enableRead c' pc =>
    cases pc with
    | start =>
      obtain rfl : c' = c := of_decide_eq_true starts
      exact ok
    | done => cases starts
  | _ => cases starts

theorem Sound.todo (inv : Sound s) (mem : f ∈ (s.loops L).todo) : s.FrameOk f := by
  rcases List.mem_append.mp mem with mem | mem
  · exact inv.frames L f mem
  · obtain ⟨task, queued, rfl⟩ := List.mem_map.mp mem
    refine inv.tasks L task ?_
    rcases List.mem_append.mp queued with left | queued
    · refine List.mem_append_left _ ?_
      cases phase : (s.loops L).phase with
      | tasks batch next =>
        rw [phase] at left
        exact List.mem_of_mem_drop left
      | poll | dispatch =>
        rw [phase] at left
        cases left
    · exact List.mem_append_right _ queued

namespace MapInv

variable (inv : MapInv s)

include inv

theorem keeps (keeps : StepKeeps s s') (sound : Sound s') : MapInv s' := by
  have channel : ∀ c, (s'.conns c).channel = (s.conns c).channel := fun c => by
    rcases keeps.conns c with same | ⟨-, same⟩ <;> rw [same]
  refine ⟨sound, ?_, fun t c here => inv.pending t c (keeps.pending t c here), ?_, ?_, ?_, ?_, ?_, ?_⟩
  · rw [keeps.holder]
    exact inv.server
  · intro L f mem
    exact ((keeps.loops L).placed f mem).elim (inv.placed L f) fun isPlain =>
      Frame.placed_of_plain isPlain L
  · intro c
    rcases keeps.conns c with same | ⟨connected, same⟩
    · rw [same]
      exact inv.consistent c
    · rw [same]
      exact (inv.consistent c).disconnecting connected
  · intro c
    obtain ⟨⟨L, once⟩, past⟩ := inv.starts c
    refine ⟨⟨L, fun L' => Nat.le_trans ((keeps.loops L').starts c) (once L')⟩, fun begun L' => ?_⟩
    rw [System.Begun, channel] at begun
    exact Nat.le_zero.mp (past begun L' ▸ (keeps.loops L').starts c)
  · intro L c created closes
    exact inv.apart L c ((keeps.loops L).creates c created) ((keeps.loops L).closes c created closes)
  · intro c closed
    rw [System.Closed, channel] at closed
    rw [keeps.holder]
    refine (inv.erased c closed).imp (And.imp id fun none L created =>
      none L ((keeps.loops L).creates c created)) ?_
    rintro ⟨L, f, mem, erases⟩
    exact ⟨L, f, (keeps.loops L).erases c f mem erases, erases⟩
  · rw [keeps.holder, keeps.nextConnId]
    exact inv.bound

/-- A frame that leads to `enableRead` is the only one. -/
theorem starts_of_mem (mem : f ∈ (s.loops L).todo) (starts : f.starts c = true) :
    ¬s.Begun c ∧ ∀ L', (s.loops L').starts c ≤ if L' = L then 1 else 0 := by
  obtain ⟨⟨L₀, once⟩, past⟩ := inv.starts c
  have some : 0 < (s.loops L).starts c := List.countP_pos_iff.mpr ⟨f, mem, starts⟩
  refine ⟨fun begun => Nat.ne_of_gt some (past begun L), ?_⟩
  have here := once L
  split at here
  · next same => exact same ▸ once
  · exact absurd some (Nat.not_lt_of_le here)

end MapInv

section

variable (inv : MapInv s) (effect : FrameEffect s L f frames t made)
  (here : (s.loops L).stack = f :: rest)

include inv effect here

theorem MapInv.startsOnce_run (c : ConnId) : (t.setStack L (frames ++ rest)).StartsOnce c := by
  have mem : f ∈ (s.loops L).todo := List.mem_append_left _ (here ▸ List.mem_cons_self)
  have count : ∀ L', (if L' = L ∧ f.starts c = true then 1 else 0) +
      ((t.setStack L (frames ++ rest)).loops L').starts c =
        (s.loops L').starts c + (produced L frames made L').countP (·.starts c) :=
    effect.countP_todo here (·.starts c)
  have unchanged : f.starts c = false →
      (∀ L', (produced L frames made L').countP (·.starts c) = 0) →
      ∀ L', ((t.setStack L (frames ++ rest)).loops L').starts c = (s.loops L').starts c := by
    intro starts none L'
    have now := count L'
    rw [none L', starts] at now
    simpa using now
  have keeps : (s.Begun c ∨ ¬t.Begun c) → f.starts c = false →
      (∀ L', (produced L frames made L').countP (·.starts c) = 0) →
      (t.setStack L (frames ++ rest)).StartsOnce c := by
    intro begun starts none
    obtain ⟨⟨L₀, once⟩, past⟩ := inv.starts c
    refine ⟨⟨L₀, fun L' => ?_⟩, fun after L' => ?_⟩ <;> rw [unchanged starts none L']
    · exact once L'
    · exact past (begun.elim id fun notYet => absurd after notYet) L'
  have sameBegun : t.conns c = s.conns c → s.Begun c ∨ ¬t.Begun c := by
    intro conn
    rw [System.Begun, System.Begun, conn]
    exact Decidable.em _
  cases effect.life c with
  | keep conn _ starts _ =>
    obtain ⟨L₁, moved⟩ := starts
    by_cases starts : f.starts c = true
    · obtain ⟨new, once⟩ := inv.starts_of_mem mem starts
      refine ⟨⟨L₁, fun L' => ?_⟩, fun begun => absurd ?_ new⟩
      · have now := count L'
        have before := once L'
        have after := moved L'
        simp only [starts, and_true] at now after
        omega
      · have begun : t.Begun c := begun
        rwa [System.Begun, conn] at begun
    · rw [Bool.not_eq_true] at starts
      refine keeps (sameBegun conn) starts fun L' => ?_
      simpa [starts] using moved L'
  | enable starts conn _ started =>
    obtain ⟨-, once⟩ := inv.starts_of_mem mem starts
    have zero : ∀ L', ((t.setStack L (frames ++ rest)).loops L').starts c = 0 := by
      intro L'
      have now := count L'
      have before := once L'
      have none : (produced L frames made L').countP (·.starts c) = 0 :=
        List.countP_eq_zero.mpr fun g made => by simp [started L' g made]
      simp only [starts, and_true, none] at now
      omega
    refine ⟨⟨0, fun L' => ?_⟩, fun _ => zero⟩
    rw [zero L']
    exact Nat.zero_le _
  | insert same conn _ empty | erase same conn _ empty =>
    exact keeps (sameBegun conn) (by rw [same]; rfl) fun L' => by rw [empty L']; rfl
  | close same conn _ started _ =>
    have begun : s.Begun c := by
      have ok := inv.sound.todo mem
      rw [same] at ok
      exact ok
    exact keeps (Or.inl begun) (by rw [same]; rfl) fun L' =>
      List.countP_eq_zero.mpr fun g made => by simp [started L' g made]

theorem MapInv.consistent_run (c : ConnId) : (t.conns c).Consistent := by
  have mem : f ∈ (s.loops L).todo := List.mem_append_left _ (here ▸ List.mem_cons_self)
  have before := inv.consistent c
  cases effect.life c with
  | keep conn | insert _ conn | erase _ conn =>
    rw [conn]
    exact before
  | enable starts conn =>
    obtain ⟨new, -⟩ := inv.starts_of_mem mem starts
    have new : (s.conns c).channel = .kNew := Decidable.not_not.mp new
    rw [conn]
    simp [Conn.Consistent, System.enable, System.setConn, new, ChannelState.update]
  | close same conn =>
    have begun : s.Begun c := by
      have ok := inv.sound.todo mem
      rw [same] at ok
      exact ok
    rw [conn]
    cases channel : (s.conns c).channel with
    | kNew => exact absurd channel begun
    | kAdded | kDeleted =>
      simp [Conn.Consistent, System.disable, System.setConn, channel, ChannelState.update]

theorem MapInv.erased_run (closed : t.Closed c) :
    (c ∉ t.holder.conns ∧ ∀ L', ¬((t.setStack L (frames ++ rest)).loops L').Creates c) ∨
      (t.setStack L (frames ++ rest)).Erasing c := by
  have top : f ∈ (s.loops L).stack := here ▸ List.mem_cons_self
  have mem : f ∈ (s.loops L).todo := List.mem_append_left _ top
  have stays : (f.erases c = true → (t.setStack L (frames ++ rest)).Erasing c) → s.Erasing c →
      (t.setStack L (frames ++ rest)).Erasing c := by
    rintro own ⟨L', g, mem, erases⟩
    rcases effect.todo_mem here mem with rfl | mem
    · exact own erases
    · exact ⟨L', g, mem, erases⟩
  cases effect.life c with
  | keep conn same _ erases =>
    rw [System.Closed, conn] at closed
    rw [same]
    refine (inv.erased c closed).imp
      (And.imp id fun none L' created => none L' (effect.creates_after here created)) ?_
    refine stays fun own => ?_
    obtain ⟨L', g, made, erases⟩ := erases own
    exact ⟨L', g, effect.made_mem made, erases⟩
  | enable starts conn =>
    obtain ⟨new, -⟩ := inv.starts_of_mem mem starts
    have new : (s.conns c).channel = .kNew := Decidable.not_not.mp new
    rw [System.Closed, conn] at closed
    simp [System.enable, System.setConn, new, ChannelState.update] at closed
  | insert same conn =>
    rw [System.Closed, conn] at closed
    subst same
    refine Or.inr (stays (fun own => ?_) ?_)
    · cases own
    · exact (inv.erased c closed).resolve_left fun gone => gone.2 L ⟨_, top⟩
  | close _ _ _ _ erases =>
    obtain ⟨L', g, made, erases⟩ := erases
    exact Or.inr ⟨L', g, effect.made_mem made, erases⟩
  | erase same _ gone =>
    subst same
    refine Or.inl ⟨gone, fun L' created => ?_⟩
    -- `connections_` is used in one loop, and there the erasure does not run inside `newConnection`
    have before := effect.creates_after here created
    have base : L = 0 := inv.placed L _ mem
    have same : L' = L := by
      obtain ⟨pc, mem⟩ := before
      exact (inv.placed L' _ (List.mem_append_left _ mem) : L' = 0).trans base.symm
    rw [same] at before
    exact inv.apart L c before ⟨_, top, by simp [Frame.closes]⟩

theorem MapInv.run (sound : Sound (t.setStack L (frames ++ rest))) :
    MapInv (t.setStack L (frames ++ rest)) := by
  have mem : f ∈ (s.loops L).todo := List.mem_append_left _ (here ▸ List.mem_cons_self)
  refine ⟨sound, effect.isServer.trans inv.server, fun t' c now => ?_, fun L' g mem' => ?_,
    fun c => inv.consistent_run effect here c, inv.startsOnce_run effect here, fun L' c created closes => ?_,
    fun c closed => inv.erased_run effect here closed, fun c mem' => ?_⟩
  · exact inv.pending t' c (effect.pending ▸ now)
  · exact (effect.mem_todo here mem').elim (inv.placed L' g)
      (effect.placed (inv.placed L f mem) L' g)
  · exact inv.apart L' c (effect.creates_after here created) (effect.closes_after here closes)
  · show c < t.nextConnId
    rw [effect.nextConnId]
    rcases effect.bound c mem' with before | ⟨pc, rfl⟩
    · exact inv.bound c before
    · exact (inv.sound.todo mem).1

end

/-! ## A new connection -/

section

variable (inv : MapInv s) (spec : AcceptSpec s s')

include spec

theorem AcceptSpec.conns_of_ne {c : ConnId} (other : c ≠ s.nextConnId) :
    s'.conns c = s.conns c := by
  rw [spec.conns, Function.update_of_ne other]

theorem AcceptSpec.conns_new :
    s'.conns s.nextConnId = ⟨getNextEventLoop s, .kConnecting, .kNew⟩ := by
  rw [spec.conns, Function.update_self]

theorem AcceptSpec.starts (L : LoopId) (c : ConnId) : (s'.loops L).starts c =
    (if L = 0 ∧ c = s.nextConnId then 1 else 0) + (s.loops L).starts c := by
  rw [Loop.starts, spec.todo, List.countP_append]
  congr 1
  by_cases base : L = 0 <;> by_cases own : c = s.nextConnId <;>
    simp [base, own, Frame.starts, Ne.symm]

include inv

theorem MapInv.placed_accept (L : LoopId) : ∀ f ∈ (s'.loops L).todo, f.Placed L := by
  intro f mem
  rw [spec.todo] at mem
  rcases List.mem_append.mp mem with mem | mem
  · split at mem
    · next base =>
      obtain rfl := List.mem_singleton.mp mem
      exact base
    · cases mem
  · exact inv.placed L f mem

theorem MapInv.startsOnce_accept (c : ConnId) : s'.StartsOnce c := by
  by_cases own : c = s.nextConnId
  · have none : ∀ L, (s.loops L).starts c = 0 := fun L =>
      List.countP_eq_zero.mpr fun g mem starts =>
        absurd own (Nat.ne_of_lt ((inv.sound.todo mem).bound_of_starts starts))
    refine ⟨⟨0, fun L => ?_⟩, fun begun => ?_⟩
    · rw [spec.starts, none]
      simp [own]
    · rw [System.Begun, own, spec.conns_new] at begun
      exact absurd rfl begun
  · obtain ⟨⟨L₀, once⟩, past⟩ := inv.starts c
    have same : ∀ L, (s'.loops L).starts c = (s.loops L).starts c := fun L => by
      simp [spec.starts, own]
    refine ⟨⟨L₀, fun L => same L ▸ once L⟩, fun begun L => ?_⟩
    rw [System.Begun, spec.conns_of_ne own] at begun
    rw [same]
    exact past begun L

theorem MapInv.apart_accept (L : LoopId) (c : ConnId) (created : (s'.loops L).Creates c) :
    ¬(s'.loops L).Closes c := by
  rintro ⟨g, mem, closes⟩
  have before : (s.loops L).Closes c := by
    rcases spec.stack L g mem with rfl | mem
    · cases closes
    · exact ⟨g, mem, closes⟩
  obtain ⟨pc, created⟩ := created
  rcases spec.stack L _ created with same | created
  · -- no frame closes a connection that is yet to come
    obtain ⟨h, mem, closes⟩ := before
    have begun := (inv.sound.frames L h mem).begun_of_closes closes
    cases same
    exact Nat.lt_irrefl _ (inv.sound.bound _ begun)
  · exact inv.apart L c ⟨pc, created⟩ before

theorem MapInv.erased_accept {c : ConnId} (closed : s'.Closed c) :
    (c ∉ s'.holder.conns ∧ ∀ L, ¬(s'.loops L).Creates c) ∨ s'.Erasing c := by
  have other : c ≠ s.nextConnId := by
    rintro rfl
    rw [System.Closed, spec.conns_new] at closed
    cases closed
  rw [System.Closed, spec.conns_of_ne other] at closed
  rw [spec.holder]
  refine (inv.erased c closed).imp (And.imp id fun none L created => ?_) ?_
  · obtain ⟨pc, mem⟩ := created
    rcases spec.stack L _ mem with same | mem
    · cases same
      exact other rfl
    · exact none L ⟨pc, mem⟩
  · rintro ⟨L, g, mem, erases⟩
    exact ⟨L, g, spec.todo L ▸ List.mem_append_right _ mem, erases⟩

/-- A new connection has a frame of its `newConnection` and nothing else. -/
theorem MapInv.accept (sound : Sound s') : MapInv s' where
  sound := sound
  server := spec.holder ▸ inv.server
  pending := spec.pending ▸ inv.pending
  placed := inv.placed_accept spec
  consistent c := by
    by_cases own : c = s.nextConnId
    · rw [own, spec.conns_new]
      rfl
    · rw [spec.conns_of_ne own]
      exact inv.consistent c
  starts := inv.startsOnce_accept spec
  apart := inv.apart_accept spec
  erased _ closed := inv.erased_accept spec closed
  bound c mem := by
    rw [spec.holder] at mem
    rw [spec.nextConnId]
    exact Nat.lt_succ_of_lt (inv.bound c mem)

end

theorem MapInv.step (inv : MapInv s) (scope : InScope l) (good : ClosesInserted s l)
    (taken : s.step cb l = some s') : MapInv s' := by
  have sound : Sound s' := inv.sound.step taken
  have beside : (∀ L answer, l ≠ .run L answer) → l ≠ .accept → MapInv s' := fun noRun noAccept =>
    inv.keeps (stepKeeps_of_step inv.server inv.pending scope good noRun noAccept taken) sound
  cases l with
  | run L answer =>
    simp only [System.step] at taken
    split at taken
    · cases taken
    · next f rest here =>
      obtain ⟨⟨frames, t⟩, ran, rfl⟩ := Option.map_eq_some_iff.mp taken
      have placed : f.Placed L :=
        inv.placed L f (List.mem_append_left _ (here ▸ List.mem_cons_self))
      obtain ⟨made, effect⟩ := frameEffect_of_frameStep inv.server placed ran
      exact inv.run effect here sound
  | accept =>
    obtain ⟨-, taken⟩ := Option.ite_none_right_eq_some.mp taken
    exact inv.accept (acceptSpec_of_acceptStep inv.server taken) sound
  | _ => exact beside (by simp) (by simp)

theorem mapInv_start (ioLoops : Nat) : MapInv (.start (.server ioLoops)) := by
  have todo : ∀ L, ((System.start (.server ioLoops)).loops L).todo = if L = 0 then [.other] else [] := by
    intro L
    simp only [System.start]
    split <;> rfl
  have plain : ∀ L, ∀ f ∈ ((System.start (.server ioLoops)).loops L).todo, f = .other := by
    intro L f mem
    rw [todo] at mem
    split at mem
    · exact List.mem_singleton.mp mem
    · cases mem
  have none : ∀ L c, ((System.start (.server ioLoops)).loops L).starts c = 0 := fun L c =>
    List.countP_eq_zero.mpr fun f mem => by simp [plain L f mem, Frame.starts]
  refine ⟨sound_start, rfl, by simp [System.start], fun L f mem => ?_, fun _ => rfl,
    fun c => ⟨⟨0, fun L => ?_⟩, fun _ L => none L c⟩, fun L c created => ?_, fun c closed => ?_,
    by simp [System.start, Holder.conns]⟩
  · rw [plain L f mem]
    trivial
  · rw [none]
    exact Nat.zero_le _
  · obtain ⟨pc, mem⟩ := created
    cases plain L _ (List.mem_append_left _ mem)
  · cases closed

/-! ## Quiet connections -/

/-- `newConnection` or a function that closes the connection. -/
def Frame.inProgress (c : ConnId) : Frame → Bool
  | .newConnection c' _ | .handleClose c' _ | .closeCallback c' | .handleCloseInLoop c' => c' = c
  | _ => false

/-- No `newConnection` and no closing of the connection is running or queued. -/
def System.Quiet (s : System) (c : ConnId) : Prop :=
  ∀ L, ∀ f ∈ (s.loops L).todo, f.inProgress c = false

theorem Frame.inProgress_of_erases (erases : f.erases c = true) : f.inProgress c = true := by
  cases f with
  | handleClose c' pc => cases pc <;> first | exact erases | cases erases
  | closeCallback | handleCloseInLoop => exact erases
  | _ => cases erases

theorem System.Quiet.not_creates (quiet : s.Quiet c) (L : LoopId) : ¬(s.loops L).Creates c := by
  rintro ⟨pc, mem⟩
  have busy := quiet L _ (List.mem_append_left _ mem)
  simp [Frame.inProgress] at busy

theorem System.Quiet.not_erasing (quiet : s.Quiet c) : ¬s.Erasing c := by
  rintro ⟨L, f, mem, erases⟩
  have busy := quiet L f mem
  rw [Frame.inProgress_of_erases erases] at busy
  cases busy

/-- The map has the quiet connections that are not closed. -/
theorem MapInv.mem_iff (inv : MapInv s) (quiet : s.Quiet c) :
    c ∈ s.holder.conns ↔ c < s.nextConnId ∧ (s.conns c).state ≠ .kDisconnected := by
  have closed : s.Closed c ↔ (s.conns c).state = .kDisconnected := (inv.consistent c).closed_iff
  constructor
  · intro mem
    refine ⟨inv.bound c mem, fun state => ?_⟩
    rcases inv.erased c (closed.mpr state) with ⟨gone, -⟩ | erasing
    · exact gone mem
    · exact quiet.not_erasing erasing
  · rintro ⟨bound, state⟩
    rcases inv.sound.kept c bound fun isClosed => state (closed.mp isClosed) with mem | ⟨L, created⟩
    · exact mem
    · exact absurd created (quiet.not_creates L)

end Yvent.Endpoint
