import Mathlib.Algebra.Ring.Nat
import Mathlib.Data.List.AList
import Yvent.Endpoint.MapInvariant
import Yvent.Misc.Decimal

/-!
# The connections of a server under their names

`TcpServer` with the names that `newConnection` gives, which end in the number of the connection, and
`connections_` itself. As long as the first callback of a connection does not close it, the map has
exactly the connections that are not closed.
-/

namespace Yvent.Endpoint

variable {cb : Callbacks} {c : ConnId}

/-! ## Names -/

/-- `name_` of a connection. -/
abbrev Name := List Char

/-- An IPv4 address with the port in host order. -/
structure InetAddr where
  a : UInt8
  b : UInt8
  c : UInt8
  d : UInt8
  port : UInt16
  deriving DecidableEq, Repr

/-- `inet_ntop`. -/
def InetAddr.ip (addr : InetAddr) : List Char :=
  decimal addr.a.toNat ++ '.' :: decimal addr.b.toNat ++ '.' :: decimal addr.c.toNat ++
    '.' :: decimal addr.d.toNat

/-- `snprintf(namebuf, 128, "%s:%d#%d", ...)`, for a `nextConnId_` that has not overflowed. -/
def connName (peer : InetAddr) (nextConnId : Nat) : Name :=
  (peer.ip ++ ':' :: decimal peer.port.toNat ++ '#' :: decimal nextConnId).take 127

theorem hash_notMem_decimal (n : Nat) : '#' ∉ decimal n := by
  intro mem
  have digit := isDigit_of_mem_decimal mem
  cases digit

theorem length_octet (x : UInt8) : (decimal x.toNat).length ≤ 3 :=
  length_decimal (by decide) (Nat.lt_trans x.toNat_lt (by decide))

/-- The buffer takes the whole name. -/
theorem connName_eq (peer : InetAddr) {n : Nat} (bound : n < 2 ^ 31) :
    connName peer n = peer.ip ++ ':' :: decimal peer.port.toNat ++ '#' :: decimal n := by
  have a := length_octet peer.a
  have b := length_octet peer.b
  have c := length_octet peer.c
  have d := length_octet peer.d
  have port : (decimal peer.port.toNat).length ≤ 5 :=
    length_decimal (by decide) (Nat.lt_trans peer.port.toNat_lt (by decide))
  have id : (decimal n).length ≤ 10 := length_decimal (by decide) (Nat.lt_trans bound (by decide))
  refine List.take_of_length_le ?_
  simp only [InetAddr.ip, List.length_append, List.length_cons]
  omega

theorem hash_notMem_host (peer : InetAddr) : '#' ∉ peer.ip ++ ':' :: decimal peer.port.toNat := by
  simp [InetAddr.ip, hash_notMem_decimal]

/-- The number of a connection can be read off its name. -/
theorem connName_injective {peer peer' : InetAddr} {m n : Nat} (m_lt : m < 2 ^ 31)
    (n_lt : n < 2 ^ 31) (same : connName peer m = connName peer' n) : m = n := by
  rw [connName_eq peer m_lt, connName_eq peer' n_lt] at same
  exact decimal_injective ((List.append_cons_inj_of_notMem (hash_notMem_host peer)
    (hash_notMem_decimal m)).mp same).2.2

/-! ## The server -/

/-- A server with the names of its connections and its map. -/
structure Server where
  system : System
  name : ConnId → Name
  connections : AList fun _ : Name => ConnId

namespace Server

/-- What the executing frame does to `connections_`. -/
def mapStep (v : Server) : Frame → AList fun _ : Name => ConnId
  | .newConnection c .insert => v.connections.insert (v.name c) c
  | .handleCloseInLoop c => v.connections.erase (v.name c)
  | _ => v.connections

/-- A step of the system; an `accept` reports the address of the peer. -/
def step (cb : Callbacks) (v : Server) : Label × InetAddr → Option Server
  | (l, peer) => (v.system.step cb l).map fun system =>
    { system
      name :=
        if l = .accept then
          Function.update v.name v.system.nextConnId (connName peer v.system.nextConnId)
        else v.name
      connections :=
        match l with
        | .run L _ => ((v.system.top L).map v.mapStep).getD v.connections
        | _ => v.connections }

/-- A server without connections. -/
def start (ioLoops : Nat) : Server :=
  { system := .start (.server ioLoops), name := fun _ => [], connections := ∅ }

/-- The side condition that other threads do not call `shutdown`. -/
def InScope (_ : Server) (l : Label × InetAddr) : Prop := Endpoint.InScope l.1

/-- The side condition that `forceClose` is not called by a callback for which the `newConnection` of
its connection is still waiting, and that `nextConnId_` does not overflow. -/
def ClosesInserted (v : Server) (l : Label × InetAddr) : Prop :=
  Endpoint.InScope l.1 ∧ Endpoint.ClosesInserted v.system l.1 ∧
    (l.1 = .accept → v.system.nextConnId + 1 < 2 ^ 31)

/-- What `connections_` promises: each quiet connection is in it, under its own name, when it is not
closed, no two connections have the same name, and only the close of a connection takes it out. -/
structure MapExact (cb : Callbacks) (v : Server) : Prop where
  entries : ∀ c, v.system.Quiet c → ∀ n, v.connections.lookup n = some c ↔
    n = v.name c ∧ c < v.system.nextConnId ∧ (v.system.conns c).state ≠ .kDisconnected
  names : ∀ c < v.system.nextConnId, ∀ d < v.system.nextConnId, v.name c = v.name d → c = d
  removals : ∀ l v' n c, v.step cb l = some v' → v.connections.lookup n = some c →
    v'.connections.lookup n ≠ some c →
    (∃ answer, l.1 = .run 0 answer) ∧ v.system.top 0 = some (.handleCloseInLoop c)

/-- The names are those `newConnection` made, and the map is the one of the system. -/
structure Named (v : Server) : Prop where
  system : MapInv v.system
  bound : v.system.nextConnId < 2 ^ 31
  named : ∀ c < v.system.nextConnId, ∃ peer, v.name c = connName peer c
  entries : ∀ n c, v.connections.lookup n = some c ↔ c ∈ v.system.holder.conns ∧ n = v.name c

variable {v v' : Server} {s s' : System} {L : LoopId} {f : Frame} {answer : Answer}

theorem Named.name_injective (inv : Named v) {c d : ConnId} (c_lt : c < v.system.nextConnId)
    (d_lt : d < v.system.nextConnId) (same : v.name c = v.name d) : c = d := by
  obtain ⟨peer, name⟩ := inv.named c c_lt
  obtain ⟨peer', name'⟩ := inv.named d d_lt
  rw [name, name'] at same
  exact connName_injective (Nat.lt_trans c_lt inv.bound) (Nat.lt_trans d_lt inv.bound) same

/-- What a frame of a server does to `connections_`. -/
def updates : Frame → Holder → Holder
  | .newConnection c .insert, holder => holder.insert c
  | .handleCloseInLoop c, holder => holder.erase c
  | _, holder => holder

/-- `connections_` changes in `newConnection` and in `handleCloseInLoop` only. -/
theorem holder_of_frameStep {frames : List Frame} (server : s.holder.isServer = true)
    (taken : frameStep cb s L f answer = some (frames, s')) : s'.holder = updates f s.holder := by
  cases f with
  | newConnection c pc =>
    cases answer with
    | silent =>
      cases pc with
      | enable =>
        obtain rfl : (newConnectionStep s c .enable).2 = s' :=
          congrArg Prod.snd (Option.some.inj taken)
        simp only [newConnectionStep]
        split <;> rfl
      | insert =>
        cases taken
        rfl
    | read | wrote => cases taken
  | handleClose c pc =>
    cases answer with
    | silent =>
      obtain rfl : (handleCloseStep cb s c pc).2 = s' := congrArg Prod.snd (Option.some.inj taken)
      cases pc with
      | notify =>
        simp only [handleCloseStep]
        split <;> rfl
      | _ => rfl
    | read | wrote => cases taken
  | closeCallback c =>
    cases answer with
    | silent =>
      obtain rfl : (closeCallbackStep cb s L c).2 = s' := congrArg Prod.snd (Option.some.inj taken)
      simp only [closeCallbackStep, if_pos server]
      split <;> rfl
    | read | wrote => cases taken
  | clientSend =>
    cases answer with
    | silent =>
      obtain ⟨frames', -, same⟩ := Option.map_eq_some_iff.mp taken
      cases same
      rfl
    | read | wrote => cases taken
  | enableRead c pc | handleRead c pc | handleWrite c pc | sendInLoop c pc | forceCloseInLoop c pc =>
    cases pc <;> cases answer <;> cases taken <;> rfl
  | other | user | member | clientNewConnection | handleEvents | shutdownInLoop
  | handleCloseInLoop => cases answer <;> cases taken <;> rfl

/-- The executing frame changes the map as it changes that of the system. -/
theorem Named.mapStep (inv : Named v) (mem : f ∈ (v.system.loops L).stack) (n : Name) (c : ConnId) :
    (v.mapStep f).lookup n = some c ↔ c ∈ (updates f v.system.holder).conns ∧ n = v.name c := by
  have ok := inv.system.sound.frames L f mem
  have server := inv.system.server
  cases f with
  | newConnection d pc =>
    cases pc with
    | enable => exact inv.entries n c
    | insert =>
      simp only [Server.mapStep, updates, conns_insert_iff server]
      by_cases own : n = v.name d
      · subst own
        rw [AList.lookup_insert, Option.some.injEq]
        constructor
        · rintro rfl
          exact ⟨Or.inr rfl, rfl⟩
        · rintro ⟨mem | rfl, same⟩
          · exact inv.name_injective ok.1 (inv.system.bound c mem) same
          · rfl
      · rw [AList.lookup_insert_ne own, inv.entries]
        constructor
        · exact And.imp Or.inl id
        · rintro ⟨mem | rfl, same⟩
          · exact ⟨mem, same⟩
          · exact absurd same own
  | handleCloseInLoop d =>
    simp only [Server.mapStep, updates, conns_erase server]
    by_cases own : n = v.name d
    · subst own
      rw [AList.lookup_erase]
      refine ⟨by simp, fun ⟨⟨mem, other⟩, same⟩ => ?_⟩
      have d_lt := inv.system.sound.bound d (System.Closed.begun ok)
      exact absurd (inv.name_injective d_lt (inv.system.bound c mem) same).symm other
    · rw [AList.lookup_erase_ne own, inv.entries]
      refine and_congr_left fun same => ⟨fun mem => ⟨mem, ?_⟩, And.left⟩
      rintro rfl
      exact own same
  | _ => exact inv.entries n c

theorem Named.run (inv : Named v) {rest frames : List Frame} {t : System} {name : ConnId → Name}
    {made : LoopId → List Task} (here : (v.system.loops L).stack = f :: rest)
    (ran : frameStep cb v.system L f answer = some (frames, t))
    (effect : FrameEffect v.system L f frames t made) (same : name = v.name)
    (system : MapInv (t.setStack L (frames ++ rest))) :
    Named ⟨t.setStack L (frames ++ rest), name, v.mapStep f⟩ := by
  subst same
  have nextConnId : (t.setStack L (frames ++ rest)).nextConnId = v.system.nextConnId :=
    effect.nextConnId
  refine ⟨system, ?_, fun c bound => inv.named c (nextConnId ▸ bound), ?_⟩
  · show (t.setStack L (frames ++ rest)).nextConnId < 2 ^ 31
    rw [nextConnId]
    exact inv.bound
  · intro n c
    show _ ↔ c ∈ t.holder.conns ∧ _
    rw [holder_of_frameStep inv.system.server ran]
    exact inv.mapStep (here ▸ List.mem_cons_self) n c

theorem Named.accept (inv : Named v) {peer : InetAddr} (spec : AcceptSpec v.system s')
    (system : MapInv s') (small : v.system.nextConnId + 1 < 2 ^ 31) :
    Named ⟨s', Function.update v.name v.system.nextConnId (connName peer v.system.nextConnId),
      v.connections⟩ := by
  refine ⟨system, ?_, fun c bound => ?_, fun n c => ?_⟩
  · show s'.nextConnId < 2 ^ 31
    rw [spec.nextConnId]
    exact small
  · by_cases own : c = v.system.nextConnId
    · exact ⟨peer, by simp [own]⟩
    · have bound : c < s'.nextConnId := bound
      rw [spec.nextConnId] at bound
      obtain ⟨peer', name⟩ := inv.named c (Nat.lt_of_le_of_ne (Nat.le_of_lt_succ bound) own)
      exact ⟨peer', by simpa [own] using name⟩
  · show v.connections.lookup n = some c ↔ c ∈ s'.holder.conns ∧ _
    rw [spec.holder, inv.entries]
    refine and_congr_right fun mem => ?_
    show _ ↔ n = Function.update v.name _ _ c
    rw [Function.update_of_ne (Nat.ne_of_lt (inv.system.bound c mem))]

theorem Named.step {l : Label × InetAddr} (inv : Named v) (good : ClosesInserted v l)
    (taken : v.step cb l = some v') : Named v' := by
  obtain ⟨l, peer⟩ := l
  obtain ⟨scope, inserted, small⟩ := good
  obtain ⟨s', ran, rfl⟩ := Option.map_eq_some_iff.mp taken
  have system : MapInv s' := inv.system.step scope inserted ran
  have beside : (∀ L answer, l ≠ .run L answer) → l ≠ .accept →
      Named ⟨s', v.name, v.connections⟩ := fun noRun noAccept => by
    have keeps := stepKeeps_of_step inv.system.server inv.system.pending scope inserted noRun
      noAccept ran
    refine ⟨system, ?_, fun c bound => inv.named c (keeps.nextConnId ▸ bound), fun n c => ?_⟩
    · show s'.nextConnId < 2 ^ 31
      rw [keeps.nextConnId]
      exact inv.bound
    · show _ ↔ c ∈ s'.holder.conns ∧ _
      rw [keeps.holder]
      exact inv.entries n c
  cases l with
  | run L answer =>
    simp only [System.step] at ran
    split at ran
    · cases ran
    · next f rest here =>
      obtain ⟨⟨frames, t⟩, moved, rfl⟩ := Option.map_eq_some_iff.mp ran
      have placed : f.Placed L :=
        inv.system.placed L f (List.mem_append_left _ (here ▸ List.mem_cons_self))
      obtain ⟨made, effect⟩ := frameEffect_of_frameStep inv.system.server placed moved
      have named := inv.run here moved effect rfl system
      simpa [System.top, here] using named
  | accept =>
    obtain ⟨-, ran⟩ := Option.ite_none_right_eq_some.mp ran
    simpa using inv.accept (acceptSpec_of_acceptStep inv.system.server ran) system (small rfl)
  | _ => exact beside (by simp) (by simp)

theorem named_start (ioLoops : Nat) : Named (start ioLoops) where
  system := mapInv_start ioLoops
  bound := show 0 < 2 ^ 31 by decide
  named c below := absurd below (Nat.not_lt_zero c)
  entries := by simp [start, System.start, Holder.conns]

theorem named_reachable {ioLoops : Nat}
    (reached : Reaches (step cb) ClosesInserted (start ioLoops) v) : Named v :=
  reached.invariant (named_start ioLoops) fun _ _ _ _ inv good taken => inv.step good taken

/-- An entry goes only in the erasure of its connection. -/
theorem Named.removed (inv : Named v) {l : Label × InetAddr} {n : Name} {c : ConnId}
    (taken : v.step cb l = some v') (before : v.connections.lookup n = some c)
    (gone : v'.connections.lookup n ≠ some c) :
    (∃ answer, l.1 = .run 0 answer) ∧ v.system.top 0 = some (.handleCloseInLoop c) := by
  obtain ⟨l, peer⟩ := l
  obtain ⟨s', ran, rfl⟩ := Option.map_eq_some_iff.mp taken
  cases l with
  | run L answer =>
    cases top : v.system.top L with
    | none =>
      simp [top, before] at gone
    | some f =>
      have mem : f ∈ (v.system.loops L).stack := List.mem_of_mem_head? top
      replace gone : (v.mapStep f).lookup n ≠ some c := by simpa [top] using gone
      obtain ⟨mem', name⟩ := (inv.entries n c).mp before
      have c_lt := inv.system.bound c mem'
      have ok := inv.system.sound.frames L f mem
      have placed := inv.system.placed L f (List.mem_append_left _ mem)
      cases f with
      | newConnection d pc =>
        cases pc with
        | enable => exact absurd before gone
        | insert =>
          refine absurd ?_ gone
          simp only [Server.mapStep]
          by_cases own : n = v.name d
          · have same : d = c := inv.name_injective ok.1 c_lt (own.symm.trans name)
            rw [own, AList.lookup_insert, same]
          · rw [AList.lookup_insert_ne own, before]
      | handleCloseInLoop d =>
        obtain rfl : L = 0 := placed
        simp only [Server.mapStep] at gone
        by_cases own : n = v.name d
        · have d_lt := inv.system.sound.bound d (System.Closed.begun ok)
          have same : d = c := inv.name_injective d_lt c_lt (own.symm.trans name)
          exact ⟨⟨answer, rfl⟩, by rw [top, same]⟩
        · rw [AList.lookup_erase_ne own] at gone
          exact absurd before gone
      | _ => exact absurd before gone
  | _ => exact absurd before gone

/-- When the first callback of no connection closes it, the map of the server has exactly the
connections that are not closed, and each of them is taken out by its own close. -/
theorem mapExact_of_closesInserted {ioLoops : Nat}
    (reached : Reaches (step cb) ClosesInserted (start ioLoops) v) : MapExact cb v := by
  have inv := named_reachable reached
  refine ⟨fun c quiet n => ?_, fun c c_lt d d_lt => inv.name_injective c_lt d_lt,
    fun l v' n c taken before gone => inv.removed taken before gone⟩
  rw [inv.entries, inv.system.mem_iff quiet]
  exact and_comm

instance (loop : Loop) (c : ConnId) : Decidable (loop.Creates c) :=
  decidable_of_iff (.newConnection c .enable ∈ loop.stack ∨ .newConnection c .insert ∈ loop.stack)
    ⟨fun mem => mem.elim (fun mem => ⟨_, mem⟩) fun mem => ⟨_, mem⟩, fun ⟨pc, mem⟩ => by
      cases pc with
      | enable => exact Or.inl mem
      | insert => exact Or.inr mem⟩

instance : ∀ l : Label, Decidable (Endpoint.InScope l)
  | .begin _ _ .shutdown => isFalse id
  | .begin _ _ .send | .begin _ _ .forceClose | .run _ _ | .ret _ | .next _ | .poll _ _ | .accept
  | .call _ _ _ | .resume _ | .take _ | .copy _ | .release _ | .addTask _ | .clientSend
  | .queueSend => isTrue trivial

instance (s : System) : ∀ l : Label, Decidable (Endpoint.ClosesInserted s l)
  | .call L c .forceClose => inferInstanceAs (Decidable ¬(s.loops L).Creates c)
  | .call _ _ .send | .call _ _ .shutdown | .begin _ _ _ | .run _ _ | .ret _ | .next _ | .poll _ _
  | .accept | .resume _ | .take _ | .copy _ | .release _ | .addTask _ | .clientSend
  | .queueSend => isTrue trivial

instance (v : Server) (l : Label × InetAddr) : Decidable (InScope v l) :=
  inferInstanceAs (Decidable (Endpoint.InScope l.1))

instance (v : Server) (l : Label × InetAddr) : Decidable (ClosesInserted v l) :=
  inferInstanceAs (Decidable (_ ∧ _ ∧ _))

/-- An address for the runs below. -/
def localhost : InetAddr := ⟨127, 0, 0, 1, 4000⟩

/-- The labels of a run whose peers all have one address. -/
def fromLocalhost (labels : List Label) : List (Label × InetAddr) := labels.map (·, localhost)

/-- With one I/O loop: the first callback of connection 0 closes it, and connection 1 stays. -/
theorem mapExact_after_close :
    ∃ v : Server, v.connections.lookup (connName localhost 0) = none ∧
      v.connections.lookup (connName localhost 1) = some 1 ∧
      (v.system.conns 0).state = .kDisconnected ∧ MapExact allCallbacks v := by
  obtain ⟨v, reached, closed, stays, state⟩ :
      ∃ v, Reaches (step allCallbacks) ClosesInserted (start 1) v ∧
        v.connections.lookup (connName localhost 0) = none ∧
        v.connections.lookup (connName localhost 1) = some 1 ∧
        (v.system.conns 0).state = .kDisconnected :=
    exists_reaches_of_exec
      (fromLocalhost [.ret 0, .next 0, .poll 0 [none], .next 0, .accept, .run 0 .silent,
        .poll 1 [], .next 1, .next 1, .run 1 .silent, .call 1 0 .forceClose, .run 1 .silent,
        .run 1 .silent, .run 1 .silent, .ret 1, .run 1 .silent, .run 1 .silent, .run 1 .silent,
        .run 0 .silent, .accept, .run 0 .silent, .run 0 .silent, .ret 0, .next 0, .next 0,
        .run 0 .silent])
      (by decide)
  exact ⟨v, closed, stays, state, mapExact_of_closesInserted reached⟩

/-- Without I/O loops the callback of `newConnection` runs inside of it. It closes the connection,
whose erasure finds nothing, and `newConnection` then puts the closed connection into the map, where
it stays when everything is quiet. -/
theorem closed_connection_stays :
    ∃ v, Reaches (step allCallbacks) InScope (start 0) v ∧
      (∀ L, (v.system.loops L).todo = []) ∧ (v.system.conns 0).state = .kDisconnected ∧
      v.connections.lookup (connName localhost 0) = some 0 ∧ ¬MapExact allCallbacks v := by
  obtain ⟨v, reached, idle, state, entry⟩ : ∃ v, Reaches (step allCallbacks) InScope (start 0) v ∧
      (∀ L, (v.system.loops L).todo = []) ∧ (v.system.conns 0).state = .kDisconnected ∧
      v.connections.lookup (connName localhost 0) = some 0 := by
    refine ⟨_, reaches_of_exec_guarded (fromLocalhost [.ret 0, .next 0, .poll 0 [none], .next 0,
      .accept, .run 0 .silent, .run 0 .silent, .call 0 0 .forceClose, .run 0 .silent,
      .run 0 .silent, .run 0 .silent, .ret 0, .run 0 .silent, .run 0 .silent, .run 0 .silent,
      .run 0 .silent, .run 0 .silent, .run 0 .silent, .ret 0, .run 0 .silent, .run 0 .silent,
      .ret 0, .next 0, .next 0]) rfl, fun L => ?_, rfl, rfl⟩
    cases L with
    | zero => rfl
    | succ L => rfl
  refine ⟨v, reached, idle, state, entry, fun promised => ?_⟩
  have quiet : v.system.Quiet 0 := by
    intro L f mem
    rw [idle L] at mem
    cases mem
  exact ((promised.entries 0 quiet _).mp entry).2.2 state

end Server

end Yvent.Endpoint
