import Yvent.Chat.Relay

/-!
# The chat is a group with one order of posts

What happens at the server, in its order, is a history of a group whose members are the connections
that are connected there. The bytes for a client are the frames of what it has heard in the group,
and what it has printed are the first of these messages. The posts of a client are the first of the
messages that its user has entered, up to one that is too long.
-/

namespace Yvent.Chat

open LenHeaderCodec
open Broadcast (Happening Post Seat)

variable {Conn : Type} [LinearOrder Conn] {s s' : System Conn} {g g' : Broadcast Conn Bytes}
  {c d : Conn} {k k' : Link} {message : Bytes} {messages : List Bytes} {n : Nat} {l : Label Conn}

/-- The messages that a member has heard. -/
def told (g : Broadcast Conn Bytes) (c : Conn) : List Bytes := (g.seats c).heard.map Post.message

/-- The messages that a member has posted. -/
def postsOf (g : Broadcast Conn Bytes) (c : Conn) : List Bytes :=
  (g.posts.filter fun p => p.sender = c).map Post.message

theorem told_deliver (p : Post Conn Bytes) : told (g.deliver p) c =
    told g c ++ if (g.seats c).present = true ∧ c ≠ p.sender then [p.message] else [] := by
  unfold told Broadcast.deliver Seat.hear
  dsimp only
  split
  · exact List.map_append
  · exact (List.append_nil _).symm

theorem postsOf_deliver (p : Post Conn Bytes) : postsOf (g.deliver p) c =
    postsOf g c ++ if c = p.sender then [p.message] else [] := by
  by_cases own : p.sender = c <;> simp [postsOf, Broadcast.deliver, own, Ne.symm]

theorem told_setPresent (present : Bool) : told (g.setPresent d present) c = told g c :=
  congrArg (List.map Post.message) (Broadcast.setPresent_heard g d c present)

/-- What is on its way to a client, and what it has printed. -/
structure Down (g : Broadcast Conn Bytes) (c : Conn) (k : Link) : Prop where
  present : (g.seats c).present = true ↔ k.server.state = .kConnected
  arrived : ∃ got, got ++ k.toClient = framing.stream (told g c) ∧
    framing.drain got = (k.shown, k.client.inBuffer)
  client : k.client.state ≠ .kDisconnecting

/-- What is on its way from a client, of which the server has posted `posts`. An inadmissible length
in front of `inBuffer_` is why the server shuts a connection down. -/
structure Up (posts : List Bytes) (k : Link) : Prop where
  arrived : ∃ got, got ++ k.toServer = framing.stream k.said ∧
    framing.drain got = (posts, k.server.inBuffer)
  opened : k.server.state = .kConnecting ∨ k.server.state = .kConnected →
    ¬Stopped k.server.inBuffer
  disconnecting : k.server.state = .kDisconnecting → Stopped k.server.inBuffer

/-- The group behind the history, as its members have it. -/
structure Room (s : System Conn) (g : Broadcast Conn Bytes) : Prop where
  run : exec Broadcast.step s.history .create = some g
  absent : ∀ c, s.links c = none → (g.seats c).present = false ∧ told g c = [] ∧ postsOf g c = []
  short : ∀ c, ∀ message ∈ told g c, Short message
  down : ∀ c k, s.links c = some k → Down g c k

/-- The server, its room and each link agree with the broadcast `g`. -/
structure Inv (s : System Conn) (g : Broadcast Conn Bytes) : Prop where
  fault : s.fault = none
  members : s.Members
  room : Room s g
  up : ∀ c k, s.links c = some k → Up (postsOf g c) k

/-! ## Happenings -/

theorem exec_record {h : Happening Conn Bytes} (run : exec Broadcast.step s.history .create = some g)
    (taken : g.step h = some g') :
    exec Broadcast.step (s.record h).history .create = some g' := by
  show exec Broadcast.step (s.history ++ [h]) .create = some g'
  rw [exec_append, run, Option.bind_some, exec, taken]
  rfl

theorem setLink_eq_some : (s.setLink c k').links d = some k ↔
    d = c ∧ k' = k ∨ d ≠ c ∧ s.links d = some k := by
  by_cases same : d = c <;> simp [System.setLink, same]

theorem setLink_eq_none : (s.setLink c k').links d = none ↔ d ≠ c ∧ s.links d = none := by
  by_cases same : d = c <;> simp [System.setLink, same]

namespace Room

variable (room : Room s g)

include room

/-- A link that is as good as the one before. -/
theorem setLink (down : Down g c k') : Room (s.setLink c k') g where
  run := room.run
  absent d none := room.absent d (setLink_eq_none.mp none).2
  short := room.short
  down d k link := by
    rcases setLink_eq_some.mp link with ⟨rfl, rfl⟩ | ⟨-, link⟩
    · exact down
    · exact room.down d k link

/-- A member posts a message that the receiver takes. -/
theorem relayed (here : (g.seats c).present = true) (short : Short message) :
    Room (s.relayed c message) (g.deliver ⟨c, message⟩) where
  run := by
    refine exec_record (s := s) room.run ?_
    exact if_pos here
  absent d missing := by
    have before : s.links d = none := by simpa [relayed_links] using missing
    obtain ⟨absent, told, posts⟩ := room.absent d before
    have other : d ≠ c := by
      rintro rfl
      rw [here] at absent
      cases absent
    refine ⟨?_, ?_, ?_⟩
    · exact (Seat.hear_present _).trans absent
    · rw [told_deliver, told, absent]
      simp
    · rw [postsOf_deliver, posts, if_neg other]
      rfl
  short d m mem := by
    rw [told_deliver] at mem
    rcases List.mem_append.mp mem with mem | mem
    · exact room.short d m mem
    · split at mem
      · rwa [List.mem_singleton.mp mem]
      · cases mem
  down d k' link := by
    rw [relayed_links] at link
    obtain ⟨k, before, rfl⟩ := Option.map_eq_some_iff.mp link
    obtain ⟨present, ⟨got, bytes, drained⟩, client⟩ := room.down d k before
    have seat : ((g.deliver ⟨c, message⟩).seats d).present = (g.seats d).present :=
      Seat.hear_present _
    by_cases own : c = d
    · rw [if_neg (not_not_intro own)]
      refine ⟨by rw [seat, present], ⟨got, ?_, drained⟩, client⟩
      rw [told_deliver, if_neg fun both => both.2 own.symm, List.append_nil, bytes]
    · rw [if_pos own]
      have apart : d ≠ c := fun same => own same.symm
      by_cases connected : k.server.state = .kConnected
      · have sent : k.serverSend (frame message) =
            { k with toClient := k.toClient ++ frame message } := if_pos connected
        rw [sent]
        refine ⟨by rw [seat, present], ⟨got, ?_, drained⟩, client⟩
        rw [told_deliver, if_pos ⟨present.mpr connected, apart⟩, Framing.stream_append, ← bytes,
          List.append_assoc, Framing.stream_cons, Framing.stream_nil, List.append_nil]
        rfl
      · have kept : k.serverSend (frame message) = k := if_neg connected
        rw [kept]
        refine ⟨by rw [seat, present], ⟨got, ?_, drained⟩, client⟩
        rw [told_deliver, if_neg fun both => connected (present.mp both.1), List.append_nil, bytes]

/-- A member that is no longer connected has left. -/
theorem setServer (link : s.links c = some k) {state : ConnectionState}
    (offline : state ≠ .kConnected) :
    ∃ g', Room (s.setServer c k state) g' ∧ ∀ d, postsOf g' d = postsOf g d := by
  obtain ⟨present, arrived, client⟩ := room.down c k link
  by_cases connected : k.server.state = .kConnected
  · have left : s.setServer c k state = (s.setLink c (k.setServer state)).record (.leave c) :=
      if_pos connected
    refine ⟨g.setPresent c false, ?_, fun _ => rfl⟩
    rw [left]
    refine ⟨?_, ?_, ?_, ?_⟩
    · exact exec_record (s := s.setLink c (k.setServer state)) room.run
        (if_pos (present.mpr connected))
    · intro d none
      obtain ⟨other, none⟩ := setLink_eq_none.mp none
      obtain ⟨absent, told, posts⟩ := room.absent d none
      refine ⟨by simpa [Broadcast.setPresent, other] using absent, ?_, posts⟩
      rw [told_setPresent, told]
    · intro d m mem
      rw [told_setPresent] at mem
      exact room.short d m mem
    · intro d k' link'
      rcases setLink_eq_some.mp link' with ⟨rfl, rfl⟩ | ⟨other, link'⟩
      · refine ⟨by simp [Broadcast.setPresent, Link.setServer, offline], ?_, client⟩
        rw [told_setPresent]
        exact arrived
      · obtain ⟨present', arrived', client'⟩ := room.down d k' link'
        refine ⟨by simpa [Broadcast.setPresent, other] using present', ?_, client'⟩
        rw [told_setPresent]
        exact arrived'
  · have kept : s.setServer c k state = s.setLink c (k.setServer state) := if_neg connected
    refine ⟨g, ?_, fun _ => rfl⟩
    rw [kept]
    refine room.setLink ⟨?_, arrived, client⟩
    constructor
    · intro here
      exact absurd (present.mp here) connected
    · exact fun same => absurd same offline

end Room

/-- Relaying does not touch the connection that the messages come from. -/
theorem relayedAll_own (s : System Conn) (c : Conn) (messages : List Bytes) :
    (s.relayedAll c messages).links c = s.links c := by
  induction messages generalizing s with
  | nil => rfl
  | cons message messages ih =>
    rw [System.relayedAll, ih, relayed_links]
    simp

/-- The messages of a read are posted one after another. -/
theorem Room.relayedAll (room : Room s g) (here : (g.seats c).present = true ∨ messages = [])
    (short : ∀ message ∈ messages, Short message) :
    ∃ g', Room (s.relayedAll c messages) g' ∧
      ∀ d, postsOf g' d = postsOf g d ++ if d = c then messages else [] := by
  induction messages generalizing s g with
  | nil => exact ⟨g, room, fun d => by simp⟩
  | cons message messages ih =>
    obtain ⟨first, others⟩ := List.forall_mem_cons.mp short
    have present : (g.seats c).present = true := by simpa using here
    have still : ((g.deliver ⟨c, message⟩).seats c).present = true :=
      (Seat.hear_present _).trans present
    obtain ⟨g', room', posts⟩ := ih (room.relayed present first) (Or.inl still) others
    refine ⟨g', room', fun d => ?_⟩
    rw [posts, postsOf_deliver]
    by_cases own : d = c <;> simp [own]

theorem setServer_frame (s : System Conn) (c : Conn) (k : Link) (state : ConnectionState) :
    (s.setServer c k state).links = (s.setLink c (k.setServer state)).links ∧
      (s.setServer c k state).connections = s.connections ∧
      (s.setServer c k state).fault = s.fault := by
  unfold System.setServer
  split <;> exact ⟨rfl, rfl, rfl⟩

/-- The codec shuts a connection down when an inadmissible length is in front of `rest`. -/
theorem Room.shut {rest : Bytes} (room : Room s g) (link : s.links c = some k)
    (online : reads k.server.state = true)
    (before : k.server.state = .kDisconnecting → Stopped rest) :
    ∃ g' state, Room (if Stopped rest then s.shutdown c else s) g' ∧
      (∀ d, postsOf g' d = postsOf g d) ∧
      (if Stopped rest then s.shutdown c else s).connections = s.connections ∧
      (if Stopped rest then s.shutdown c else s).fault = s.fault ∧
      (if Stopped rest then s.shutdown c else s).links = (s.setLink c (k.setServer state)).links ∧
      reads state = true ∧ (state = .kConnecting ∨ state = .kConnected → ¬Stopped rest) ∧
      (state = .kDisconnecting → Stopped rest) := by
  have same : s.links = (s.setLink c (k.setServer k.server.state)).links := by
    show s.links = Function.update s.links c (some k)
    rw [← link, Function.update_eq_self]
  by_cases stopped : Stopped rest
  · rw [if_pos stopped]
    by_cases connected : k.server.state = .kConnected
    · have shut : s.shutdown c = s.setServer c k .kDisconnecting := by
        rw [System.shutdown, link]
        exact if_pos connected
      have offline : ConnectionState.kDisconnecting ≠ .kConnected := nofun
      obtain ⟨g', room', posts⟩ := room.setServer link offline
      obtain ⟨links, connections, fault⟩ := setServer_frame s c k .kDisconnecting
      rw [shut]
      exact ⟨g', .kDisconnecting, room', posts, connections, fault, links, rfl, by simp,
        fun _ => stopped⟩
    · have shut : s.shutdown c = s := by
        rw [System.shutdown, link]
        exact if_neg connected
      have closing : k.server.state ≠ .kConnecting := by
        intro connecting
        rw [connecting] at online
        cases online
      rw [shut]
      exact ⟨g, k.server.state, room, fun _ => rfl, rfl, rfl, same, online, by simp [connected, closing],
        fun _ => stopped⟩
  · rw [if_neg stopped]
    exact ⟨g, k.server.state, room, fun _ => rfl, rfl, rfl, same, online, fun _ => stopped, before⟩

/-! ## Steps -/

theorem members_setLink (members : s.Members)
    (same : c ∈ s.connections ↔ reads k'.server.state = true) : (s.setLink c k').Members := by
  intro d
  by_cases own : d = c
  · subst own
    simpa [System.setLink] using same
  · simpa [System.setLink, own] using members d

theorem online_iff (members : s.Members) (link : s.links c = some k) :
    c ∈ s.connections ↔ reads k.server.state = true := by
  rw [members c, link]
  simp

theorem relayedAll_frame (s : System Conn) (c : Conn) (messages : List Bytes) :
    (s.relayedAll c messages).connections = s.connections ∧
      (s.relayedAll c messages).fault = s.fault ∧
      ∀ d k', (s.relayedAll c messages).links d = some k' → ∃ k, s.links d = some k ∧
        k'.server = k.server ∧ k'.said = k.said ∧ k'.toServer = k.toServer := by
  induction messages generalizing s with
  | nil => exact ⟨rfl, rfl, fun d k link => ⟨k, link, rfl, rfl, rfl⟩⟩
  | cons message messages ih =>
    obtain ⟨connections, fault, links⟩ := ih (s.relayed c message)
    refine ⟨connections, fault, fun d k' link' => ?_⟩
    obtain ⟨k, link, server, said, toServer⟩ := links d k' link'
    rw [relayed_links] at link
    obtain ⟨k₀, before, rfl⟩ := Option.map_eq_some_iff.mp link
    refine ⟨k₀, before, ?_⟩
    rw [server, said, toServer]
    unfold Link.serverSend
    split
    · split <;> exact ⟨rfl, rfl, rfl⟩
    · exact ⟨rfl, rfl, rfl⟩

theorem foldlM_print (messages : List Bytes) (k : Link) :
    messages.foldlM (fun k message => Link.print message k) k =
      .ok { k with shown := k.shown ++ messages } := by
  induction messages generalizing k with
  | nil =>
    rw [List.append_nil]
    rfl
  | cons message messages ih =>
    rw [List.foldlM_cons, Link.print, Buffer.ok_bind, ih, List.append_assoc]
    rfl

/-- A read at the server relays the messages that are drained. -/
theorem serverRead_eq (members : s.Members) (link : s.links c = some k) (n : Nat) :
    s.serverRead c k n =
      let drained := decoder.drain (k.server.inBuffer ++ k.toServer.take n)
      let s₁ := (s.setLink c { k with toServer := k.toServer.drop n }).relayedAll c drained.1
      (if Stopped drained.2 then s₁.shutdown c else s₁).setBuffer c drained.2 := by
  have inSet := online_iff members link
  have set : (s.setLink c { k with toServer := k.toServer.drop n }).Members :=
    members_setLink members inSet
  rw [System.serverRead, onMessageWith_eq, foldlM_onMessage set (short_of_drain _)]
  rfl

theorem drain_nil : framing.drain [] = ([], []) := Decoder.drain_of_none Decoder.next_nil

/-- Bytes that are read go on where the decoder has stopped. -/
theorem drain_read {got buffer : Bytes} (drained : framing.drain got = (messages, buffer))
    (chunk : Bytes) :
    framing.drain (got ++ chunk) = (messages ++ (decoder.drain (buffer ++ chunk)).1,
      (decoder.drain (buffer ++ chunk)).2) := by
  have more := Decoder.drain_append (d := framing.toDecoder) got chunk
  rw [drained] at more
  exact more

theorem Up.short_of_stopped {posts : List Bytes} (up : Up posts k) (stopped : Stopped k.server.inBuffer) :
    ∃ message ∈ k.said, ¬Short message := by
  obtain ⟨got, bytes, drained⟩ := up.arrived
  by_contra none
  push Not at none
  have stuck := Framing.not_stuck (f := framing) none ⟨k.toServer, bytes⟩
  rw [drained] at stuck
  exact stuck (stuck_of_stopped stopped)

namespace Inv

variable (inv : Inv s g)

include inv

/-- A link that is as good as the one before. -/
theorem setLink (down : Down g c k') (up : Up (postsOf g c) k')
    (same : c ∈ s.connections ↔ reads k'.server.state = true) : Inv (s.setLink c k') g where
  fault := inv.fault
  members := members_setLink inv.members same
  room := inv.room.setLink down
  up d k link := by
    rcases setLink_eq_some.mp link with ⟨rfl, rfl⟩ | ⟨-, before⟩
    · exact up
    · exact inv.up d k before

theorem connect (missing : s.links c = none) : Inv (s.setLink c .create) g := by
  obtain ⟨absent, told, posts⟩ := inv.room.absent c missing
  have offline : c ∉ s.connections := fun mem => by
    obtain ⟨k, link, -⟩ := (inv.members c).mp mem
    rw [missing] at link
    cases link
  refine inv.setLink ⟨?_, ⟨[], ?_, drain_nil⟩, nofun⟩ ⟨⟨[], rfl, ?_⟩, fun _ => by decide, nofun⟩ ?_
  · rw [absent]
    exact ⟨nofun, nofun⟩
  · rw [told]
    rfl
  · rw [posts]
    exact drain_nil
  · exact ⟨fun mem => absurd mem offline, nofun⟩

theorem accept (link : s.links c = some k) (here : k.server.state = .kConnecting) :
    Inv (((s.setLink c (k.setServer .kConnected)).onConnection c true).record (.join c))
      (g.setPresent c true) := by
  obtain ⟨present, arrived, client⟩ := inv.room.down c k link
  have up := inv.up c k link
  have absent : (g.seats c).present = false := by
    by_contra online
    rw [Bool.not_eq_false, present, here] at online
    cases online
  have joins : g.step (.join c) = some (g.setPresent c true) := if_neg (by simp [absent])
  refine ⟨inv.fault, ?_, ⟨exec_record (s := s) inv.room.run joins, ?_, ?_, ?_⟩, ?_⟩
  · intro d
    show d ∈ s.connections.insert c ↔ ∃ k', (s.setLink c _).links d = some k' ∧ _
    rw [OrderedSet.mem_insert]
    by_cases own : d = c
    · simp [own, System.setLink, Link.setServer, reads]
    · simpa [own, System.setLink] using inv.members d
  · intro d missing
    obtain ⟨other, before⟩ := setLink_eq_none.mp missing
    obtain ⟨absent, told, posts⟩ := inv.room.absent d before
    refine ⟨by simpa [Broadcast.setPresent, other] using absent, ?_, posts⟩
    rw [told_setPresent, told]
  · intro d message mem
    rw [told_setPresent] at mem
    exact inv.room.short d message mem
  · intro d k' link'
    rcases setLink_eq_some.mp link' with ⟨rfl, rfl⟩ | ⟨other, before⟩
    · refine ⟨by simp [Broadcast.setPresent, Link.setServer], ?_, client⟩
      rw [told_setPresent]
      exact arrived
    · obtain ⟨present', arrived', client'⟩ := inv.room.down d k' before
      refine ⟨by simpa [Broadcast.setPresent, other] using present', ?_, client'⟩
      rw [told_setPresent]
      exact arrived'
  · intro d k' link'
    rcases setLink_eq_some.mp link' with ⟨rfl, rfl⟩ | ⟨-, before⟩
    · exact ⟨up.arrived, fun _ => up.opened (Or.inl here), by simp [Link.setServer]⟩
    · exact inv.up d k' before

theorem say {bytes : Bytes} (link : s.links c = some k)
    (sent : LenHeaderCodec.send message = .ok bytes) :
    Inv (s.setLink c { k with
      toServer := k.toServer ++ bytes, said := k.said ++ [message] }) g := by
  obtain ⟨present, arrived, client⟩ := inv.room.down c k link
  obtain ⟨⟨got, stream, drained⟩, opened, disconnecting⟩ := inv.up c k link
  have online := online_iff inv.members link
  refine inv.setLink ⟨present, arrived, client⟩
    ⟨⟨got, ?_, drained⟩, opened, disconnecting⟩ online
  rw [Framing.stream_append, ← stream, eq_frame_of_send sent, List.append_assoc,
    Framing.stream_cons, Framing.stream_nil, List.append_nil]
  rfl

theorem clientClose (link : s.links c = some k) :
    Inv (s.setLink c { k with client := { k.client with state := .kDisconnected } }) g := by
  obtain ⟨present, arrived, -⟩ := inv.room.down c k link
  have up := inv.up c k link
  have online := online_iff inv.members link
  exact inv.setLink ⟨present, arrived, nofun⟩ ⟨up.arrived, up.opened, up.disconnecting⟩ online

/-- The server is done with a connection that was connected or shut down. -/
theorem serverClose (link : s.links c = some k) :
    ∃ g', Inv ((s.setServer c k .kDisconnected).onConnection c false) g' := by
  have offline : ConnectionState.kDisconnected ≠ .kConnected := nofun
  obtain ⟨g', room, posts⟩ := inv.room.setServer link offline
  obtain ⟨links, connections, fault⟩ := setServer_frame s c k .kDisconnected
  refine ⟨g', fault.trans inv.fault, ?_, ⟨room.run, room.absent, room.short, room.down⟩, ?_⟩
  · intro d
    show d ∈ (s.setServer c k .kDisconnected).connections.erase c ↔
      ∃ k', (s.setServer c k .kDisconnected).links d = some k' ∧ _
    rw [connections, links, OrderedSet.mem_erase]
    by_cases own : d = c
    · simp [own, System.setLink, Link.setServer, reads]
    · simpa [own, System.setLink] using inv.members d
  · intro d k' link'
    rw [posts]
    have link' : (s.setLink c (k.setServer .kDisconnected)).links d = some k' := links ▸ link'
    rcases setLink_eq_some.mp link' with ⟨rfl, rfl⟩ | ⟨-, before⟩
    · exact ⟨(inv.up d k link).arrived, by simp [Link.setServer], nofun⟩
    · exact inv.up d k' before

/-- What a client reads it prints, and no length is inadmissible. -/
theorem clientRead (link : s.links c = some k) (n : Nat) : Inv (s.clientRead c k n) g := by
  obtain ⟨present, ⟨got, bytes, drained⟩, client⟩ := inv.room.down c k link
  have up := inv.up c k link
  have online := online_iff inv.members link
  have whole : got ++ k.toClient.take n ++ k.toClient.drop n = framing.stream (told g c) := by
    rw [List.append_assoc, List.take_append_drop, bytes]
  have read := drain_read drained (k.toClient.take n)
  have admissible : ¬Stopped (decoder.drain (k.client.inBuffer ++ k.toClient.take n)).2 := by
    have stuck := Framing.not_stuck (f := framing) (inv.room.short c) ⟨_, whole⟩
    rw [read] at stuck
    exact fun stopped => stuck (stuck_of_stopped stopped)
  rw [System.clientRead, onMessageWith_eq, foldlM_print]
  simp only [Except.map, if_neg admissible]
  exact inv.setLink ⟨present, ⟨_, whole, read⟩, client⟩
    ⟨up.arrived, up.opened, up.disconnecting⟩ online

/-- The messages that were drained are posted, and `rest` is left in the buffer. -/
theorem posted {toServer rest : Bytes} (link : s.links c = some k)
    (online : reads k.server.state = true)
    (arrived : ∃ got, got ++ toServer = framing.stream k.said ∧
      framing.drain got = (postsOf g c ++ messages, rest))
    (here : (g.seats c).present = true ∨ messages = [])
    (short : ∀ message ∈ messages, Short message)
    (before : k.server.state = .kDisconnecting → Stopped rest) {s₁ : System Conn}
    (relayed : s₁ = (s.setLink c { k with toServer }).relayedAll c messages) :
    ∃ g', Inv ((if Stopped rest then s₁.shutdown c else s₁).setBuffer c rest) g' := by
  obtain ⟨present, down, client⟩ := inv.room.down c k link
  have room : Room (s.setLink c { k with toServer }) g :=
    inv.room.setLink ⟨present, down, client⟩
  obtain ⟨g₁, room₁, posts₁⟩ := room.relayedAll here short
  obtain ⟨connections₁, fault₁, links₁⟩ :=
    relayedAll_frame (s.setLink c { k with toServer }) c messages
  have own : s₁.links c = some { k with toServer } := by
    rw [relayed, relayedAll_own]
    exact Function.update_self ..
  have inSet := online_iff inv.members link
  have set : (s.setLink c { k with toServer }).Members := members_setLink inv.members inSet
  have members₁ := set.relayedAll c messages
  rw [← relayed] at room₁ connections₁ fault₁ links₁ members₁
  obtain ⟨g₂, state, room₂, posts₂, connections₂, fault₂, links₂, reads₂, opened, shut⟩ :=
    room₁.shut own online before
  have link₂ : (if Stopped rest then s₁.shutdown c else s₁).links c =
      some (Link.setServer { k with toServer } state) := by
    rw [links₂]
    exact Function.update_self ..
  have last : (if Stopped rest then s₁.shutdown c else s₁).setBuffer c rest =
      (if Stopped rest then s₁.shutdown c else s₁).setLink c
        { k with toServer, server := { state, inBuffer := rest } } := by
    rw [System.setBuffer, link₂]
    rfl
  obtain ⟨present₂, down₂, client₂⟩ := room₂.down c _ link₂
  rw [last]
  refine ⟨g₂, fault₂.trans (fault₁.trans inv.fault), ?_, room₂.setLink ⟨present₂, down₂, client₂⟩, ?_⟩
  · intro d
    show d ∈ (if Stopped rest then s₁.shutdown c else s₁).connections ↔ _
    rw [connections₂, connections₁]
    by_cases same : d = c
    · subst same
      simp only [System.setLink, Function.update_self, Option.some.injEq]
      constructor
      · exact fun _ => ⟨_, rfl, reads₂⟩
      · exact fun _ => inSet.mpr online
    · have others := members₁ d
      rw [connections₁] at others
      simpa [System.setLink, links₂, same] using others
  · intro d k' link'
    rw [posts₂, posts₁]
    rcases setLink_eq_some.mp link' with ⟨rfl, rfl⟩ | ⟨other, before'⟩
    · rw [if_pos rfl]
      exact ⟨arrived, opened, shut⟩
    · rw [if_neg other, List.append_nil]
      have before₁ : s₁.links d = some k' := by simpa [links₂, System.setLink, other] using before'
      obtain ⟨k₀, link₀, server, said, toServer'⟩ := links₁ d k' before₁
      have link₀ : s.links d = some k₀ := by simpa [System.setLink, other] using link₀
      obtain ⟨arrived', opened', disconnecting'⟩ := inv.up d k₀ link₀
      exact ⟨by rwa [said, toServer', server], by rwa [server], by rwa [server]⟩

/-- What the server reads from a client is posted. -/
theorem serverRead (link : s.links c = some k) (online : reads k.server.state = true) (n : Nat) :
    ∃ g', Inv (s.serverRead c k n) g' := by
  obtain ⟨present, -, -⟩ := inv.room.down c k link
  obtain ⟨⟨got, bytes, drained⟩, -, disconnecting⟩ := inv.up c k link
  have whole : got ++ k.toServer.take n ++ k.toServer.drop n = framing.stream k.said := by
    rw [List.append_assoc, List.take_append_drop, bytes]
  have short := short_of_drain (k.server.inBuffer ++ k.toServer.take n)
  -- a connection that was shut down has an inadmissible length in front of its buffer
  have halted : k.server.state = .kDisconnecting →
      decoder.drain (k.server.inBuffer ++ k.toServer.take n) =
        ([], k.server.inBuffer ++ k.toServer.take n) := fun state =>
    (disconnecting state).drain _
  have here : (g.seats c).present = true ∨
      (decoder.drain (k.server.inBuffer ++ k.toServer.take n)).1 = [] := by
    cases state : k.server.state with
    | kConnected => exact Or.inl (present.mpr state)
    | kDisconnecting => exact Or.inr (congrArg Prod.fst (halted state))
    | kConnecting | kDisconnected =>
      rw [state] at online
      cases online
  have stays : k.server.state = .kDisconnecting →
      Stopped (decoder.drain (k.server.inBuffer ++ k.toServer.take n)).2 := fun state => by
    rw [halted state]
    exact (disconnecting state).append _
  rw [serverRead_eq inv.members link]
  exact inv.posted link online ⟨_, whole, drain_read drained _⟩ here short stays rfl

theorem step (taken : s.step l = some s') : ∃ g', Inv s' g' := by
  cases l with
  | connect c =>
    simp only [System.step] at taken
    split at taken
    · next missing =>
      cases taken
      exact ⟨g, inv.connect missing⟩
    · cases taken
  | accept c =>
    obtain ⟨k, link, taken⟩ := Option.bind_eq_some_iff.mp taken
    split at taken
    · next here =>
      cases taken
      exact ⟨_, inv.accept link here⟩
    · cases taken
  | say c message =>
    obtain ⟨k, link, taken⟩ := Option.bind_eq_some_iff.mp taken
    split at taken
    · split at taken
      · next bytes sent =>
        cases taken
        exact ⟨g, inv.say link sent⟩
      · cases taken
    · cases taken
  | serverRead c n =>
    obtain ⟨k, link, taken⟩ := Option.bind_eq_some_iff.mp taken
    split at taken
    · next ready =>
      cases taken
      exact inv.serverRead link ready.1 n
    · cases taken
  | clientRead c n =>
    obtain ⟨k, link, taken⟩ := Option.bind_eq_some_iff.mp taken
    split at taken
    · cases taken
      exact ⟨g, inv.clientRead link n⟩
    · cases taken
  | serverClose c =>
    obtain ⟨k, link, taken⟩ := Option.bind_eq_some_iff.mp taken
    split at taken
    · cases taken
      exact inv.serverClose link
    · cases taken
  | clientClose c =>
    obtain ⟨k, link, taken⟩ := Option.bind_eq_some_iff.mp taken
    split at taken
    · cases taken
      exact ⟨g, inv.clientClose link⟩
    · cases taken

end Inv

end Yvent.Chat
