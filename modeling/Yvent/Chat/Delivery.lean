import Yvent.Chat.Refinement

/-!
# What the users of the chat see

A client prints the messages that the others have posted while it was connected, in the order of the
server, each once, and all of them once nothing is on its way. A user's own lines are posted in
their order, up to one that is too long.
-/

namespace Yvent.Chat

open LenHeaderCodec
open Broadcast (Happening Post posted others)

variable {Conn : Type} [LinearOrder Conn] {s s' s'' : System Conn} {g g' : Broadcast Conn Bytes}
  {c d : Conn} {k k' : Link} {messages : List Bytes} {l : Label Conn}
  {news news' : List (Happening Conn Bytes)} {state : ConnectionState}

/-! ## Runs -/

theorem Inv.start : Inv (.start : System Conn) .create where
  fault := rfl
  members _ := ⟨fun mem => absurd mem List.not_mem_nil, nofun⟩
  room := ⟨rfl, fun _ _ => ⟨rfl, rfl, rfl⟩, fun _ => List.forall_mem_nil _, fun _ _ => nofun⟩
  up _ _ := nofun

theorem exists_inv (reached : Reaches System.step anyStep .start s) : ∃ g, Inv s g := by
  refine reached.invariant (I := fun s => ∃ g, Inv s g) ⟨.create, Inv.start⟩ ?_
  rintro t l u - ⟨g, inv⟩ - taken
  exact inv.step taken

omit [LinearOrder Conn] in
theorem Down.shown_prefix (down : Down g c k) (short : ∀ message ∈ told g c, Short message) :
    k.shown <+: told g c := by
  obtain ⟨got, bytes, drained⟩ := down.arrived
  have first := Framing.drain_prefix (f := framing) short ⟨k.toClient, bytes⟩
  rwa [drained] at first

omit [LinearOrder Conn] in
theorem Down.shown_eq (down : Down g c k) (short : ∀ message ∈ told g c, Short message)
    (idle : k.toClient = []) : k.shown = told g c := by
  obtain ⟨got, bytes, drained⟩ := down.arrived
  rw [idle, List.append_nil] at bytes
  have all := Framing.drain_stream (f := framing) short
  rw [← bytes, drained] at all
  exact congrArg Prod.fst all

theorem Room.posts (room : Room s g) : g.posts = posted s.history :=
  Broadcast.posts_exec room.run

/-- What has been posted of the lines of a user. -/
def postedBy (c : Conn) (history : List (Happening Conn Bytes)) : List Bytes :=
  ((posted history).filter fun p => p.sender = c).map Post.message

theorem Room.postsOf_eq (room : Room s g) (c : Conn) : postsOf g c = postedBy c s.history := by
  rw [postsOf, postedBy, room.posts]

/-- Every run of the chat is one of the group. No callback fails, and a client that is connected to
the server is a member. What it has printed are the first of the messages it has heard there, all of
them when nothing is on its way. -/
theorem chat_refines_broadcast (reached : Reaches System.step anyStep .start s) :
    s.fault = none ∧ ∃ g, exec Broadcast.step s.history .create = some g ∧
      ∀ c k, s.links c = some k →
        ((g.seats c).present = true ↔ k.server.state = .kConnected) ∧
        k.shown <+: told g c ∧ (k.toClient = [] → k.shown = told g c) ∧
        k.shown.Sublist ((others c (posted s.history)).map Post.message) ∧
        k.client.state ≠ .kDisconnecting := by
  obtain ⟨g, inv⟩ := exists_inv reached
  refine ⟨inv.fault, g, inv.room.run, fun c k link => ?_⟩
  have down := inv.room.down c k link
  have short := inv.room.short c
  have shown := down.shown_prefix short
  refine ⟨down.present, shown, down.shown_eq short, ?_, down.client⟩
  have none : (((.create : Broadcast Conn Bytes).seats c).heard).Sublist (others c []) :=
    List.nil_sublist _
  have heard := Broadcast.heard_sublist none inv.room.run
  rw [inv.room.posts] at heard
  exact shown.sublist.trans (heard.map _)

/-- Two users are online, and a line of the first one has reached the second. -/
def greeting : List (Label Nat) :=
  [.connect 0, .accept 0, .connect 1, .accept 1, .say 0 [104, 105], .serverRead 0 4,
    .serverRead 0 2, .clientRead 1 6]

/-- A run of the labels to a state that was computed. -/
theorem exists_run {p : System Nat → Prop} [DecidablePred p] (labels : List (Label Nat))
    (run : (exec (guarded System.step anyStep) labels .start).any (fun s => decide (p s)) = true) :
    ∃ s, Reaches System.step anyStep .start s ∧ p s := exists_reaches_of_exec labels run

theorem chat_refines_broadcast_greeting : ∃ s : System Nat,
    s.fault = none ∧ (∃ k, s.links 1 = some k ∧ k.shown = [[104, 105]]) ∧
    ∃ g, exec Broadcast.step s.history .create = some g := by
  obtain ⟨s, reached, shown⟩ := exists_run
    (p := fun s => (s.links 1).map Link.shown = some [[104, 105]]) greeting (by decide +kernel)
  obtain ⟨fine, g, run, -⟩ := chat_refines_broadcast reached
  exact ⟨s, fine, Option.map_eq_some_iff.mp shown, g, run⟩

/-! ## The lines of a user -/

/-- The lines that have been posted are the first of those that a user has entered, up to one that
the receiver does not take, and are all of these when nothing is on its way. Only for such a line
does the server shut a connection down. The header holds a length below `2 ^ 31`. -/
theorem posts_prefix_said (reached : Reaches System.step anyStep .start s)
    (link : s.links c = some k) (fits : ∀ message ∈ k.said, message.length < 2 ^ 31) :
    postedBy c s.history <+: k.said.takeWhile (Short ·) ∧
      (k.toServer = [] → postedBy c s.history = k.said.takeWhile (Short ·)) ∧
      (k.server.state = .kDisconnecting → ∃ message ∈ k.said, ¬Short message) := by
  obtain ⟨g, inv⟩ := exists_inv reached
  have up := inv.up c k link
  obtain ⟨got, bytes, drained⟩ := up.arrived
  have either : ∀ message ∈ k.said, framing.Takes message ∨ framing.Rejects message := by
    intro message mem
    by_cases short : Short message
    · exact Or.inl short
    · exact Or.inr (rejects_of_length (Nat.lt_of_not_le short) (fits message mem))
  have all := Framing.drain_stream_takeWhile either
  rw [← inv.room.postsOf_eq c]
  refine ⟨?_, ?_, fun shut => up.short_of_stopped (up.disconnecting shut)⟩
  · have first := Decoder.drain_mono (d := framing.toDecoder) ⟨k.toServer, bytes⟩
    rw [all, drained] at first
    exact first
  · intro idle
    rw [idle, List.append_nil] at bytes
    rw [← bytes, drained] at all
    exact all

theorem posts_prefix_said_greeting : ∃ s : System Nat,
    postedBy 0 s.history = [[104, 105]].takeWhile (Short ·) := by
  obtain ⟨s, reached, entered⟩ := exists_run
    (p := fun s => (s.links 0).map (fun k => (k.toServer, k.said)) = some ([], [[104, 105]]))
    greeting (by decide +kernel)
  obtain ⟨k, link, entered⟩ := Option.map_eq_some_iff.mp entered
  obtain ⟨idle, said⟩ := Prod.mk.inj entered
  have posts := (posts_prefix_said reached link (by simp [said])).2.1 idle
  rw [said] at posts
  exact ⟨s, posts⟩

/-! ## Meanwhile -/

/-- What has happened from one state to a later one. A server that has seen a connection leave never
has it connected again. -/
structure Grows (s s' : System Conn) (news : List (Happening Conn Bytes)) : Prop where
  history : s'.history = s.history ++ news
  links : ∀ c k, s.links c = some k → ∃ k', s'.links c = some k' ∧
    k.server.state.rank ≤ k'.server.state.rank ∧
    (.leave c ∈ news → ConnectionState.kConnected.rank < k'.server.state.rank)

namespace Grows

theorem refl (s : System Conn) : Grows s s [] :=
  ⟨(List.append_nil _).symm, fun _ k link => ⟨k, link, Nat.le_refl _, nofun⟩⟩

theorem trans (first : Grows s s' news) (second : Grows s' s'' news') :
    Grows s s'' (news ++ news') where
  history := by rw [second.history, first.history, List.append_assoc]
  links c k link := by
    obtain ⟨k₁, link₁, older₁, left₁⟩ := first.links c k link
    obtain ⟨k₂, link₂, older₂, left₂⟩ := second.links c k₁ link₁
    refine ⟨k₂, link₂, older₁.trans older₂, fun left => ?_⟩
    rcases List.mem_append.mp left with left | left
    · exact (left₁ left).trans_le older₂
    · exact left₂ left

/-- One link is replaced by an older one. -/
theorem setLink (link : s.links c = some k)
    (older : k.server.state.rank ≤ k'.server.state.rank) : Grows s (s.setLink c k') [] := by
  refine ⟨(List.append_nil _).symm, fun d k₁ link₁ => ?_⟩
  by_cases same : d = c
  · subst same
    cases link.symm.trans link₁
    exact ⟨k', Function.update_self .., older, nofun⟩
  · exact ⟨k₁, (Function.update_of_ne same ..).trans link₁, Nat.le_refl _, nofun⟩

theorem record (s : System Conn) {h : Happening Conn Bytes} (stays : ∀ c, h ≠ .leave c) :
    Grows s (s.record h) [h] := by
  refine ⟨rfl, fun d k link => ⟨k, link, Nat.le_refl _, fun left => ?_⟩⟩
  exact absurd (List.mem_singleton.mp left).symm (stays d)

theorem relayedAll (s : System Conn) (c : Conn) (messages : List Bytes) :
    ∃ news, Grows s (s.relayedAll c messages) news := by
  induction messages generalizing s with
  | nil => exact ⟨[], refl s⟩
  | cons message messages ih =>
    have first : Grows s (s.relayed c message) [.post ⟨c, message⟩] := by
      refine ⟨rfl, fun d k link => ?_⟩
      have server := relayed_server s c d message
      rw [link] at server
      obtain ⟨k', link', same⟩ := Option.map_eq_some_iff.mp server
      exact ⟨k', link', by rw [same], by simp⟩
    obtain ⟨news, later⟩ := ih (s.relayed c message)
    exact ⟨_, first.trans later⟩

theorem setServer (link : s.links c = some k) (older : k.server.state.rank ≤ state.rank)
    (offline : ConnectionState.kConnected.rank < state.rank) :
    ∃ news, Grows s (s.setServer c k state) news := by
  have set : Grows s (s.setLink c (k.setServer state)) [] := setLink link older
  by_cases connected : k.server.state = .kConnected
  · have left : s.setServer c k state = (s.setLink c (k.setServer state)).record (.leave c) :=
      if_pos connected
    rw [left]
    refine ⟨[.leave c], rfl, fun d k₁ link₁ => ?_⟩
    obtain ⟨k₂, link₂, older₂, -⟩ := set.links d k₁ link₁
    refine ⟨k₂, link₂, older₂, fun gone => ?_⟩
    cases List.mem_singleton.mp gone
    cases (Function.update_self ..).symm.trans link₂
    exact offline
  · have kept : s.setServer c k state = s.setLink c (k.setServer state) := if_neg connected
    rw [kept]
    exact ⟨[], set⟩

theorem shutdown (s : System Conn) (c : Conn) : ∃ news, Grows s (s.shutdown c) news := by
  unfold System.shutdown
  split
  · next k link =>
    split
    · next connected =>
      have older : k.server.state.rank ≤ ConnectionState.kDisconnecting.rank := by
        rw [connected]
        decide
      exact setServer link older (by decide)
    · exact ⟨[], refl s⟩
  · exact ⟨[], refl s⟩

theorem setBuffer (s : System Conn) (c : Conn) (inBuffer : Bytes) :
    Grows s (s.setBuffer c inBuffer) [] := by
  refine ⟨(List.append_nil _).symm, fun d k link => ?_⟩
  by_cases same : d = c
  · subst same
    refine ⟨{ k with server := { k.server with inBuffer } }, ?_, Nat.le_refl _, nofun⟩
    rw [System.setBuffer, link]
    exact Function.update_self ..
  · exact ⟨k, (Function.update_of_ne same ..).trans link, Nat.le_refl _, nofun⟩

theorem clientRead (link : s.links c = some k) (n : Nat) : Grows s (s.clientRead c k n) [] := by
  rw [System.clientRead, onMessageWith_eq, foldlM_print]
  simp only [Except.map]
  refine setLink link ?_
  unfold Link.clientShutdown
  split
  · split <;> exact Nat.le_refl _
  · exact Nat.le_refl _

theorem serverRead (members : s.Members) (link : s.links c = some k) (n : Nat) :
    ∃ news, Grows s (s.serverRead c k n) news := by
  rw [serverRead_eq members link]
  dsimp only
  have read : Grows s (s.setLink c { k with toServer := k.toServer.drop n }) [] :=
    setLink link (Nat.le_refl _)
  obtain ⟨posts, relayed⟩ := relayedAll (s.setLink c { k with toServer := k.toServer.drop n }) c
    (decoder.drain (k.server.inBuffer ++ k.toServer.take n)).1
  split
  · obtain ⟨left, shut⟩ := shutdown _ c
    exact ⟨_, ((read.trans relayed).trans shut).trans (setBuffer _ c _)⟩
  · exact ⟨_, (read.trans relayed).trans (setBuffer _ c _)⟩

theorem step (inv : Inv s g) (taken : s.step l = some s') : ∃ news, Grows s s' news := by
  cases l with
  | connect c =>
    simp only [System.step] at taken
    split at taken
    · next missing =>
      cases taken
      refine ⟨[], (List.append_nil _).symm, fun d k link => ?_⟩
      have other : d ≠ c := by
        rintro rfl
        rw [missing] at link
        cases link
      exact ⟨k, (Function.update_of_ne other ..).trans link, Nat.le_refl _, by simp⟩
    · cases taken
  | accept c =>
    obtain ⟨k, link, taken⟩ := Option.bind_eq_some_iff.mp taken
    split at taken
    · next here =>
      cases taken
      have older : k.server.state.rank ≤ (k.setServer .kConnected).server.state.rank := by
        rw [here]
        exact Nat.zero_le _
      have joined := (setLink link older).trans (record _ (h := .join c) (by simp))
      exact ⟨_, joined.history, joined.links⟩
    · cases taken
  | say c message =>
    obtain ⟨k, link, taken⟩ := Option.bind_eq_some_iff.mp taken
    split at taken
    · split at taken
      · cases taken
        exact ⟨[], setLink link (Nat.le_refl _)⟩
      · cases taken
    · cases taken
  | serverRead c n =>
    obtain ⟨k, link, taken⟩ := Option.bind_eq_some_iff.mp taken
    split at taken
    · cases taken
      exact serverRead inv.members link n
    · cases taken
  | clientRead c n =>
    obtain ⟨k, link, taken⟩ := Option.bind_eq_some_iff.mp taken
    split at taken
    · cases taken
      exact ⟨[], clientRead link n⟩
    · cases taken
  | serverClose c =>
    obtain ⟨k, link, taken⟩ := Option.bind_eq_some_iff.mp taken
    split at taken
    · next online =>
      cases taken
      have older : k.server.state.rank ≤ ConnectionState.kDisconnected.rank := by
        cases k.server.state <;> decide
      obtain ⟨news, closed⟩ := setServer link older (by decide)
      exact ⟨news, closed.history, closed.links⟩
    · cases taken
  | clientClose c =>
    obtain ⟨k, link, taken⟩ := Option.bind_eq_some_iff.mp taken
    split at taken
    · cases taken
      exact ⟨[], setLink link (Nat.le_refl _)⟩
    · cases taken

theorem reaches (start : Reaches System.step anyStep .start s)
    (reached : Reaches System.step anyStep s s') : ∃ news, Grows s s' news := by
  induction reached with
  | refl => exact ⟨[], refl s⟩
  | tail l before _ taken ih =>
    obtain ⟨news, grown⟩ := ih
    obtain ⟨g, inv⟩ := exists_inv (start.trans before)
    obtain ⟨news', more⟩ := step inv taken
    exact ⟨_, grown.trans more⟩

end Grows

/-- Between two moments at which nothing is on its way to them, all clients that are connected to
the server at both print the same: what the others have posted meanwhile, in the order of the
server. -/
theorem shown_meanwhile (start : Reaches System.step anyStep .start s)
    (reached : Reaches System.step anyStep s s') :
    ∃ news, s'.history = s.history ++ news ∧
      ∀ c k k', s.links c = some k → s'.links c = some k' →
        k.server.state = .kConnected → k'.server.state = .kConnected →
        k.toClient = [] → k'.toClient = [] →
        k'.shown = k.shown ++ (others c (posted news)).map Post.message := by
  obtain ⟨news, grown⟩ := Grows.reaches start reached
  obtain ⟨g, inv⟩ := exists_inv start
  obtain ⟨g', inv'⟩ := exists_inv (start.trans reached)
  refine ⟨news, grown.history, fun c k k' link link' here here' idle idle' => ?_⟩
  have down := inv.room.down c k link
  have down' := inv'.room.down c k' link'
  have run : exec Broadcast.step news g = some g' := by
    have all := inv'.room.run
    rw [grown.history, exec_append, inv.room.run] at all
    exact all
  have stays : .leave c ∉ news := by
    intro left
    obtain ⟨k₁, link₁, -, older⟩ := grown.links c k link
    cases link'.symm.trans link₁
    have rank := older left
    rw [here'] at rank
    exact Nat.lt_irrefl _ rank
  have heard := Broadcast.heard_while_present (down.present.mpr here) stays run
  rw [down.shown_eq (inv.room.short c) idle, down'.shown_eq (inv'.room.short c) idle', told, told,
    heard, List.map_append]

theorem shown_meanwhile_greeting : ∃ s' : System Nat, ∃ news,
    (s'.links 1).map Link.shown = some ((others 1 (posted news)).map Post.message) := by
  obtain ⟨s, start, link, later⟩ := exists_run
    (p := fun s => s.links 1 = some { Link.create with server := ⟨.kConnected, []⟩ } ∧
      (exec System.step (greeting.drop 4) s).any (fun s' => decide (s'.links 1 =
        some { Link.create with server := ⟨.kConnected, []⟩, shown := [[104, 105]] })) = true)
    (greeting.take 4) (by decide +kernel)
  obtain ⟨s', run, link'⟩ := (Option.any_eq_true _ _).mp later
  have link' := of_decide_eq_true link'
  obtain ⟨news, -, shown⟩ := shown_meanwhile start (reaches_of_exec _ run)
  refine ⟨s', news, ?_⟩
  rw [link']
  exact congrArg some (shown 1 _ _ link link' rfl rfl rfl rfl)

end Yvent.Chat
