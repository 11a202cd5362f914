import Yvent.Chat.Model

/-!
# What the chat server does with a message

`ChatServer::onMessage` puts a frame of the message on the connection of every other client that is
connected, and does nothing else. The codec never fails on a message that it has itself delivered.
-/

namespace Yvent.Chat

open LenHeaderCodec
open Buffer (Checked maxSize kCheapPrepend)
open Broadcast (Happening Post)

variable {Conn : Type} [LinearOrder Conn] {s s' : System Conn} {c d : Conn} {k k' : Link}
  {message : Bytes} {messages : List Bytes} {n : Nat}

/-- The connections are online, and no others are. -/
def System.Members (s : System Conn) : Prop :=
  ∀ c, c ∈ s.connections ↔ ∃ k, s.links c = some k ∧ reads k.server.state = true

namespace System

/-- The state behind `onMessage(conn, message)`. -/
def relayed (s : System Conn) (conn : Conn) (message : Bytes) : System Conn :=
  { s with
    links := fun c => (s.links c).map fun k => if conn ≠ c then k.serverSend (frame message) else k
    history := s.history ++ [.post ⟨conn, message⟩] }

/-- The state behind `onMessage` with each of the messages. -/
def relayedAll (s : System Conn) (conn : Conn) : List Bytes → System Conn
  | [] => s
  | message :: messages => (s.relayed conn message).relayedAll conn messages

end System

theorem serverSend_server (k : Link) (bytes : Bytes) : (k.serverSend bytes).server = k.server := by
  unfold Link.serverSend
  split <;> rfl

theorem serverSend_of_offline {bytes : Bytes} (offline : reads k.server.state = false) :
    k.serverSend bytes = k := by
  refine if_neg fun connected => ?_
  rw [connected] at offline
  cases offline

theorem send_of_short (short : Short message) : LenHeaderCodec.send message = .ok (frame message) := by
  have fits : message.length ≤ 65536 := short
  have room : kCheapPrepend + 65536 ≤ maxSize := by decide
  exact send_eq_frame (by omega)

/-- The loop over a part of the connections. -/
theorem foldlM_relay (short : Short message) {l : List Conn} (nodup : l.Nodup) (s : System Conn) :
    l.foldlM (System.relay c message) s = .ok { s with
      links := fun d => (s.links d).map fun k =>
        if d ∈ l ∧ c ≠ d then k.serverSend (frame message) else k } := by
  induction l generalizing s with
  | nil =>
    have same : s.links = fun d => (s.links d).map fun k =>
        if d ∈ ([] : List Conn) ∧ c ≠ d then k.serverSend (frame message) else k := by
      funext d
      simp
    rw [List.foldlM_nil, ← same]
    rfl
  | cons e l ih =>
    obtain ⟨new, nodup⟩ := List.nodup_cons.mp nodup
    by_cases own : c = e
    · have skipped : System.relay c message s e = .ok s := if_neg (not_not_intro own)
      rw [List.foldlM_cons, skipped, Buffer.ok_bind, ih nodup]
      congr 2
      funext d
      by_cases same : d = e <;> simp [own, same, new]
    · have sent : System.relay c message s e = .ok (s.send e (frame message)) := by
        rw [System.relay, if_pos own, send_of_short short]
        rfl
      rw [List.foldlM_cons, sent, Buffer.ok_bind, ih nodup]
      congr 2
      funext d
      by_cases same : d = e
      · subst same
        simp [System.send, new, own, Function.comp_def]
      · simp [System.send, same]

theorem relayed_links (s : System Conn) (c d : Conn) (message : Bytes) :
    (s.relayed c message).links d =
      (s.links d).map fun k => if c ≠ d then k.serverSend (frame message) else k := rfl

/-- `onMessage` returns. -/
theorem onMessage_eq (members : s.Members) (short : Short message) :
    System.onMessage c message s = .ok (s.relayed c message) := by
  rw [System.onMessage, foldlM_relay short s.connections.nodup]
  congr 2
  funext d
  cases link : s.links d with
  | none => simp [System.record, link]
  | some k =>
    -- a connection that is not in the set takes nothing
    by_cases mem : d ∈ s.connections
    · have inList : d ∈ s.connections.toList := mem
      simp [System.record, link, inList]
    · have notInList : d ∉ s.connections.toList := mem
      have offline : reads k.server.state = false := by
        by_contra online
        exact mem ((members d).mpr ⟨k, link, by simpa using online⟩)
      simp [System.record, link, notInList, serverSend_of_offline offline]

theorem relayed_server (s : System Conn) (c d : Conn) (message : Bytes) :
    ((s.relayed c message).links d).map Link.server = (s.links d).map Link.server := by
  cases link : s.links d with
  | none => simp [relayed_links, link]
  | some k =>
    rw [relayed_links, link]
    by_cases own : c = d <;> simp [own, serverSend_server]

theorem members_iff : s.Members ↔
    ∀ c, c ∈ s.connections ↔ ∃ e, (s.links c).map Link.server = some e ∧ reads e.state = true := by
  refine forall_congr' fun c => iff_congr Iff.rfl ?_
  cases s.links c <;> simp

theorem System.Members.relayed (members : s.Members) (c : Conn) (message : Bytes) :
    (s.relayed c message).Members := by
  rw [members_iff] at members ⊢
  intro d
  rw [relayed_server]
  exact members d

theorem System.Members.relayedAll (members : s.Members) (c : Conn) (messages : List Bytes) :
    (s.relayedAll c messages).Members := by
  induction messages generalizing s with
  | nil => exact members
  | cons message messages ih => exact ih (members.relayed c message)

/-- All messages of a read are relayed. -/
theorem foldlM_onMessage (members : s.Members) (short : ∀ message ∈ messages, Short message) :
    messages.foldlM (fun s message => System.onMessage c message s) s =
      .ok (s.relayedAll c messages) := by
  induction messages generalizing s with
  | nil => rfl
  | cons message messages ih =>
    obtain ⟨first, others⟩ := List.forall_mem_cons.mp short
    rw [List.foldlM_cons, onMessage_eq members first, Buffer.ok_bind]
    exact ih (members.relayed c message) others

/-- Draining gives messages that the receiver takes. -/
theorem short_of_drain (buffer : Bytes) : ∀ message ∈ (decoder.drain buffer).1, Short message :=
  Decoder.forall_drain (fun taken => length_le_of_next (taken_eq_some.mp taken)) buffer

end Yvent.Chat
