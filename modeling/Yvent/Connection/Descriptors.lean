import Yvent.Connection.Cause

/-!
# The descriptors of attached files

`setSendFd` hands a descriptor over to the connection, which closes it behind the `sendfile` that
takes the last byte of its file. That is the only place: a descriptor that is in the slot without
bytes to send, that another one takes the place of, or that is left when the destructor runs, stays
open.
-/

namespace Yvent.TcpConnection

/-- A descriptor that has been handed to `setSendFd`: the size that came with it, how many bytes
`sendfile` has taken from it, and how often it has been closed. -/
structure SendFd where
  fd : Int
  stSize : Int
  sent : Nat
  closed : Nat
  deriving DecidableEq, Repr

/-- What an event means for a descriptor while `sendFd_` is `sendFd`. -/
def SendFd.note (sendFd : Int) (d : SendFd) : Event → SendFd
  | .sendfile _ (some n) => if d.fd = sendFd then { d with sent := d.sent + n } else d
  | .closeFd fd => if d.fd = fd then { d with closed := d.closed + 1 } else d
  | _ => d

/-- What an event of a step that leads to `c` means for the descriptors handed over so far. -/
def note (c : TcpConnection) (files : List SendFd) : Event → List SendFd
  | .setSendFd fd _ => files ++ [{ fd, stSize := c.stSize, sent := 0, closed := 0 }]
  | e => files.map fun d => d.note c.sendFd e

/-- The destructor of a connection with the descriptor `cfd`. -/
def destroy (c : TcpConnection) (cfd : Int) : TcpConnection :=
  (if c.state = .kDisconnected then c else c.emit .assertFailed).emit (.closeFd cfd)

/-- A connection up to its destructor, with a ledger of the descriptors handed to `setSendFd`. -/
structure Life where
  system : System
  files : List SendFd
  destroyed : Bool

/-- A step of the system, or the destruction of the connection. -/
inductive LifeLabel where
  | step (l : Label)
  | destroy
  deriving DecidableEq, Repr

namespace Life

/-- Nothing is attached and the connection lives. -/
def start : Life := { system := .start, files := [], destroyed := false }

/-- The ledger follows the history. -/
def follow (s : Life) (system : System) : Life :=
  { s with
    system,
    files := (system.conn.trace.drop s.system.conn.trace.length).foldl (note system.conn) s.files }

/-- The destructor runs when no function of the connection is being executed. -/
def step (cb : Callbacks) (cfd : Int) (s : Life) : LifeLabel → Option Life
  | .step l => if s.destroyed then none else (System.step cb s.system l).map s.follow
  | .destroy =>
    if s.destroyed = false ∧ ∀ f ∈ s.system.stack, f = .user then
      some { s.follow { s.system with conn := s.system.conn.destroy cfd } with destroyed := true }
    else none

/-- The descriptors are distinct, and none is that of the socket. -/
def Distinct (cfd : Int) (s : Life) : LifeLabel → Prop
  | .step (.call (.setSendFd fd _ _)) => fd ≠ cfd ∧ ∀ d ∈ s.files, d.fd ≠ fd
  | _ => True

/-- A file that is not empty is attached when no file is left to be sent, and the destructor does
not run while one is. -/
def SendsOut (s : Life) : LifeLabel → Prop
  | .step (.call (.setSendFd _ _ stSize)) => stSize ≠ 0 ∧ s.system.conn.stSize = 0
  | .destroy => s.system.conn.stSize = 0
  | _ => True

/-- The steps of a life that keep to both. -/
def Attaches (cfd : Int) (s : Life) (l : LifeLabel) : Prop := Distinct cfd s l ∧ SendsOut s l

instance (cfd : Int) (s : Life) : (l : LifeLabel) → Decidable (Distinct cfd s l)
  | .step (.call (.setSendFd _ _ _)) => inferInstanceAs (Decidable (_ ∧ _))
  | .step (.call (.send _)) | .step (.call .shutdown) | .step (.call .forceClose) | .step .ret
  | .step .next | .step (.poll _) | .step .addTask | .step (.other _ _) | .step (.resume _)
  | .step (.run _) | .destroy => isTrue trivial

instance (s : Life) : (l : LifeLabel) → Decidable (SendsOut s l)
  | .step (.call (.setSendFd _ _ _)) => inferInstanceAs (Decidable (_ ∧ _))
  | .destroy => inferInstanceAs (Decidable (_ = _))
  | .step (.call (.send _)) | .step (.call .shutdown) | .step (.call .forceClose) | .step .ret
  | .step .next | .step (.poll _) | .step .addTask | .step (.other _ _) | .step (.resume _)
  | .step (.run _) => isTrue trivial

instance (cfd : Int) (s : Life) (l : LifeLabel) : Decidable (Attaches cfd s l) :=
  inferInstanceAs (Decidable (_ ∧ _))

/-- Every descriptor is closed at most once and not before all of its file has been sent, and
exactly once when the destructor has run. -/
def ClosesOnce (s : Life) : Prop :=
  ∀ d ∈ s.files, d.closed ≤ 1 ∧ (d.closed = 1 → d.sent = d.stSize) ∧
    (s.destroyed = true → d.closed = 1)

end Life

variable {cb : Callbacks} {cfd : Int} {c c' : TcpConnection} {f : Frame} {answer : Answer}
  {stack frames rest : List Frame} {files : List SendFd} {d : SendFd} {es : List Event} {e : Event}
  {s s' : Life} {l : LifeLabel}

/-! ## The ledger -/

/-- An event that concerns the file slot. -/
@[simp] def ofFile : Event → Bool
  | .setSendFd _ _ | .sendfile _ (some _) | .closeFd _ => true
  | _ => false

theorem note_of_quiet (quiet : ofFile e = false) : note c files e = files := by
  have same : ∀ d : SendFd, d.note c.sendFd e = d := by
    intro d
    cases e with
    | sendfile file result => cases result <;> first | rfl | cases quiet
    | setSendFd | closeFd => cases quiet
    | _ => rfl
  cases e with
  | setSendFd => cases quiet
  | _ => simp [note, same]

theorem foldl_note_of_quiet (quiet : ∀ e ∈ es, ofFile e = false) :
    es.foldl (note c) files = files := by
  induction es with
  | nil => rfl
  | cons e es ih =>
    obtain ⟨now, later⟩ := List.forall_mem_cons.mp quiet
    rw [List.foldl_cons, note_of_quiet now]
    exact ih later

@[simp] theorem note_fd (sendFd : Int) (d : SendFd) (e : Event) : (d.note sendFd e).fd = d.fd := by
  unfold SendFd.note
  split
  · split <;> rfl
  · split <;> rfl
  · rfl

theorem note_sendfile (file : Bytes) (result : Option Nat) : note c files (.sendfile file result) =
    files.map fun d => d.note c.sendFd (.sendfile file result) := rfl

theorem note_closeFd (fd : Int) :
    note c files (.closeFd fd) = files.map fun d => d.note c.sendFd (.closeFd fd) := rfl

/-- A descriptor that is not in the slot. -/
theorem map_note_of_ne {fd : Int} (other : ∀ d ∈ files, d.fd ≠ fd)
    (own : e = .closeFd fd ∨ ∃ file result, e = .sendfile file result) :
    files.map (fun d => d.note fd e) = files := by
  refine (List.map_congr_left fun d mem => ?_).trans (List.map_id files)
  rcases own with rfl | ⟨file, result, rfl⟩
  · exact if_neg (other d mem)
  · cases result with
    | none => rfl
    | some n => exact if_neg (other d mem)

/-- An event of the descriptor that was handed over last. -/
theorem map_note_last (distinct : ((files ++ [d]).map SendFd.fd).Nodup)
    (own : e = .closeFd d.fd ∨ ∃ file result, e = .sendfile file result) :
    (files ++ [d]).map (fun d' => d'.note d.fd e) = files ++ [d.note d.fd e] := by
  have other : ∀ d' ∈ files, d'.fd ≠ d.fd := by
    intro d' mem same
    rw [List.map_append, List.map_singleton, List.nodup_append] at distinct
    exact distinct.2.2 d'.fd (List.mem_map_of_mem mem) d.fd List.mem_cons_self same
  rw [List.map_append, map_note_of_ne other own]
  rfl

theorem map_fd_note (sendFd : Int) :
    (files.map fun d => d.note sendFd e).map SendFd.fd = files.map SendFd.fd := by
  rw [List.map_map]
  exact List.map_congr_left fun d _ => note_fd sendFd d e

/-! ## The file slot -/

/-- The frame closes `sendFd_`, or leads to the one that does. -/
@[simp] def Frame.closesFile : Frame → Bool
  | .handleWrite .sent | .handleWrite .closeFd => true
  | _ => false

/-- The frames below the executing `shutdownInLoop`, if that is what is executed. -/
def resumed (stack : List Frame) : List Frame := stack.dropWhile (· = .shutdownInLoop)

/-- The file has been sent and its descriptor is about to be closed. -/
def closing (stack : List Frame) : Bool := (top (resumed stack)).closesFile

/-- The file has been sent and its descriptor closed. -/
def SendFd.Done (d : SendFd) : Prop := d.closed = 1 ∧ d.sent = d.stSize

/-- The slot between two files, during one, and behind one. -/
inductive Slot (c : TcpConnection) (closing : Bool) : List SendFd → Prop
  | free {files : List SendFd} (stSize : c.stSize = 0) (here : closing = false)
      (done : ∀ d ∈ files, d.Done) : Slot c closing files
  | sending {files : List SendFd} {d : SendFd} (stSize : c.stSize ≠ 0) (here : closing = false)
      (done : ∀ d ∈ files, d.Done) (fd : d.fd = c.sendFd) (opened : d.closed = 0)
      (left : d.stSize - d.sent = c.stSize) : Slot c closing (files ++ [d])
  | sent {files : List SendFd} {d : SendFd} (stSize : c.stSize = 0) (here : closing = true)
      (done : ∀ d ∈ files, d.Done) (fd : d.fd = c.sendFd) (opened : d.closed = 0)
      (whole : d.sent = d.stSize) : Slot c closing (files ++ [d])

/-- The descriptors of a connection with the frames `stack`. -/
structure Owned (cfd : Int) (c : TcpConnection) (stack : List Frame) (files : List SendFd) :
    Prop where
  slot : Slot c (closing stack) files
  distinct : (files.map SendFd.fd).Nodup
  socket : cfd ∉ files.map SendFd.fd
  below : ∀ f ∈ (resumed stack).tail, f.closesFile = false
  sendfile : top stack = .handleWrite .sendfile → c.stSize ≠ 0

theorem Slot.congr {closing : Bool} (slot : Slot c closing files) (stSize : c'.stSize = c.stSize)
    (sendFd : c'.sendFd = c.sendFd) : Slot c' closing files := by
  cases slot with
  | free none here done => exact .free (stSize.trans none) here done
  | sending some here done fd opened left =>
    exact .sending (stSize ▸ some) here done (fd.trans sendFd.symm) opened (left.trans stSize.symm)
  | sent none here done fd opened whole =>
    exact .sent (stSize.trans none) here done (fd.trans sendFd.symm) opened whole

theorem Slot.closed {closing : Bool} (slot : Slot c closing files) :
    ∀ d ∈ files, d.closed = 0 ∨ d.Done := by
  have last : ∀ {files : List SendFd} {d : SendFd}, (∀ d ∈ files, d.Done) → d.closed = 0 →
      ∀ d' ∈ files ++ [d], d'.closed = 0 ∨ d'.Done := by
    intro files d done opened d' mem
    rcases List.mem_append.mp mem with mem | mem
    · exact Or.inr (done d' mem)
    · rw [List.mem_singleton.mp mem]
      exact Or.inl opened
  cases slot with
  | free _ _ done => exact fun d mem => Or.inr (done d mem)
  | sending _ _ done _ opened => exact last done opened
  | sent _ _ done _ opened => exact last done opened

theorem resumed_cons (other : f ≠ .shutdownInLoop) : resumed (f :: rest) = f :: rest := by
  simp [resumed, other]

/-- What holds of no frame holds of none of the resumed ones. -/
theorem resumed_none {p : Frame → Bool} (user : p .user = false) (none : ∀ f ∈ stack, p f = false) :
    p (top (resumed stack)) = false ∧ ∀ f ∈ (resumed stack).tail, p f = false := by
  have under : ∀ f ∈ resumed stack, p f = false := fun f mem =>
    none f ((List.dropWhile_sublist _).subset mem)
  refine ⟨?_, fun f mem => under f (List.mem_of_mem_tail mem)⟩
  cases here : resumed stack with
  | nil => exact user
  | cons f rest => exact under f (here ▸ List.mem_cons_self)

/-- No frame closes a file. -/
theorem resumed_of_none (none : ∀ f ∈ stack, f.closesFile = false) :
    closing stack = false ∧ ∀ f ∈ (resumed stack).tail, f.closesFile = false :=
  resumed_none rfl none

theorem Owned.congr {stack' : List Frame} (owned : Owned cfd c stack files)
    (stSize : c'.stSize = c.stSize) (sendFd : c'.sendFd = c.sendFd)
    (here : closing stack' = closing stack)
    (below : ∀ f ∈ (resumed stack').tail, f.closesFile = false)
    (sendfile : top stack' = .handleWrite .sendfile → c.stSize ≠ 0) :
    Owned cfd c' stack' files := by
  refine ⟨?_, owned.distinct, owned.socket, below, stSize ▸ sendfile⟩
  rw [here]
  exact owned.slot.congr stSize sendFd

/-- Other code than `handleWrite` comes to run, from other code. -/
theorem Owned.elsewhere {stack' : List Frame} (owned : Owned cfd c stack files)
    (stSize : c'.stSize = c.stSize) (sendFd : c'.sendFd = c.sendFd) (here : closing stack = false)
    (none : ∀ g ∈ stack', g.closesFile = false) (other : top stack' ≠ .handleWrite .sendfile) :
    Owned cfd c' stack' files :=
  owned.congr stSize sendFd ((resumed_of_none none).1.trans here.symm) (resumed_of_none none).2
    fun same => absurd same other

/-! ## One step -/

/-- The frames that take the place of one that is not about to close a file. -/
theorem FrameMove.closesFile {result : List Frame × TcpConnection}
    (moved : FrameMove cb c f answer result) (other : f ≠ .handleWrite .sendfile)
    (notSent : f ≠ .handleWrite .sent) : ∀ g ∈ result.1, g.closesFile = false := by
  intro g mem
  have leads := moved.leadsTo g mem
  cases g with
  | handleWrite pc =>
    cases pc with
    | sent | closeFd =>
      cases f with
      | handleWrite pc =>
        cases pc with
        | sendfile => exact absurd rfl other
        | sent => exact absurd rfl notSent
        | _ => cases leads
      | _ => cases leads
    | _ => rfl
  | _ => rfl

/-- `handleWrite` comes to its `sendfile` with a file that is left to be sent. -/
theorem FrameMove.sendfile {result : List Frame × TcpConnection}
    (moved : FrameMove cb c f answer result) (mem : .handleWrite .sendfile ∈ result.1) :
    c.stSize ≠ 0 := by
  have leads := moved.leadsTo _ mem
  cases moved with
  | handleWrite pc =>
    cases pc with
    | test =>
      simp only [handleWriteStep] at mem
      split at mem
      · split at mem
        · simp at mem
        · split at mem
          · assumption
          · cases mem
      · cases mem
    | _ => cases leads
  | _ => cases leads

/-- The events of a step that is neither the `sendfile` nor the close. -/
theorem FrameMove.quiet {result : List Frame × TcpConnection}
    (moved : FrameMove cb c f answer result) (other : f ≠ .handleWrite .sendfile)
    (notClose : f ≠ .handleWrite .closeFd) :
    ∃ es, result.2.trace = c.trace ++ es ∧ es.foldl (note result.2) files = files := by
  obtain ⟨es, trace, caused⟩ := moved.caused.events
  refine ⟨es, trace, foldl_note_of_quiet fun e mem => ?_⟩
  have cause := caused e mem
  cases e with
  | setSendFd => cases cause
  | sendfile => exact absurd cause other
  | closeFd => exact absurd cause.1 notClose
  | _ => rfl

theorem top_ne_sendfile (settled : ∀ g ∈ rest, g.Settled) : top rest ≠ .handleWrite .sendfile := by
  intro same
  have calm := (top_settled settled).direct
  rw [same] at calm
  cases calm

/-- `sendfile` has taken `n` bytes. -/
theorem Owned.sendfile_some (owned : Owned cfd c (.handleWrite .sendfile :: rest) files)
    (settled : ∀ g ∈ rest, g.Settled) (n : Nat) :
    let result := handleWriteStep cb c .sendfile (some n)
    Owned cfd result.2 (result.1 ++ rest) (note result.2 files (.sendfile c.file (some n))) := by
  intro result
  obtain ⟨slot, distinct, socket, below, sendfile⟩ := owned
  have here : closing (.handleWrite .sendfile :: rest) = false := rfl
  have below : ∀ g ∈ rest, g.closesFile = false := below
  have sendFd : result.2.sendFd = c.sendFd := by
    simp only [result, handleWriteStep]
    split <;> rfl
  have stSize : result.2.stSize = c.stSize - n := by
    simp only [result, handleWriteStep]
    split <;> rfl
  have frames : result.1 = if c.stSize - n = 0 then [.handleWrite .sent] else [] := by
    simp only [result, handleWriteStep]
    split <;> rfl
  have fds : (note result.2 files (.sendfile c.file (some n))).map SendFd.fd =
      files.map SendFd.fd := map_fd_note _
  cases slot with
  | free none => exact absurd none (sendfile rfl)
  | sent _ here' => cases here.symm.trans here'
  | @sending done d busy _ all fd opened left =>
    have noted : note result.2 (done ++ [d]) (.sendfile c.file (some n)) =
        done ++ [{ d with sent := d.sent + n }] := by
      have last := map_note_last distinct (Or.inr ⟨c.file, some n, rfl⟩)
      rw [note_sendfile, sendFd, ← fd, last]
      simp [SendFd.note]
    refine ⟨?_, fds ▸ distinct, fds ▸ socket, ?_, ?_⟩
    · rw [noted, frames]
      split
      · next sentAll =>
        exact .sent (stSize.trans sentAll) rfl all (fd.trans sendFd.symm) opened
          (by simp only; omega)
      · next more =>
        exact .sending (stSize ▸ more) (resumed_of_none below).1 all (fd.trans sendFd.symm) opened
          (by simp only [stSize]; omega)
    · rw [frames]
      split
      · exact below
      · exact (resumed_of_none below).2
    · rw [frames]
      split
      · intro same
        cases same
      · exact fun same => absurd same (top_ne_sendfile settled)

/-- The descriptor is closed. -/
theorem Owned.closeFd (owned : Owned cfd c (.handleWrite .closeFd :: rest) files)
    (settled : ∀ g ∈ rest, g.Settled) :
    Owned cfd (c.emit (.closeFd c.sendFd)) rest (note c files (.closeFd c.sendFd)) := by
  obtain ⟨slot, distinct, socket, below, -⟩ := owned
  have here : closing (.handleWrite .closeFd :: rest) = true := rfl
  have below : ∀ g ∈ rest, g.closesFile = false := below
  have fds : (note c files (.closeFd c.sendFd)).map SendFd.fd = files.map SendFd.fd :=
    map_fd_note _
  cases slot with
  | free _ here' => cases here.symm.trans here'
  | sending _ here' => cases here.symm.trans here'
  | @sent done d stSize _ all fd opened whole =>
    have noted : note c (done ++ [d]) (.closeFd c.sendFd) =
        done ++ [{ d with closed := d.closed + 1 }] := by
      rw [note_closeFd, ← fd, map_note_last distinct (Or.inl rfl)]
      simp [SendFd.note]
    refine ⟨?_, fds ▸ distinct, fds ▸ socket, (resumed_of_none below).2, fun same =>
      absurd same (top_ne_sendfile settled)⟩
    rw [noted]
    refine .free stSize (resumed_of_none below).1 fun d' mem => ?_
    rcases List.mem_append.mp mem with mem | mem
    · exact all d' mem
    · rw [List.mem_singleton.mp mem]
      exact ⟨by simp [opened], whole⟩

/-- A step that neither sends from the file nor closes it. -/
theorem Owned.beside {result : List Frame × TcpConnection} (owned : Owned cfd c (f :: rest) files)
    (settled : ∀ g ∈ rest, g.Settled) (moved : FrameMove cb c f answer result)
    (sendfile : f ≠ .handleWrite .sendfile) (close : f ≠ .handleWrite .closeFd) :
    Owned cfd result.2 (result.1 ++ rest) files := by
  have caused := moved.caused
  have stSize := (caused.slot sendfile).2
  have below := owned.below
  by_cases pops : f = .shutdownInLoop
  · subst pops
    cases moved
    exact owned.congr stSize caused.sendFd rfl below fun same =>
      absurd same (top_ne_sendfile settled)
  rw [resumed_cons pops] at below
  by_cases sent : f = .handleWrite .sent
  · subst sent
    cases moved with
    | handleWrite pc answer r =>
      simp only [handleWriteStep]
      split <;> exact owned.congr rfl rfl rfl below (by simp)
  have none : ∀ g ∈ result.1 ++ rest, g.closesFile = false := List.forall_mem_append.mpr
    ⟨moved.closesFile sendfile sent, below⟩
  have here : closing (f :: rest) = false := by
    rw [closing, resumed_cons pops]
    cases f with
    | handleWrite pc =>
      cases pc with
      | sent => exact absurd rfl sent
      | closeFd => exact absurd rfl close
      | _ => rfl
    | _ => rfl
  refine owned.congr stSize caused.sendFd ((resumed_of_none none).1.trans here.symm)
    (resumed_of_none none).2 fun onTop => ?_
  cases frames : result.1 with
  | nil =>
    rw [frames] at onTop
    exact absurd onTop (top_ne_sendfile settled)
  | cons g frames' =>
    rw [frames] at onTop
    obtain rfl : g = .handleWrite .sendfile := onTop
    exact moved.sendfile (by rw [frames]; exact List.mem_cons_self)

/-- One step of the executing frame. -/
theorem Owned.run {result : List Frame × TcpConnection} (owned : Owned cfd c (f :: rest) files)
    (settled : ∀ g ∈ rest, g.Settled) (moved : FrameMove cb c f answer result) :
    ∃ es, result.2.trace = c.trace ++ es ∧
      Owned cfd result.2 (result.1 ++ rest) (es.foldl (note result.2) files) := by
  by_cases sendfile : f = .handleWrite .sendfile
  · subst sendfile
    cases moved with
    | handleWrite pc answer r =>
      cases r with
      | none =>
        refine ⟨[.sendfile c.file none], rfl, ?_⟩
        rw [foldl_note_of_quiet (by simp)]
        exact owned.elsewhere rfl rfl rfl owned.below (top_ne_sendfile settled)
      | some n =>
        refine ⟨[.sendfile c.file (some n)], ?_, owned.sendfile_some settled n⟩
        simp only [handleWriteStep]
        split <;> rfl
  by_cases close : f = .handleWrite .closeFd
  · subst close
    cases moved with
    | handleWrite pc answer r => exact ⟨[.closeFd c.sendFd], rfl, owned.closeFd settled⟩
  obtain ⟨es, trace, same⟩ := moved.quiet sendfile close
  refine ⟨es, trace, ?_⟩
  rw [same]
  exact owned.beside settled moved sendfile close

/-! ## Runs -/

/-- A descriptor comes into the free slot. -/
theorem Owned.setSendFd {fd stSize : Int} {file : Bytes}
    (owned : Owned cfd c (.user :: rest) files) (distinct : fd ≠ cfd ∧ ∀ d ∈ files, d.fd ≠ fd)
    (sendsOut : stSize ≠ 0 ∧ c.stSize = 0) :
    Owned cfd (c.setSendFd fd file stSize) (.user :: rest)
      (note (c.setSendFd fd file stSize) files (.setSendFd fd file)) := by
  obtain ⟨slot, nodup, socket, below, sendfile⟩ := owned
  have here : closing (.user :: rest) = false := rfl
  cases slot with
  | sending busy => exact absurd sendsOut.2 busy
  | sent _ here' => cases here.symm.trans here'
  | free _ _ done =>
    refine ⟨.sending sendsOut.1 here done rfl rfl (by simp), ?_, ?_, below, by simp⟩
    · rw [note, List.map_append, List.map_singleton]
      refine List.nodup_append.mpr ⟨nodup, by simp, ?_⟩
      intro a mem b single
      obtain ⟨d, there, rfl⟩ := List.mem_map.mp mem
      rw [List.mem_singleton.mp single]
      exact distinct.2 d there
    · simpa [note, socket] using Ne.symm distinct.1

/-- User code calls the connection. -/
theorem Owned.call {s : System} {call : Call} (owned : Owned cfd s.conn s.stack files)
    (here : s.stack = .user :: rest)
    (good : ∀ fd file stSize, call = .setSendFd fd file stSize →
      (fd ≠ cfd ∧ ∀ d ∈ files, d.fd ≠ fd) ∧ stSize ≠ 0 ∧ s.conn.stSize = 0) :
    ∃ es, (s.callStep call).conn.trace = s.conn.trace ++ es ∧
      Owned cfd (s.callStep call).conn (s.callStep call).stack
        (es.foldl (note (s.callStep call).conn) files) := by
  have notClosing : closing s.stack = false := by rw [here]; rfl
  have none : ∀ g ∈ s.stack, g.closesFile = false := by
    have below := owned.below
    rw [here] at below ⊢
    exact List.forall_mem_cons.mpr ⟨rfl, below⟩
  cases call with
  | send | forceClose =>
    exact ⟨[], (List.append_nil _).symm, owned.elsewhere rfl rfl notClosing
      (List.forall_mem_cons.mpr ⟨rfl, none⟩) (by simp [System.callStep])⟩
  | shutdown =>
    refine ⟨[.shutdownCalled .loop], rfl, ?_⟩
    rw [foldl_note_of_quiet (by simp)]
    exact owned.elsewhere rfl rfl notClosing (List.forall_mem_cons.mpr ⟨rfl, none⟩)
      (by simp [System.callStep])
  | setSendFd fd file stSize =>
    obtain ⟨distinct, sendsOut⟩ := good fd file stSize rfl
    rw [here] at owned
    refine ⟨[.setSendFd fd file], rfl, ?_⟩
    show Owned cfd _ s.stack _
    rw [here]
    exact owned.setSendFd distinct sendsOut

/-- One step of the connection, its loop or another thread. -/
theorem Owned.step {s s' : System} {l : Label} (owned : Owned cfd s.conn s.stack files)
    (settled : ∀ g ∈ s.stack.tail, g.Settled)
    (good : ∀ fd file stSize, l = .call (.setSendFd fd file stSize) →
      (fd ≠ cfd ∧ ∀ d ∈ files, d.fd ≠ fd) ∧ stSize ≠ 0 ∧ s.conn.stSize = 0)
    (taken : System.step cb s l = some s') : ∃ es, s'.conn.trace = s.conn.trace ++ es ∧
      Owned cfd s'.conn s'.stack (es.foldl (note s'.conn) files) := by
  cases System.turn_of_step taken with
  | run answer here moved =>
    rw [here] at owned settled
    exact owned.run settled moved
  | call call here =>
    exact owned.call here fun fd file stSize same => good fd file stSize (congrArg _ same)
  | ret here =>
    have below := owned.below
    rw [here] at below settled
    exact ⟨[], (List.append_nil _).symm, owned.elsewhere rfl rfl (by rw [here]; rfl) below
      (top_ne_sendfile settled)⟩
  | outside _ out =>
    cases out with
    | begin f idle first stack conn =>
      have plain : f.closesFile = false ∧ f ≠ .handleWrite .sendfile := by
        cases f with
        | handleWrite => cases first
        | _ => exact ⟨rfl, by simp⟩
      refine ⟨[], by rw [conn, List.append_nil], ?_⟩
      rw [conn, stack]
      exact owned.elsewhere rfl rfl (by rw [idle]; rfl) (List.forall_mem_singleton.mpr plain.1)
        plain.2
    | event e other stack conn =>
      have quiet : ofFile e = false := by
        cases e with
        | setSendFd | sendfile | closeFd => cases other
        | _ => rfl
      refine ⟨[e], by rw [conn]; rfl, ?_⟩
      rw [foldl_note_of_quiet (List.forall_mem_singleton.mpr quiet), conn, stack]
      exact owned.congr rfl rfl rfl owned.below owned.sendfile
    | store stack conn =>
      refine ⟨[.store .kDisconnecting], by rw [conn]; rfl, ?_⟩
      rw [foldl_note_of_quiet (by simp), conn, stack]
      exact owned.congr rfl rfl rfl owned.below owned.sendfile
    | silent stack conn =>
      refine ⟨[], by rw [conn, List.append_nil], ?_⟩
      rw [conn, stack]
      exact owned

/-- The destructor closes the descriptor of the socket only. -/
theorem Owned.destroy (owned : Owned cfd c stack files) : ∃ es,
    (c.destroy cfd).trace = c.trace ++ es ∧ es.foldl (note (c.destroy cfd)) files = files ∧
      Owned cfd (c.destroy cfd) stack files := by
  have kept : ∀ c' : TcpConnection, note c' files (.closeFd cfd) = files := by
    intro c'
    have other : ∀ d ∈ files, d.fd ≠ cfd := fun d mem same =>
      owned.socket (same ▸ List.mem_map_of_mem mem)
    show files.map (fun d => d.note cfd (.closeFd cfd)) = files
    exact map_note_of_ne other (Or.inl rfl)
  have same : (c.destroy cfd).stSize = c.stSize ∧ (c.destroy cfd).sendFd = c.sendFd := by
    unfold TcpConnection.destroy
    split <;> exact ⟨rfl, rfl⟩
  have owned' := owned.congr same.1 same.2 rfl owned.below owned.sendfile
  by_cases closed : c.state = .kDisconnected
  · exact ⟨[.closeFd cfd], by simp [TcpConnection.destroy, closed], kept _, owned'⟩
  · refine ⟨[.assertFailed, .closeFd cfd], by simp [TcpConnection.destroy, closed], ?_, owned'⟩
    rw [List.foldl_cons, note_of_quiet rfl]
    exact kept _

/-- Once the destructor may run with a free slot, every file has been sent. -/
theorem Owned.done (owned : Owned cfd c stack files) (user : ∀ f ∈ stack, f = .user)
    (free : c.stSize = 0) : ∀ d ∈ files, d.Done := by
  have none : closing stack = false := by
    refine (resumed_of_none fun f mem => ?_).1
    rw [user f mem]
    rfl
  cases owned.slot with
  | free _ _ done => exact done
  | sending busy => exact absurd free busy
  | sent _ here => cases none.symm.trans here

namespace Life

/-- The output of a living connection, the descriptors it owns, and those it owned at its end. -/
structure Inv (cfd : Int) (s : Life) : Prop where
  output : s.destroyed = false → Output s.system.conn s.system.stack s.system.waiting
  owned : Owned cfd s.system.conn s.system.stack s.files
  ended : s.destroyed = true → ∀ d ∈ s.files, d.Done

theorem inv_start : Inv cfd start where
  output := fun _ => output_start
  owned := ⟨.free rfl rfl (by simp [start]), by simp [start], by simp [start], by decide, by decide⟩
  ended := by simp [start]

theorem follow_files (s : Life) {system : System} {es : List Event}
    (trace : system.conn.trace = s.system.conn.trace ++ es) :
    (s.follow system).files = es.foldl (note system.conn) s.files := by
  rw [follow, trace, List.drop_left]

theorem Inv.step {s s' : Life} {l : LifeLabel} (inv : Inv cfd s) (good : Attaches cfd s l)
    (taken : step cb cfd s l = some s') : Inv cfd s' := by
  obtain ⟨output, owned, ended⟩ := inv
  cases l with
  | step l =>
    simp only [Life.step] at taken
    split at taken
    · cases taken
    · next alive =>
      have alive : s.destroyed = false := by simpa using alive
      obtain ⟨system, moved, rfl⟩ := Option.map_eq_some_iff.mp taken
      have good' : ∀ fd file stSize, l = .call (.setSendFd fd file stSize) →
          (fd ≠ cfd ∧ ∀ d ∈ s.files, d.fd ≠ fd) ∧ stSize ≠ 0 ∧ s.system.conn.stSize = 0 := by
        rintro fd file stSize rfl
        exact good
      obtain ⟨es, trace, owned'⟩ := owned.step (output alive).settled good' moved
      rw [← s.follow_files trace] at owned'
      refine ⟨fun _ => output_step (output alive) moved, owned', fun gone => ?_⟩
      exact absurd (alive.symm.trans gone) Bool.false_ne_true
  | destroy =>
    simp only [Life.step] at taken
    split at taken
    · next free =>
      cases taken
      obtain ⟨es, trace, same, owned'⟩ := owned.destroy
      have files : (s.follow { s.system with conn := s.system.conn.destroy cfd }).files = s.files :=
        (s.follow_files trace).trans same
      refine ⟨fun alive => absurd alive.symm Bool.false_ne_true, ?_, fun _ => ?_⟩
      · show Owned cfd (s.system.conn.destroy cfd) s.system.stack (s.follow _).files
        rw [files]
        exact owned'
      · show ∀ d ∈ (s.follow _).files, d.Done
        rw [files]
        exact owned.done free.2 good.2
    · cases taken

/-- In every life in which a file is attached only to a free slot, is not empty and has been sent
before the end, each descriptor is closed exactly once, behind the last byte of its file. -/
theorem closesOnce_of_sendsOut (reached : Reaches (step cb cfd) (Attaches cfd) start s) :
    ClosesOnce s := by
  obtain ⟨-, owned, ended⟩ : Inv cfd s :=
    reached.invariant inv_start fun _ _ _ _ inv good taken => inv.step good taken
  have closed := owned.slot.closed
  intro d mem
  refine ⟨?_, ?_, fun gone => (ended gone d mem).1⟩
  · rcases closed d mem with opened | done
    · omega
    · exact Nat.le_of_eq done.1
  · intro once
    rcases closed d mem with opened | done
    · omega
    · exact done.2

/-- The connection callback attaches a file of two bytes and sends a head of one. -/
def twoBytes : List Label := List.flatten [
  List.replicate 3 (.run .silent), [.call (.setSendFd 5 [1, 2] 2), .call (.send [0])],
  [.run .silent, .run .silent, .run (.count (some 1)), .ret, .run .silent, .run .silent],
  [.ret, .ret, .next]]

/-- `handleWrite` sends one byte of the file. -/
def sendsByte : List Label := List.flatten [
  [.poll [some EPOLLOUT], .next], List.replicate 5 (.run .silent), [.run (.count (some 1))]]

/-- The peer closes. -/
def peerCloses : List Label := List.flatten [
  [.poll [some EPOLLIN], .next], List.replicate 3 (.run .silent), [.run (.bytes (some []))],
  List.replicate 3 (.run .silent), [.ret, .run .silent, .ret, .run .silent]]

/-- The file is sent in two pieces, its descriptor closed, and the peer closes. -/
theorem closesOnce_of_twoBytes : ∃ s, ClosesOnce s ∧ s.destroyed = true ∧
    s.files = [{ fd := 5, stSize := 2, sent := 2, closed := 1 }] := by
  obtain ⟨s, reached, ended⟩ :
      ∃ s, Reaches (step allCallbacks 3) (Attaches 3) start s ∧ (s.destroyed = true ∧
        s.files = [{ fd := 5, stSize := 2, sent := 2, closed := 1 }]) :=
    exists_reaches_of_exec (List.flatten [twoBytes.map .step, sendsByte.map .step,
      [.step .next, .step .next], sendsByte.map .step, [.step (.run .silent), .step (.run .silent)],
      [.step .next, .step .next], peerCloses.map .step, [.destroy]]) (by decide +kernel)
  exact ⟨s, closesOnce_of_sendsOut reached, ended⟩

/-- The connection callback attaches files and then closes the connection. -/
def attachesAndCloses (files : List Label) : List LifeLabel := List.flatten [
  List.replicate 3 (.step (.run .silent)), files.map .step, [.step (.call .forceClose)],
  List.replicate 5 (.step (.run .silent)), [.step .ret, .step (.run .silent), .step .ret],
  [.step .ret, .step .ret, .destroy]]

/-- The descriptor of an empty file, the first of two in a row, and that of a file that is closed
before it has been sent: none of them is ever closed. -/
theorem leaks : (∃ s, Reaches (step allCallbacks 3) (Distinct 3) start s ∧ s.destroyed = true ∧
      s.files = [{ fd := 5, stSize := 0, sent := 0, closed := 0 }]) ∧
    (∃ s, Reaches (step allCallbacks 3) (Distinct 3) start s ∧ s.destroyed = true ∧
      s.files = [{ fd := 5, stSize := 1, sent := 0, closed := 0 },
        { fd := 6, stSize := 2, sent := 2, closed := 1 }]) ∧
    (∃ s, Reaches (step allCallbacks 3) (Distinct 3) start s ∧ s.destroyed = true ∧
      s.files = [{ fd := 5, stSize := 1, sent := 0, closed := 0 }]) := by
  refine ⟨?_, ?_, ?_⟩
  · exact exists_reaches_of_exec (attachesAndCloses [.call (.setSendFd 5 [] 0)])
      (by decide +kernel)
  · exact exists_reaches_of_exec (List.flatten [List.replicate 3 (.step (.run .silent)),
      [.step (.call (.setSendFd 5 [1] 1)), .step (.call (.setSendFd 6 [1, 2] 2))],
      (twoBytes.drop 4).map .step, sendsByte.map .step, [.step .next, .step .next],
      sendsByte.map .step, [.step (.run .silent), .step (.run .silent)],
      [.step .next, .step .next], peerCloses.map .step, [.destroy]]) (by decide +kernel)
  · exact exists_reaches_of_exec (attachesAndCloses [.call (.setSendFd 5 [1] 1)])
      (by decide +kernel)

end Life

end Yvent.TcpConnection
