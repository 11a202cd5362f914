import Yvent.Http.Incremental
import Yvent.Misc.Run

/-!
# The turns of the parser's loop

In the line states each turn that goes on takes a line end from the buffer, so the loop ends after at
most one turn more than the buffer has line ends. `Body` is never entered. A call in `AllDone`, with
no `reset` behind the request that was completed, goes round for ever.
-/

namespace Yvent.Http

open Buffer

variable {c c' : HttpContext} {line later readable rest : Bytes}

/-- How often `"\r\n"` occurs in a text. -/
def lineEnds : Bytes → Nat
  | c :: d :: rest => (if c = CR ∧ d = LF then 1 else 0) + lineEnds (d :: rest)
  | _ => 0

theorem lineEnds_cons_of_ne {b : UInt8} (other : b ≠ CR) (rest : Bytes) :
    lineEnds (b :: rest) = lineEnds rest := by
  cases rest with
  | nil => rfl
  | cons d rest => rw [lineEnds, if_neg (fun both => other both.1), Nat.zero_add]

theorem lineEnds_line (oneLine : OneLine line) (later : Bytes) :
    lineEnds (line ++ (kCRLF ++ later)) = lineEnds later + 1 := by
  have crlf : ∀ later, lineEnds (kCRLF ++ later) = lineEnds later + 1 := by
    intro later
    have lf := lineEnds_cons_of_ne (b := LF) (by decide) later
    show 1 + lineEnds (LF :: later) = _
    rw [lf, Nat.add_comm]
  induction line with
  | nil => exact crlf later
  | cons b line ih =>
    cases line with
    | nil =>
      by_cases cr : b = CR
      · subst cr
        show 0 + lineEnds (kCRLF ++ later) = _
        rw [Nat.zero_add, crlf]
      · rw [List.singleton_append, lineEnds_cons_of_ne cr, crlf]
    | cons d line =>
      rw [OneLine, findCRLF_cons_cons] at oneLine
      split at oneLine
      · cases oneLine
      · next other =>
        have tail := ih (Option.map_eq_none_iff.mp oneLine)
        rw [List.cons_append, List.cons_append, lineEnds, if_neg other, Nat.zero_add]
        exact tail

/-- A turn that goes on has taken the first line. -/
theorem lineEnds_of_more (parsing : c.Parsing) (turn : parseTurn c readable = .more c' rest) :
    c'.Parsing ∧ lineEnds readable = lineEnds rest + 1 := by
  refine ⟨(parseTurn_more parsing turn).1, ?_⟩
  cases found : findCRLF readable with
  | none =>
    rw [parseTurn_waits parsing found] at turn
    cases turn
  | some crlf =>
    obtain ⟨line, later, rfl, rfl, oneLine⟩ := line_of_findCRLF found
    have taken : rest = later := by
      rcases parsing with here | here
      · simp only [parseTurn, here, found, retrieveUntil_line] at turn
        split at turn
        · cases turn
          rfl
        · cases turn
      · simp only [parseTurn, here, found, retrieveUntil_line] at turn
        split at turn
        · cases turn
          rfl
        · cases turn
    rw [taken, lineEnds_line oneLine]

/-- In the line states one turn for each line end and one more are enough. -/
theorem parseLoop_lineEnds (parsing : c.Parsing) (readable : Bytes) :
    (parseLoop (lineEnds readable + 1) c readable).isSome = true := by
  induction ends : lineEnds readable generalizing c readable with
  | zero =>
    rw [parseLoop]
    cases turn : parseTurn c readable with
    | stop => rfl
    | more c' rest =>
      obtain ⟨-, taken⟩ := lineEnds_of_more parsing turn
      omega
  | succ n ih =>
    rw [parseLoop]
    cases turn : parseTurn c readable with
    | stop => rfl
    | more c' rest =>
      obtain ⟨parsing', taken⟩ := lineEnds_of_more parsing turn
      exact ih parsing' rest (by omega)

/-- In `AllDone` the loop does not end. -/
theorem parseLoop_allDone (here : c.state = .allDone) (fuel : Nat) (readable : Bytes) :
    parseLoop fuel c readable = none := by
  induction fuel with
  | zero => rfl
  | succ fuel ih =>
    have turn : parseTurn c readable = .more c readable := by simp only [parseTurn, here]
    rw [parseLoop, turn]
    exact ih

/-! ## Contexts in use -/

/-- A context and the buffer that it is called with. -/
structure Parser where
  context : HttpContext
  readable : Bytes

/-- The calls on a parser and its buffer. -/
inductive ParserLabel
  | append (data : Bytes)
  | parseRequest
  | reset

/-- A new context and an empty buffer. -/
def Parser.create : Parser := { context := {}, readable := [] }

/-- One call; a call of `parseRequest` that does not return is no step. -/
def Parser.step (p : Parser) : ParserLabel → Option Parser
  | .append data => some { p with readable := p.readable ++ data }
  | .parseRequest =>
    (Http.parseRequest p.context p.readable).map fun (_, context, readable) =>
      { context, readable }
  | .reset => some { p with context := p.context.reset }

/-- `Body` is never entered. -/
def HttpContext.InUse (c : HttpContext) : Prop := c.Parsing ∨ c.state = .allDone

theorem inUse_step {p p' : Parser} {l : ParserLabel} (inUse : p.context.InUse)
    (taken : p.step l = some p') : p'.context.InUse := by
  cases l with
  | append data =>
    cases taken
    exact inUse
  | reset =>
    cases taken
    exact Or.inl (Or.inl rfl)
  | parseRequest =>
    obtain ⟨⟨result, c, rest⟩, returns, rfl⟩ := Option.map_eq_some_iff.mp taken
    rcases inUse with parsing | done
    · by_cases finished : c.state = .allDone
      · exact Or.inr finished
      · exact Or.inl (parsing_of_unfinished parsing returns finished)
    · rw [Http.parseRequest, parseLoop_allDone done] at returns
      cases returns

/-- For a context in use, the loop of `parseRequest` ends on every buffer, and then after at most one
turn more than there are line ends, exactly when the call is not made in `AllDone`. -/
theorem terminates_iff_not_allDone {p : Parser}
    (reached : Reaches Parser.step anyStep .create p) :
    (∀ readable, (parseLoop (lineEnds readable + 1) p.context readable).isSome = true) ↔
      p.context.state ≠ .allDone := by
  have inUse := reached.invariant (I := fun p => p.context.InUse) (Or.inl (Or.inl rfl))
    fun _ _ _ _ inUse _ taken => inUse_step inUse taken
  constructor
  · intro terminates done
    have ends := terminates []
    rw [parseLoop_allDone done] at ends
    cases ends
  · intro notDone readable
    exact parseLoop_lineEnds (inUse.resolve_right notDone) readable

/-- `"GET / HTTP/1.1\r\n"` -/
def getLine : Bytes :=
  ascii ['G', 'E', 'T', ' ', '/', ' ', 'H', 'T', 'T', 'P', '/', '1', '.', '1', '\r', '\n']

/-- A request, a reset, and the request line of the next one. -/
theorem terminates_after_reset :
    ∃ p : Parser, p.context.state = .headers ∧
      ∀ readable, (parseLoop (lineEnds readable + 1) p.context readable).isSome = true := by
  obtain ⟨p, reached, here⟩ :
      ∃ p, Reaches Parser.step anyStep .create p ∧ p.context.state = .headers :=
    exists_reaches_of_exec [.append (getLine ++ kCRLF), .parseRequest, .reset, .append getLine,
      .parseRequest] (by decide +kernel)
  exact ⟨p, here, (terminates_iff_not_allDone reached).mpr (by simp [here])⟩

/-- A second call behind a completed request. -/
theorem loops_in_allDone :
    ¬∀ p, Reaches Parser.step anyStep .create p →
      ∀ readable, (parseLoop (lineEnds readable + 1) p.context readable).isSome = true := by
  intro terminates
  obtain ⟨p, reached, here⟩ :
      ∃ p, Reaches Parser.step anyStep .create p ∧ p.context.state = .allDone :=
    exists_reaches_of_exec [.append (getLine ++ kCRLF), .parseRequest] (by decide +kernel)
  have ends := terminates p reached []
  rw [parseLoop_allDone here] at ends
  cases ends

end Yvent.Http
