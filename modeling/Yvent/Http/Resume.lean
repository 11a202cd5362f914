import Yvent.Http.Context

/-!
# Resuming the parser

A call of `parseRequest` that runs out of bytes leaves a context and a rest of the buffer from
which later calls go on exactly as one call on all the bytes would have. A call that ended for
another reason would have ended in the same way with more bytes behind.
-/

namespace Yvent.Http

open Buffer

/-- A turn with more bytes behind those it leaves in the buffer. -/
def Turn.append : Turn → Bytes → Turn
  | .more c readable, later => .more c (readable ++ later)
  | .stop result c readable, later => .stop result c (readable ++ later)

/-- Without a line end in the buffer a line state gives up and changes nothing. -/
theorem parseTurn_waits {c : HttpContext} {readable : Bytes} (parsing : c.Parsing)
    (noLine : findCRLF readable = none) : parseTurn c readable = .stop true c readable := by
  rcases parsing with state | state
  · simp only [parseTurn, state, noLine]
  · simp only [parseTurn, state, noLine]

/-- A turn that has its line does not look behind it. -/
theorem parseTurn_append {c : HttpContext} {readable : Bytes} {crlf : Nat} (parsing : c.Parsing)
    (found : findCRLF readable = some crlf) (later : Bytes) :
    parseTurn c (readable ++ later) = (parseTurn c readable).append later := by
  have fits : crlf + 2 ≤ readable.length := length_of_findCRLF found
  have line : (readable ++ later).take crlf = readable.take crlf :=
    List.take_append_of_le_length (by omega)
  have rest : retrieveUntil (readable ++ later) (crlf + 2) =
      retrieveUntil readable (crlf + 2) ++ later := List.drop_append_of_le_length fits
  rcases parsing with state | state
  · simp only [parseTurn, state, found, findCRLF_append found, line, rest]
    split <;> rfl
  · simp only [parseTurn, state, found, findCRLF_append found, line, rest]
    split <;> rfl

/-- A turn that has its line ends the loop only when it fails or completes the request. -/
theorem parseTurn_final {c c' : HttpContext} {readable rest : Bytes} {crlf : Nat} {result : Bool}
    (parsing : c.Parsing) (found : findCRLF readable = some crlf)
    (turn : parseTurn c readable = .stop result c' rest) :
    result = false ∨ c'.state = .allDone := by
  rcases parsing with state | state
  · simp only [parseTurn, state, found] at turn
    split at turn
    · cases turn
    · cases turn
      exact Or.inl rfl
  · simp only [parseTurn, state, found] at turn
    split at turn
    · cases turn
    · cases turn
      exact Or.inr rfl

/-- A turn that ends the loop short of `AllDone` leaves one of the line states. -/
theorem parseTurn_stop {c c' : HttpContext} {readable rest : Bytes} {result : Bool}
    (parsing : c.Parsing) (turn : parseTurn c readable = .stop result c' rest)
    (unfinished : c'.state ≠ .allDone) : c'.Parsing := by
  rcases parsing with state | state
  · simp only [parseTurn, state] at turn
    split at turn
    · split at turn
      · cases turn
      · cases turn
        exact Or.inl rfl
    · cases turn
      exact Or.inl state
  · simp only [parseTurn, state] at turn
    split at turn
    · split at turn
      · cases turn
      · cases turn
        exact absurd rfl unfinished
    · cases turn
      exact Or.inr state

/-- A call that waits for more bytes can be resumed: what it leaves stands for what it read. -/
theorem parseRequest_resume {c c' : HttpContext} {readable rest : Bytes} (parsing : c.Parsing)
    (waits : parseRequest c readable = some (true, c', rest)) (unfinished : c'.state ≠ .allDone)
    (later : Bytes) : parseRequest c' (rest ++ later) = parseRequest c (readable ++ later) := by
  induction size : readable.length using Nat.strong_induction_on generalizing c readable with
  | _ size ih =>
    subst size
    rw [parseRequest_eq parsing] at waits
    cases line : findCRLF readable with
    | none =>
      rw [parseTurn_waits parsing line] at waits
      cases waits
      rfl
    | some crlf =>
      rw [parseRequest_eq parsing (readable ++ later), parseTurn_append parsing line]
      cases turn : parseTurn c readable with
      | more c₁ readable₁ =>
        obtain ⟨parsing₁, shorter⟩ := parseTurn_more parsing turn
        rw [turn] at waits
        exact ih readable₁.length shorter parsing₁ waits rfl
      | stop result c₁ rest₁ =>
        rw [turn] at waits
        cases waits
        rcases parseTurn_final parsing line turn with failed | done
        · cases failed
        · exact absurd done unfinished

/-- A call that failed or completed its request leaves later bytes alone. -/
theorem parseRequest_append_of_final {c c' : HttpContext} {readable rest : Bytes} {result : Bool}
    (parsing : c.Parsing) (returns : parseRequest c readable = some (result, c', rest))
    (final : result = false ∨ c'.state = .allDone) (later : Bytes) :
    parseRequest c (readable ++ later) = some (result, c', rest ++ later) := by
  induction size : readable.length using Nat.strong_induction_on generalizing c readable with
  | _ size ih =>
    subst size
    rw [parseRequest_eq parsing] at returns
    cases line : findCRLF readable with
    | none =>
      rw [parseTurn_waits parsing line] at returns
      cases returns
      rcases final with failed | done
      · cases failed
      · rcases parsing with state | state <;> rw [state] at done <;> cases done
    | some crlf =>
      rw [parseRequest_eq parsing (readable ++ later), parseTurn_append parsing line]
      cases turn : parseTurn c readable with
      | more c₁ readable₁ =>
        obtain ⟨parsing₁, shorter⟩ := parseTurn_more parsing turn
        rw [turn] at returns
        exact ih readable₁.length shorter parsing₁ returns rfl
      | stop result₁ c₁ rest₁ =>
        rw [turn] at returns
        cases returns
        rfl

end Yvent.Http
