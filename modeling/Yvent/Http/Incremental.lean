import Yvent.Http.Resume

/-!
# Incremental parsing

The bytes of a request may arrive in any number of chunks, with one call of `parseRequest` behind
each. As long as the calls only wait for more, what the last one leaves is what a single call on
all the bytes leaves.
-/

namespace Yvent.Http

/-- Append the chunks one by one with a call of `parseRequest` after each, up to the first call
that returns false or reaches `AllDone`: its result, the context, the unread bytes and the chunks
that were not fed. -/
def HttpContext.feed (c : HttpContext) (readable : Bytes) :
    List Bytes → Option (Bool × HttpContext × Bytes × List Bytes)
  | [] => some (true, c, readable, [])
  | chunk :: chunks =>
    match parseRequest c (readable ++ chunk) with
    | none => none
    | some (result, c', rest) =>
      if result = false ∨ c'.state = .allDone then some (result, c', rest, chunks)
      else c'.feed rest chunks

/-- A call that waits leaves one of the line states. -/
theorem parsing_of_unfinished {c c' : HttpContext} {readable rest : Bytes} {result : Bool}
    (parsing : c.Parsing) (returns : parseRequest c readable = some (result, c', rest))
    (unfinished : c'.state ≠ .allDone) : c'.Parsing := by
  induction size : readable.length using Nat.strong_induction_on generalizing c readable with
  | _ size ih =>
    subst size
    rw [parseRequest_eq parsing] at returns
    cases turn : parseTurn c readable with
    | more c₁ readable₁ =>
      obtain ⟨parsing₁, shorter⟩ := parseTurn_more parsing turn
      rw [turn] at returns
      exact ih readable₁.length shorter parsing₁ returns rfl
    | stop result₁ c₁ rest₁ =>
      rw [turn] at returns
      cases returns
      exact parseTurn_stop parsing turn unfinished

/-- Feeding chunks one by one comes to what one call on all their bytes comes to. -/
theorem feed_eq {c : HttpContext} (parsing : c.Parsing) (readable chunk : Bytes)
    (chunks : List Bytes) :
    ∃ result c' rest unfed, c.feed readable (chunk :: chunks) = some (result, c', rest, unfed) ∧
      parseRequest c (readable ++ (chunk :: chunks).flatten) =
        some (result, c', rest ++ unfed.flatten) := by
  induction chunks generalizing c readable chunk with
  | nil =>
    obtain ⟨result, c', rest, returns⟩ := parseRequest_returns parsing (readable ++ chunk)
    refine ⟨result, c', rest, [], ?_, by simpa using returns⟩
    rw [HttpContext.feed, returns]
    by_cases final : result = false ∨ c'.state = .allDone
    · exact if_pos final
    · rw [not_or, Bool.not_eq_false] at final
      simp [HttpContext.feed, final]
  | cons next chunks ih =>
    obtain ⟨result, c', rest, returns⟩ := parseRequest_returns parsing (readable ++ chunk)
    have bytes : readable ++ (chunk :: next :: chunks).flatten =
        readable ++ chunk ++ (next :: chunks).flatten := by
      rw [List.flatten_cons, List.append_assoc]
    by_cases final : result = false ∨ c'.state = .allDone
    · refine ⟨result, c', rest, next :: chunks, ?_, ?_⟩
      · rw [HttpContext.feed, returns]
        exact if_pos final
      · rw [bytes]
        exact parseRequest_append_of_final parsing returns final _
    · have fed : c.feed readable (chunk :: next :: chunks) = c'.feed rest (next :: chunks) := by
        rw [HttpContext.feed, returns]
        exact if_neg final
      rw [not_or, Bool.not_eq_false] at final
      obtain ⟨rfl, unfinished⟩ := final
      have parsing' := parsing_of_unfinished parsing returns unfinished
      obtain ⟨result, c'', rest', unfed, later, oneShot⟩ := ih parsing' rest next
      refine ⟨result, c'', rest', unfed, fed.trans later, ?_⟩
      rw [bytes, ← oneShot]
      exact (parseRequest_resume parsing returns unfinished _).symm

/-- A fresh context that is fed a text in chunks ends with the result, the context and the unread
bytes of a single call on the whole text. -/
theorem incremental_eq_oneShot (chunk : Bytes) (chunks : List Bytes) :
    ∃ result c rest unfed,
      HttpContext.feed {} [] (chunk :: chunks) = some (result, c, rest, unfed) ∧
        parseRequest {} (chunk :: chunks).flatten = some (result, c, rest ++ unfed.flatten) :=
  feed_eq (Or.inl rfl) [] chunk chunks

end Yvent.Http
