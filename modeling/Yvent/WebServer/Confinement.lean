import Yvent.Misc.Components
import Yvent.WebServer.Positions

/-!
# Paths below the root

A path that is given to the file system is relative to `dirfd`, and stays below it when it does not
begin with a slash and never leads up more often than down. The index names keep that, so all
depends on the path of the request.
-/

namespace Yvent.WebServer

open Http

/-- The component leads to the parent. -/
def leadsUp (comp : Bytes) : Bool := comp = [DOT, DOT]

/-- The component is a name. -/
def ordinary (comp : Bytes) : Bool := comp ≠ [] ∧ comp ≠ [DOT] ∧ comp ≠ [DOT, DOT]

/-- The path is relative and lexically confined to where it starts. -/
structure Inside (path : Bytes) : Prop where
  relative : path.head? ≠ some SLASH
  confined : Confined leadsUp ordinary (components SLASH path)

instance (path : Bytes) : Decidable (Inside path) :=
  decidable_of_iff (_ ∧ _) ⟨fun both => ⟨both.1, both.2⟩, fun h => ⟨h.relative, h.confined⟩⟩

variable {fs : FileSystem} {base path suffix name : Bytes} {n : Nat} {stats : Stat}
  {rsp : HttpResponse}

theorem head?_cString (path : Bytes) : (cString path).head? = some SLASH ↔ path.head? = some SLASH := by
  cases path with
  | nil => rfl
  | cons c path =>
    unfold cString
    by_cases zero : c = 0
    · simp [zero, SLASH]
    · simp [zero]

/-- A path that ends at a NUL ends there with more bytes behind. -/
theorem cString_append_of_mem (ends : 0 ∈ base) (more : Bytes) :
    cString (base ++ more) = cString base := by
  obtain ⟨before, after, rfl, absent⟩ := List.eq_append_cons_of_mem ends
  have all : ∀ c ∈ before, (decide (c ≠ 0)) = true := fun c mem =>
    decide_eq_true fun zero => absent (zero ▸ mem)
  rw [cString, cString, List.append_assoc, List.takeWhile_append_of_pos all,
    List.takeWhile_append_of_pos all]
  rfl

theorem cString_eq_self (absent : 0 ∉ base) : cString base = base := by
  refine List.takeWhile_eq_self_iff.mpr fun c mem => decide_eq_true fun zero => ?_
  exact absent (zero ▸ mem)

/-- A name behind a path and a slash. -/
theorem Inside.enter (inside : Inside base) (nonempty : base ≠ []) (oneName : SLASH ∉ name)
    (level : leadsUp name = false) : Inside (base ++ SLASH :: name) := by
  refine ⟨?_, ?_⟩
  · rw [List.head?_append_of_ne_nil _ nonempty]
    exact inside.relative
  · rw [components_append_sep, components_of_not_mem oneName]
    exact inside.confined.append (List.forall_mem_singleton.mpr level)

/-- A name behind a path that has its slash already. -/
theorem Inside.enter_slash (inside : Inside (base ++ [SLASH])) (oneName : SLASH ∉ name)
    (level : leadsUp name = false) : Inside (base ++ SLASH :: name) := by
  refine ⟨?_, ?_⟩
  · have relative := inside.relative
    cases base with
    | nil => exact absurd rfl relative
    | cons c base => exact relative
  · have confined := inside.confined
    rw [components_append_sep] at confined ⊢
    rw [components_of_not_mem oneName]
    exact confined.of_append.append (List.forall_mem_singleton.mpr level)

/-- The names that may come behind a directory: the index names, or none. -/
theorem names_level : ∀ name ∈ [] :: indexs, SLASH ∉ name ∧ 0 ∉ name ∧ leadsUp name = false := by
  decide

/-- The directory with its slash and an index name behind it. -/
theorem inside_withSlash {dir : Bytes} (inside : Inside (cString base)) (slash : withSlash base = .ok dir)
    (known : name ∈ [] :: indexs) : Inside (cString (dir ++ name)) := by
  obtain ⟨oneName, noEnd, level⟩ := names_level name known
  obtain ⟨c, last, rfl⟩ : ∃ c, base.getLast? = some c ∧
      dir = if c ≠ SLASH then base ++ [SLASH] else base := by
    unfold withSlash lastByte at slash
    cases last : base.getLast? with
    | none =>
      rw [last] at slash
      cases slash
    | some c =>
      rw [last] at slash
      cases slash
      exact ⟨c, rfl, rfl⟩
  obtain ⟨front, rfl⟩ := List.getLast?_eq_some_iff.mp last
  by_cases ends : 0 ∈ front ++ [c]
  · split
    · rw [List.append_assoc, cString_append_of_mem ends]
      exact inside
    · rw [cString_append_of_mem ends]
      exact inside
  · rw [cString_eq_self ends] at inside
    split
    · next other =>
      have whole : front ++ [c] ++ [SLASH] ++ name = front ++ [c] ++ SLASH :: name := by simp
      have noEnd' : 0 ∉ front ++ [c] ++ SLASH :: name := by
        simp only [List.mem_append, List.mem_cons, not_or] at ends ⊢
        exact ⟨ends, by decide, noEnd⟩
      rw [whole, cString_eq_self noEnd']
      exact inside.enter (by simp) oneName level
    · next same =>
      obtain rfl : c = SLASH := not_not.mp same
      have whole : front ++ [SLASH] ++ name = front ++ SLASH :: name := by simp
      have noEnd' : 0 ∉ front ++ SLASH :: name := by
        simp only [List.mem_append, List.mem_cons, not_or] at ends ⊢
        exact ⟨ends.1, by decide, noEnd⟩
      rw [whole, cString_eq_self noEnd']
      exact inside.enter_slash oneName level

/-! ## The calls -/

/-- The loop asks for the index names, and opens one of them if anything. -/
theorem paths_findIndex (names : List Bytes) :
    (∀ call ∈ (findIndex fs path suffix n names).1, ∃ name ∈ names, call.path = path ++ name) ∧
      ∀ found, (findIndex fs path suffix n names).2 = .ok (some found) →
        ∃ name ∈ [] :: names, found.path = path ++ name := by
  induction names generalizing n with
  | nil => exact ⟨by simp [findIndex], by simp [findIndex]⟩
  | cons name names ih =>
    rw [findIndex]
    cases fs.fstatat n (cString (path ++ name)) with
    | none =>
      obtain ⟨calls, opened⟩ := ih (n := n + 1)
      refine ⟨List.forall_mem_cons.mpr ⟨⟨name, List.mem_cons_self, rfl⟩, fun call mem => ?_⟩,
        fun found here => ?_⟩
      · obtain ⟨other, mem, same⟩ := calls call mem
        exact ⟨other, List.mem_cons_of_mem _ mem, same⟩
      · obtain ⟨other, mem, same⟩ := opened found here
        refine ⟨other, ?_, same⟩
        rcases List.mem_cons.mp mem with rfl | mem
        · exact List.mem_cons_self
        · exact List.mem_cons_of_mem _ (List.mem_cons_of_mem _ mem)
    | some stats =>
      refine ⟨List.forall_mem_singleton.mpr ⟨name, List.mem_cons_self, rfl⟩, fun found here => ?_⟩
      cases dot : rfind DOT (path ++ name) with
      | none =>
        simp only [dot] at here
        cases here
        exact ⟨[], List.mem_cons_self, (List.append_nil _).symm⟩
      | some pos =>
        obtain ⟨rest, cut, -⟩ := substr_of_rfind dot
        simp only [dot, cut] at here
        cases here
        exact ⟨name, List.mem_cons_of_mem _ List.mem_cons_self, rfl⟩

theorem paths_serveFile {found : Found} :
    ∀ call ∈ (serveFile fs found rsp).1, call.path = found.path :=
  List.forall_mem_singleton.mpr rfl

/-- Behind the first `fstatat` of a path inside, all paths are inside. -/
theorem inside_serve (inside : Inside (cString path)) :
    ∀ call ∈ (serve fs path suffix stats rsp).1, Inside (cString call.path) := by
  intro call mem
  unfold serve at mem
  split at mem
  · cases slash : withSlash path with
    | error thrown => simp [slash] at mem
    | ok dir =>
      obtain ⟨asked, opened⟩ :
          (∀ call ∈ (findIndex fs dir suffix 1 indexs).1, ∃ name ∈ indexs,
              call.path = dir ++ name) ∧
            ∀ found, (findIndex fs dir suffix 1 indexs).2 = .ok (some found) →
              ∃ name ∈ [] :: indexs, found.path = dir ++ name := paths_findIndex indexs
      have index : ∀ call ∈ (findIndex fs dir suffix 1 indexs).1, Inside (cString call.path) := by
        intro call mem
        obtain ⟨name, known, same⟩ := asked call mem
        rw [same]
        exact inside_withSlash inside slash (List.mem_cons_of_mem _ known)
      simp only [slash] at mem
      cases result : (findIndex fs dir suffix 1 indexs).2 with
      | error thrown =>
        simp only [result] at mem
        exact index call mem
      | ok found =>
        cases found with
        | none =>
          simp only [result] at mem
          exact index call mem
        | some found =>
          simp only [result] at mem
          rcases List.mem_append.mp mem with mem | mem
          · exact index call mem
          · obtain ⟨name, known, same⟩ := opened found result
            rw [paths_serveFile call mem, same]
            exact inside_withSlash inside slash known
  · rw [paths_serveFile call mem]
    exact inside

/-- Every path that `onRequest` gives to the file system is relative and confined to `dirfd` exactly
when the path of the request, from its second byte up to a NUL, is. -/
theorem confined_iff (fs : FileSystem) (req : HttpRequest) (rsp : HttpResponse) :
    (∀ call ∈ (onRequest fs req rsp).1, Inside (cString call.path)) ↔
      (req.path.drop 1).head? ≠ some SLASH ∧
        staysInside leadsUp ordinary 0 (components SLASH (cString (req.path.drop 1))) = true := by
  have reads : Inside (cString (req.path.drop 1)) ↔ (req.path.drop 1).head? ≠ some SLASH ∧
      staysInside leadsUp ordinary 0 (components SLASH (cString (req.path.drop 1))) = true := by
    rw [← confined_iff_staysInside, Ne, ← head?_cString]
    exact ⟨fun inside => ⟨inside.relative, inside.confined⟩, fun both => ⟨both.1, both.2⟩⟩
  rw [← reads]
  by_cases empty : req.path = []
  · have nowhere : Inside (cString (req.path.drop 1)) := by
      rw [empty]
      decide
    simpa [onRequest_of_nil empty] using nowhere
  obtain ⟨suffix, suffixIs, -⟩ := suffixOf_ok req.path
  unfold onRequest
  rw [suffixIs, relativePath_eq empty]
  have first : Inside (cString (requested req.path)) ↔ Inside (cString (req.path.drop 1)) := by
    unfold requested
    split
    · next one =>
      rw [List.drop_eq_nil_of_le (Nat.le_of_eq one)]
      decide
    · exact Iff.rfl
  rw [← first]
  cases answer : fs.fstatat 0 (cString (requested req.path)) with
  | none => simp [answer, Call.path]
  | some stats =>
    simp only [answer, List.forall_mem_cons]
    exact ⟨fun all => all.1, fun inside => ⟨inside, inside_serve inside⟩⟩

/-- `"GET /../a HTTP/1.1"` -/
def parentLine : Bytes :=
  ascii ['G', 'E', 'T', ' ', '/', '.', '.', '/', 'a', ' ', 'H', 'T', 'T', 'P', '/', '1', '.', '1']

/-- A request for a file beside the root. -/
theorem parent_not_confined :
    ¬∀ line req, parseRequestLine {} line = (true, req) → ∀ fs rsp,
      ∀ call ∈ (onRequest fs req rsp).1, Inside (cString call.path) := by
  intro confined
  have accepted : parseRequestLine {} parentLine = (true, (parseRequestLine {} parentLine).2) := rfl
  have inside := confined parentLine _ accepted regularFiles { closeConnection := false }
    (.fstatat (ascii ['.', '.', '/', 'a'])) List.mem_cons_self
  revert inside
  decide

end Yvent.WebServer
