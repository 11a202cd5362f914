import Yvent.WebServer.Model

/-!
# Positions in the strings of the web server

A `substr` of `onRequest` throws for an empty path, and for a file whose request has no dot: the
suffix is empty then, and `substr(1)` looks behind its end. Everything else is in range.
-/

namespace Yvent.WebServer

open Http

variable {fs : FileSystem} {s path suffix : Bytes} {pos n : Nat} {stats : Stat} {rsp : HttpResponse}

theorem rfind_eq_none {c : UInt8} : rfind c s = none ↔ c ∉ s := by
  induction s with
  | nil => simp [rfind]
  | cons b s ih =>
    rw [rfind, List.mem_cons, not_or, ← ih]
    cases rfind c s with
    | some pos => simp
    | none =>
      by_cases here : b = c
      · simp [here]
      · simp [here, Ne.symm here]

theorem lt_of_rfind {c : UInt8} (found : rfind c s = some pos) : pos < s.length := by
  induction s generalizing pos with
  | nil => cases found
  | cons b s ih =>
    rw [rfind] at found
    rw [List.length_cons]
    cases later : rfind c s with
    | some pos' =>
      rw [later] at found
      cases found
      exact Nat.succ_lt_succ (ih later)
    | none =>
      rw [later] at found
      by_cases here : b = c
      · rw [if_pos here] at found
        cases found
        exact Nat.succ_pos _
      · rw [if_neg here] at found
        cases found

/-- The text from the last `c` on. -/
theorem substr_of_rfind {c : UInt8} (found : rfind c s = some pos) :
    ∃ rest, substr s pos = .ok rest ∧ rest ≠ [] := by
  have inside := lt_of_rfind found
  refine ⟨s.drop pos, if_pos (Nat.le_of_lt inside), fun empty => ?_⟩
  have short := List.drop_eq_nil_iff.mp empty
  omega

/-- The suffix of a path is there, and empty exactly for a path without a dot. -/
theorem suffixOf_ok (path : Bytes) :
    ∃ suffix, suffixOf path = .ok suffix ∧ (suffix ≠ [] ↔ DOT ∈ path) := by
  unfold suffixOf
  cases found : rfind DOT path with
  | none => exact ⟨[], rfl, by simpa using rfind_eq_none.mp found⟩
  | some pos =>
    obtain ⟨rest, cut, nonempty⟩ := substr_of_rfind found
    refine ⟨rest, cut, fun _ => ?_, fun _ => nonempty⟩
    by_contra absent
    rw [rfind_eq_none.mpr absent] at found
    cases found

/-- The name below `dirfd` that a request asks for; it is `relativePath` where that does not
throw. -/
def requested (path : Bytes) : Bytes := if path.length = 1 then [DOT, SLASH] else path.drop 1

theorem relativePath_eq (nonempty : path ≠ []) : relativePath path = .ok (requested path) := by
  unfold relativePath requested
  split
  · rfl
  · exact if_pos (List.length_pos_of_ne_nil nonempty)

theorem requested_ne_nil (nonempty : path ≠ []) : requested path ≠ [] := by
  unfold requested
  split
  · simp
  · next longer =>
    have some : 0 < path.length := List.length_pos_of_ne_nil nonempty
    refine fun empty => ?_
    have short := List.drop_eq_nil_iff.mp empty
    omega

theorem withSlash_ok (nonempty : path ≠ []) : ∃ dir, withSlash path = .ok dir := by
  unfold withSlash lastByte
  rw [List.getLast?_eq_some_getLast nonempty]
  exact ⟨_, rfl⟩

/-- With a dot in every index name the loop over them throws nothing and finds a suffix. -/
theorem findIndex_ok (names : List Bytes) (dots : ∀ name ∈ names, DOT ∈ name) :
    ∃ result, (findIndex fs path suffix n names).2 = .ok result ∧
      ∀ found ∈ result, found.suffix ≠ [] := by
  induction names generalizing n with
  | nil => exact ⟨none, rfl, by simp⟩
  | cons name names ih =>
    rw [findIndex]
    cases fs.fstatat n (cString (path ++ name)) with
    | none => exact ih fun other mem => dots other (List.mem_cons_of_mem _ mem)
    | some stats =>
      cases here : rfind DOT (path ++ name) with
      | none =>
        have dot := dots name List.mem_cons_self
        exact absurd (List.mem_append_right path dot) (rfind_eq_none.mp here)
      | some pos =>
        obtain ⟨rest, cut, nonempty⟩ := substr_of_rfind here
        refine ⟨some ⟨path ++ name, rest, stats⟩, ?_, ?_⟩
        · simp [cut, Except.map]
        · simpa using nonempty

theorem serveFile_ok {found : Found} :
    (∃ served, (serveFile fs found rsp).2 = .ok served) ↔ found.suffix ≠ [] := by
  unfold serveFile substr
  cases found.suffix with
  | nil => simp [Except.map]
  | cons c suffix => simp [Except.map]

theorem indexs_dots : ∀ name ∈ indexs, DOT ∈ name := by decide

/-- A directory is served without a throw, whatever its index. -/
theorem serve_dir (isDir : stats.isDir = true) (nonempty : path ≠ []) :
    ∃ served, (serve fs path suffix stats rsp).2 = .ok served := by
  obtain ⟨dir, slash⟩ := withSlash_ok nonempty
  obtain ⟨result, index, suffixes⟩ : ∃ result, (findIndex fs dir suffix 1 indexs).2 = .ok result ∧
      ∀ found ∈ result, found.suffix ≠ [] := findIndex_ok indexs indexs_dots
  unfold serve
  rw [if_pos isDir, slash]
  simp only [index]
  cases result with
  | none => exact ⟨_, rfl⟩
  | some found => exact serveFile_ok.mpr (suffixes found rfl)

/-- For an empty path nothing is asked of the file system. -/
theorem onRequest_of_nil {req : HttpRequest} (empty : req.path = []) :
    onRequest fs req rsp = ([], .error .outOfRange) := by
  unfold onRequest
  rw [empty]
  rfl

/-- `onRequest` comes to its end exactly when the path is not empty and, where what it names is
there and no directory, has a dot. -/
theorem returns_iff (fs : FileSystem) (req : HttpRequest) (rsp : HttpResponse) :
    (∃ served, (onRequest fs req rsp).2 = .ok served) ↔
      req.path ≠ [] ∧ ∀ stats, fs.fstatat 0 (cString (requested req.path)) = some stats →
        stats.isDir = false → DOT ∈ req.path := by
  by_cases empty : req.path = []
  · simp [onRequest_of_nil, empty]
  obtain ⟨suffix, suffixIs, dotted⟩ := suffixOf_ok req.path
  unfold onRequest
  rw [suffixIs, relativePath_eq empty]
  simp only [ne_eq, empty, not_false_eq_true, true_and]
  cases answer : fs.fstatat 0 (cString (requested req.path)) with
  | none => simp
  | some stats =>
    cases isDir : stats.isDir with
    | true => simpa [isDir] using serve_dir isDir (requested_ne_nil empty)
    | false =>
      simp only [serve, isDir, Bool.false_eq_true, if_false, serveFile_ok, dotted]
      simp [isDir]

/-- `"GET /a HTTP/1.1"` -/
def plainLine : Bytes :=
  ascii ['G', 'E', 'T', ' ', '/', 'a', ' ', 'H', 'T', 'T', 'P', '/', '1', '.', '1']

/-- Every path is a regular file. -/
def regularFiles : FileSystem where
  fstatat _ _ := some ⟨0o100644#32, 1⟩
  openat _ := 3

/-- A request for a file whose name has no dot. -/
theorem plain_name_throws :
    ¬∀ line req, parseRequestLine {} line = (true, req) → ∀ fs rsp,
      ∃ served, (onRequest fs req rsp).2 = .ok served := by
  intro returns
  have accepted : parseRequestLine {} plainLine = (true, (parseRequestLine {} plainLine).2) := rfl
  obtain ⟨served, returned⟩ := returns plainLine _ accepted regularFiles { closeConnection := false }
  have thrown : (onRequest regularFiles (parseRequestLine {} plainLine).2
      { closeConnection := false }).2 = .error .outOfRange := rfl
  rw [thrown] at returned
  cases returned

end Yvent.WebServer
