import Yvent.Http.Grammar
import Yvent.Http.Server

/-!
# Which requests of a stream are dispatched

One call of `onMessage` dispatches at most one request, and none is made without a read. So the
requests of a stream are all dispatched exactly when, for each of them, the reads that end at or
behind its last byte are at least as many as the requests from it to the end of the list.
-/

namespace Yvent.Http

/-- The requests one after another. -/
def stream (rs : List Request) : Bytes := (rs.map Request.bytes).flatten

/-- The offset in the stream just behind request number `k`. -/
def endOf (rs : List Request) (k : Nat) : Nat := (stream (rs.take (k + 1))).length

/-- How many bytes have arrived with read number `j`. -/
def received (chunks : List Bytes) (j : Nat) : Nat := (chunks.take (j + 1)).flatten.length

/-- The number of reads that end at or behind the end of request number `k`. -/
def readsFrom (rs : List Request) (chunks : List Bytes) (k : Nat) : Nat :=
  (List.range chunks.length).countP fun j => endOf rs k ≤ received chunks j

/-- For each request, the reads from its completion on are at least as many as the requests from
it on. -/
def EnoughReads (rs : List Request) (chunks : List Bytes) : Prop :=
  ∀ k < rs.length, rs.length ≤ k + readsFrom rs chunks k

instance (rs : List Request) (chunks : List Bytes) : Decidable (EnoughReads rs chunks) :=
  inferInstanceAs (Decidable (∀ k < rs.length, _))

/-- After the reads `chunks` on a new connection, `onRequest` has been called once for each of the
requests, in order and with what a fresh context obtains from it. -/
def DispatchesAll (rs : List Request) (chunks : List Bytes) : Prop :=
  ∃ conn, Connection.deliverAll {} chunks = some conn ∧
    conn.requests.map some = rs.map fun r => freshRequest r.bytes

theorem stream_take_append_drop (rs : List Request) (d : Nat) :
    stream (rs.take d) ++ stream (rs.drop d) = stream rs := by
  rw [stream, stream, ← List.flatten_append, ← List.map_append, List.take_append_drop, stream]

theorem stream_cons (r : Request) (rs : List Request) : stream (r :: rs) = r.bytes ++ stream rs :=
  rfl

theorem stream_take_succ {rs : List Request} {d : Nat} {r : Request} {rest : List Request}
    (next : rs.drop d = r :: rest) : stream (rs.take (d + 1)) = stream (rs.take d) ++ r.bytes := by
  have more : rs.take (d + 1) = rs.take d ++ [r] := by
    rw [List.take_add, next]
    rfl
  rw [more, stream, stream, List.map_append, List.flatten_append]
  simp

theorem endOf_mono (rs : List Request) {k l : Nat} (le : k ≤ l) : endOf rs k ≤ endOf rs l := by
  have longer : rs.take (l + 1) = rs.take (k + 1) ++ (rs.drop (k + 1)).take (l - k) := by
    rw [← List.take_add]
    congr 1
    omega
  rw [endOf, endOf, longer, stream, stream, List.map_append, List.flatten_append,
    List.length_append]
  omega

theorem received_le (chunks : List Bytes) (j : Nat) :
    received chunks j ≤ chunks.flatten.length := by
  have split : chunks.flatten = (chunks.take (j + 1)).flatten ++ (chunks.drop (j + 1)).flatten := by
    rw [← List.flatten_append, List.take_append_drop]
  rw [received, split, List.length_append]
  omega

/-- A request that has not arrived yet is behind every read. -/
theorem readsFrom_of_missing {rs : List Request} {chunks : List Bytes} {k : Nat}
    (missing : chunks.flatten.length < endOf rs k) : readsFrom rs chunks k = 0 := by
  rw [readsFrom, List.countP_eq_zero]
  intro j _
  have before := received_le chunks j
  rw [decide_eq_true_eq]
  omega

/-- One more read counts for the requests that have arrived with it. -/
theorem readsFrom_concat (rs : List Request) (chunks : List Bytes) (chunk : Bytes) (k : Nat) :
    readsFrom rs (chunks ++ [chunk]) k =
      readsFrom rs chunks k +
        if endOf rs k ≤ (chunks ++ [chunk]).flatten.length then 1 else 0 := by
  have earlier : ∀ j ∈ List.range chunks.length,
      received (chunks ++ [chunk]) j = received chunks j := by
    intro j mem
    have inRange := List.mem_range.mp mem
    rw [received, received, List.take_append_of_le_length (by omega)]
  have last : received (chunks ++ [chunk]) chunks.length = (chunks ++ [chunk]).flatten.length := by
    rw [received, List.take_of_length_le (by simp)]
  rw [readsFrom, readsFrom, List.length_append, List.length_singleton, List.range_succ,
    List.countP_append, List.countP_singleton, last]
  congr 1
  · apply List.countP_congr
    intro j mem
    rw [earlier j mem]
  · simp only [decide_eq_true_eq]

/-- `dispatched` requests are what one dispatch a read makes of the reads `chunks`. -/
structure Counted (rs : List Request) (chunks : List Bytes) (dispatched : Nat) : Prop where
  bound : dispatched ≤ rs.length
  upper : ∀ k < rs.length, dispatched ≤ k + readsFrom rs chunks k
  reached : dispatched = rs.length ∨ ∃ k < rs.length, dispatched = k + readsFrom rs chunks k

theorem counted_start (rs : List Request) : Counted rs [] 0 := by
  refine ⟨Nat.zero_le _, fun k _ => Nat.zero_le _, ?_⟩
  cases rs with
  | nil => exact Or.inl rfl
  | cons r rs => exact Or.inr ⟨0, Nat.succ_pos _, rfl⟩

/-- A read behind the next request dispatches it. -/
theorem Counted.dispatch {rs : List Request} {chunks : List Bytes} {chunk : Bytes} {d : Nat}
    (counted : Counted rs chunks d) (next : d < rs.length)
    (arrived : endOf rs d ≤ (chunks ++ [chunk]).flatten.length) :
    Counted rs (chunks ++ [chunk]) (d + 1) := by
  refine ⟨next, fun k lt => ?_, Or.inr ?_⟩
  · rw [readsFrom_concat]
    have upper := counted.upper k lt
    split
    · omega
    · next missing =>
      -- what has not arrived comes behind the request dispatched now
      have later : d < k := by
        by_contra notLater
        have mono := endOf_mono rs (Nat.not_lt.mp notLater)
        omega
      omega
  · rcases counted.reached with all | ⟨k, lt, reached⟩
    · omega
    · refine ⟨k, lt, ?_⟩
      have mono := endOf_mono rs (show k ≤ d by omega)
      rw [readsFrom_concat, if_pos (by omega)]
      omega

/-- A read before the end of the next request dispatches nothing. -/
theorem Counted.wait {rs : List Request} {chunks : List Bytes} {chunk : Bytes} {d : Nat}
    (counted : Counted rs chunks d)
    (missing : d < rs.length → (chunks ++ [chunk]).flatten.length < endOf rs d) :
    Counted rs (chunks ++ [chunk]) d := by
  refine ⟨counted.bound, fun k lt => ?_, ?_⟩
  · have upper := counted.upper k lt
    rw [readsFrom_concat]
    omega
  · by_cases next : d < rs.length
    · exact Or.inr ⟨d, next, (readsFrom_of_missing (missing next)).symm ▸ rfl⟩
    · have bound := counted.bound
      exact Or.inl (by omega)

theorem Counted.all_iff {rs : List Request} {chunks : List Bytes} {d : Nat}
    (counted : Counted rs chunks d) : d = rs.length ↔ EnoughReads rs chunks := by
  constructor
  · rintro rfl
    exact counted.upper
  · intro enough
    rcases counted.reached with all | ⟨k, lt, reached⟩
    · exact all
    · have bound := counted.bound
      have reads := enough k lt
      omega

/-- The connection after the reads `chunks` of the stream: the first `d` requests have been
dispatched, and the context and its buffer stand for the bytes behind them. -/
structure Serves (rs : List Request) (chunks : List Bytes) (conn : Connection) (d : Nat)
    (undispatched : Bytes) : Prop where
  counted : Counted rs chunks d
  arrived : stream (rs.take d) ++ undispatched = chunks.flatten
  resumes : ∀ later, parseRequest conn.context (conn.inBuffer ++ later) =
    parseRequest {} (undispatched ++ later)
  called : conn.requests.map some = (rs.take d).map fun r => freshRequest r.bytes

theorem serves_start (rs : List Request) : Serves rs [] {} 0 [] where
  counted := counted_start rs
  arrived := rfl
  resumes _ := rfl
  called := rfl

/-- What the parser does with bytes of the stream from the start of a request on. -/
theorem parseRequest_stream {rs : List Request} {text : Bytes} (part : text <+: stream rs) :
    (∃ r rest req tail, rs = r :: rest ∧ text = r.bytes ++ tail ∧
      freshRequest r.bytes = some req ∧
      parseRequest {} text = some (true, ⟨.allDone, req⟩, tail)) ∨
    ((∀ r rest, rs = r :: rest → text.length < r.bytes.length) ∧
      ∃ c tail, parseRequest {} text = some (true, c, tail) ∧ c.state ≠ .allDone) := by
  cases rs with
  | nil =>
    refine Or.inr ⟨fun r rest eq => (by cases eq), {}, [], ?_, by decide⟩
    rw [List.prefix_nil.mp part]
    rfl
  | cons r rest =>
    rw [stream_cons] at part
    by_cases whole : r.bytes.length ≤ text.length
    · obtain ⟨tail, rfl⟩ := List.prefix_of_prefix_length_le (List.prefix_append _ _) part whole
      obtain ⟨req, parsed⟩ := parseRequest_bytes r
      exact Or.inl ⟨r, rest, req, tail, rfl, rfl, freshRequest_bytes parsed, parsed tail⟩
    · refine Or.inr ⟨fun r' rest' eq => ?_, ?_⟩
      · cases eq
        exact Nat.not_le.mp whole
      · obtain ⟨missing, split⟩ :=
          List.prefix_of_prefix_length_le part (List.prefix_append _ _) (by omega)
        refine parseRequest_part r split fun none => whole ?_
        rw [← split, none, List.append_nil]

/-- One read. -/
theorem Serves.deliver {rs : List Request} {chunks : List Bytes} {chunk undispatched : Bytes}
    {conn : Connection} {d : Nat} (serves : Serves rs chunks conn d undispatched)
    (part : (chunks ++ [chunk]).flatten <+: stream rs) :
    ∃ conn' d' undispatched', conn.deliver chunk = some conn' ∧
      Serves rs (chunks ++ [chunk]) conn' d' undispatched' := by
  have arrived : stream (rs.take d) ++ (undispatched ++ chunk) = (chunks ++ [chunk]).flatten := by
    rw [List.flatten_append, ← serves.arrived, List.append_assoc, List.flatten_singleton]
  have text : undispatched ++ chunk <+: stream (rs.drop d) := by
    rw [← arrived, ← stream_take_append_drop rs d] at part
    exact (List.prefix_append_right_inj _).mp part
  have resumed := serves.resumes chunk
  rcases parseRequest_stream text with
    ⟨r, rest, req, tail, next, split, fresh, parsed⟩ | ⟨short, c, tail, parsed, unfinished⟩
  · have taken := stream_take_succ next
    have inRange : d < rs.length := by
      by_contra beyond
      rw [List.drop_eq_nil_of_le (Nat.not_lt.mp beyond)] at next
      cases next
    have take : rs.take (d + 1) = rs.take d ++ [r] := by
      rw [List.take_add, next]
      rfl
    refine ⟨_, d + 1, tail, deliver_of_done (resumed.trans parsed), ?_⟩
    refine ⟨serves.counted.dispatch inRange ?_, ?_, fun later => rfl, ?_⟩
    · rw [endOf, taken, ← arrived, split]
      simp only [List.length_append]
      omega
    · rw [taken, ← arrived, split, List.append_assoc]
    · rw [take, List.map_append, ← serves.called]
      simp [Connection.requests, Action.request?, fresh]
  · refine ⟨_, d, undispatched ++ chunk, deliver_of_waits (resumed.trans parsed) unfinished, ?_⟩
    refine ⟨serves.counted.wait fun inRange => ?_, arrived, fun later => ?_, serves.called⟩
    · have next : rs.drop d = rs[d] :: rs.drop (d + 1) := List.drop_eq_getElem_cons inRange
      have shorter := short _ _ next
      rw [endOf, stream_take_succ next, ← arrived]
      simp only [List.length_append] at shorter ⊢
      omega
    · rw [parseRequest_resume parsing_fresh parsed unfinished]

/-- All the reads of a part of the stream. -/
theorem serves_deliverAll {rs : List Request} (chunks : List Bytes)
    (part : chunks.flatten <+: stream rs) :
    ∃ conn d undispatched, Connection.deliverAll {} chunks = some conn ∧
      Serves rs chunks conn d undispatched := by
  induction chunks using List.reverseRecOn with
  | nil => exact ⟨{}, 0, [], rfl, serves_start rs⟩
  | append_singleton chunks chunk ih =>
    have earlier : chunks.flatten <+: stream rs := by
      rw [List.flatten_append] at part
      exact (List.prefix_append _ _).trans part
    obtain ⟨conn, d, undispatched, delivered, serves⟩ := ih earlier
    obtain ⟨conn', d', undispatched', last, serves'⟩ := serves.deliver part
    refine ⟨conn', d', undispatched', ?_, serves'⟩
    rw [deliverAll_concat, delivered]
    exact last

/-- The requests of a stream are all dispatched exactly when there are enough reads behind them. -/
theorem dispatchesAll_iff_enoughReads (rs : List Request) (chunks : List Bytes)
    (cut : chunks.flatten = stream rs) : DispatchesAll rs chunks ↔ EnoughReads rs chunks := by
  have part : chunks.flatten <+: stream rs := ⟨[], by rw [cut, List.append_nil]⟩
  obtain ⟨conn, d, undispatched, delivered, serves⟩ := serves_deliverAll chunks part
  rw [← serves.counted.all_iff]
  constructor
  · rintro ⟨conn', delivered', called⟩
    cases delivered.symm.trans delivered'
    have lengths := congrArg List.length (called.symm.trans serves.called)
    have bound := serves.counted.bound
    simp only [List.length_map, List.length_take] at lengths
    omega
  · rintro rfl
    exact ⟨conn, delivered, by rw [serves.called, List.take_length]⟩

/-- `"GET / HTTP/1.1\r\n\r\n"` -/
def getRoot : Request where
  method := .get
  target := ascii ['/']
  version := .http11
  headerLines := []
  knownMethod := by decide
  knownVersion := by decide
  noSpace := by decide
  oneLine := by decide
  fields := by simp

/-- Two requests in three reads, the first cut inside a line end. -/
theorem dispatchesAll_one_by_one :
    DispatchesAll [getRoot, getRoot]
      [getRoot.bytes.take 15, getRoot.bytes.drop 15 ++ getRoot.bytes.take 3,
        getRoot.bytes.drop 3] :=
  (dispatchesAll_iff_enoughReads _ _ (by decide)).mpr (by decide)

/-- Two requests in one read: the second one stays in the buffer and is not answered. -/
theorem two_requests_in_one_read :
    [getRoot.bytes ++ getRoot.bytes].flatten = stream [getRoot, getRoot] ∧
      ¬DispatchesAll [getRoot, getRoot] [getRoot.bytes ++ getRoot.bytes] := by
  refine ⟨by decide, ?_⟩
  rintro ⟨conn, delivered, called⟩
  have calls : (Connection.deliverAll {} [getRoot.bytes ++ getRoot.bytes]).map
      (fun conn => conn.requests.length) = some 1 := by decide
  rw [delivered] at calls
  have once : conn.requests.length = 1 := Option.some.inj calls
  have twice := congrArg List.length called
  rw [List.length_map, once] at twice
  cases twice

end Yvent.Http
