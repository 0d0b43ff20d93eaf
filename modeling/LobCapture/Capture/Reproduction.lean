/-
# A replay reproduces the live run

What a replay of the two files of a live run does, when they can be read back: it uses each
snapshot of a symbol on the row on which the live run used it, as long as the live run obtained
none after a request had failed, and then it writes the same rows.
-/
import LobCapture.Capture.Mirror

namespace LobCapture

open Lib

/-- The body of the response that was used. -/
def Fetch.body : Fetch → Bytes
  | .ok raw _ => raw
  | _ => []

/-- The rows that a live run wrote to its market-data file: the symbol of each, and what became of
the request for a snapshot. -/
def liveRows (h : List (Frame × Option (Bytes × Fetch))) : List (Bytes × Fetch) :=
  h.filterMap Prod.snd

/-- The rows that a replay read: the symbol of each, and the snapshot that was used on it. -/
def replayRows (h : List (Bytes × Option (Bytes × Option DepthEvent))) :
    List (Bytes × Option DepthEvent) :=
  h.filterMap Prod.snd

/-- The snapshot that was obtained on a row, with the symbol of the row. -/
def snapshotOf (x : Bytes × Fetch) : Option (Bytes × DepthEvent) :=
  match x.2 with
  | .ok _ snap => some (x.1, snap)
  | _ => none

/-- What a replay looks at in a row. -/
def Row.content (parse : Bytes → Option DepthEvent) (row : Row) :
    Timestamp × Bytes × UInt64 × Bytes × Option DepthEvent :=
  (row.ts, row.kind, row.connEpoch, row.symbol,
    if row.kind = lit "depth_diff" ∨ row.kind = lit "depth5" then parse row.payload else none)

/-- The two files of a live run read back: as rows and as snapshots they are what was written. -/
structure ReadBack (parse : Bytes → Option DepthEvent) (cfg : Config) (frames : List Frame) :
    Prop where
  rows : (((lines (runShard parse cfg frames).1.md).drop 1).filterMap readRow).map
      (Row.content parse) =
    ((entries parse cfg frames).map Message.toRow).map (Row.content parse)
  snapshots : loadSnapshots parse (runShard parse cfg frames).1.snaps =
    (liveRows (runShard parse cfg frames).2).filterMap snapshotOf

/-- A live run with files that can be read back.  The client counts the epochs upwards. -/
structure Legible (parse : Bytes → Option DepthEvent) (cfg : Config) (frames : List Frame) :
    Prop where
  epochs : frames.Pairwise fun a b => a.connEpoch ≤ b.connEpoch
  rows : ∀ m ∈ frames.filterMap (Frame.message parse cfg), Readable m
  bodies : ∀ x ∈ liveRows (runShard parse cfg frames).2, newline ∉ x.2.body

variable {parse : Bytes → Option DepthEvent} {cfg rcfg : Config} {frames : List Frame}

/-! ## The run over the entries -/

lemma mem_entries {x : Frame × Message} (h : x ∈ entries parse cfg frames) :
    x.1 ∈ frames ∧ x.1.message parse cfg = some x.2 := by
  obtain ⟨fr, hfr, hx⟩ := List.mem_filterMap.mp h
  obtain ⟨m, hm, rfl⟩ := Option.map_eq_some_iff.mp hx
  exact ⟨hfr, hm⟩

lemma pairwise_entries (h : frames.Pairwise fun a b => a.connEpoch ≤ b.connEpoch) :
    (entries parse cfg frames).Pairwise fun a b => a.1.connEpoch ≤ b.1.connEpoch := by
  refine List.pairwise_filterMap.mpr (h.imp ?_)
  intro a b hab x hx z hz
  obtain ⟨m, hm, rfl⟩ := Option.map_eq_some_iff.mp hx
  obtain ⟨n, hn, rfl⟩ := Option.map_eq_some_iff.mp hz
  exact hab

lemma runShard_eq :
    (runShard parse cfg frames).1 = (liveRun parse cfg (.new cfg) (entries parse cfg frames)).1 ∧
      liveRows (runShard parse cfg frames).2 =
        (liveRun parse cfg (.new cfg) (entries parse cfg frames)).2.map Prod.snd :=
  run_handler parse cfg (.new cfg) frames

lemma onLine_eq (b : Bool) :
    Replay.onLine parse rcfg b = skipping (Replay.take parse rcfg b) readRow := by
  ext t line : 2
  cases hrow : readRow line <;> simp [Replay.onLine, skipping, hrow]

/-- The replay of a run over the entries. -/
abbrev replayRun (parse : Bytes → Option DepthEvent) (rcfg : Config) (t : Replay)
    (es : List (Frame × Message)) :
    Replay × List ((Frame × Message) × Bytes × Option DepthEvent) :=
  run (fun t x => t.take parse rcfg true (Message.toRow x)) t es

/-- Nothing else in a row matters. -/
lemma take_congr {row row' : Row} (h : row.content parse = row'.content parse) (b : Bool)
    (t : Replay) : t.take parse rcfg b row = t.take parse rcfg b row' := by
  simp only [Row.content, Prod.mk.injEq] at h
  obtain ⟨hts, hkind, hepoch, hsymbol, hevent⟩ := h
  have hrow : ∀ (r : SymReplay) (snaps : List DepthEvent),
      r.onRow parse rcfg b row snaps = r.onRow parse rcfg b row' snaps := by
    intro r snaps
    simp only [SymReplay.onRow, hts, hkind, hepoch]
    by_cases hd : row'.kind = lit "depth_diff"
    · rw [hkind, if_pos (.inl hd), if_pos (.inl hd)] at hevent
      simp only [if_pos hd, hevent]
    by_cases h5 : row'.kind = lit "depth5"
    · rw [hkind, if_pos (.inr h5), if_pos (.inr h5)] at hevent
      simp only [if_neg hd, if_pos h5, hevent]
    · simp only [if_neg hd, if_neg h5]
  simp only [Replay.take, hsymbol, hrow]

/-- A replay of lines with the rows of the entries. -/
lemma run_onLine {ls : List Bytes} {es : List (Frame × Message)}
    (h : (ls.filterMap readRow).map (Row.content parse) =
      (es.map Message.toRow).map (Row.content parse)) (t : Replay) :
    (run (Replay.onLine parse rcfg true) t ls).1 = (replayRun parse rcfg t es).1 ∧
      replayRows (run (Replay.onLine parse rcfg true) t ls).2 =
        (replayRun parse rcfg t es).2.map Prod.snd := by
  obtain ⟨hstate, hreplies⟩ := run_congr
    (fun t _ _ hrow => @take_congr parse rcfg _ _ hrow true t) t h
  rw [onLine_eq]
  constructor
  · rw [(run_skipping readRow t _).1, hstate]
    exact (run_map Message.toRow t es).1
  · rw [replayRows, (run_skipping readRow t _).2, hreplies]
    exact (run_map Message.toRow t es).2

/-! ## The queue of a symbol -/

lemma parse_of_onMessage_eq_ok {st : SymState} {fr : Frame} {m : Message} {raw : Bytes}
    {snap : DepthEvent} (h : (st.onMessage parse cfg fr m).2 = .ok raw snap) :
    parse raw = some snap := by
  have hresync : ∀ (st : SymState) (response : Option Bytes),
      (st.resync parse response).2 = .ok raw snap → parse raw = some snap := by
    intro st response hok
    cases response with
    | none => exact absurd hok (by simp [SymState.resync])
    | some raw' =>
      simp only [SymState.resync] at hok
      cases hp : parse raw' with
      | none => simp [hp] at hok
      | some snap' =>
        rw [hp] at hok
        obtain ⟨rfl, rfl⟩ : raw' = raw ∧ snap' = snap := by simpa using hok
        exact hp
  simp only [SymState.onMessage] at h
  split at h
  · split_ifs at h
    exact hresync _ _ h
  · exact absurd h (by simp)
  · split_ifs at h
  · exact absurd h (by simp)

/-- What the history of a run says about a request. -/
lemma of_mem_liveRun {s : Shard} {es : List (Frame × Message)}
    {z : (Frame × Message) × Bytes × Fetch} (hz : z ∈ (liveRun parse cfg s es).2) :
    z.1 ∈ es ∧ z.2.1 = z.1.2.symbol ∧ (z.1.2.symbol ∉ cfg.symbols → z.2.2 = .none) ∧
      ∀ raw snap, z.2.2 = .ok raw snap → parse raw = some snap := by
  constructor
  · rw [← run_inputs (Shard.take parse cfg) s es]
    exact List.mem_map_of_mem hz
  · refine reply_of_mem_run (P := fun x r => r.1 = x.2.symbol ∧
      (x.2.symbol ∉ cfg.symbols → r.2 = .none) ∧
      ∀ raw snap, r.2 = .ok raw snap → parse raw = some snap) (fun x _ t => ?_) s z hz
    rw [Shard.fetch_take]
    refine ⟨rfl, fun hs => if_neg fun h => hs h.2, ?_⟩
    intro raw snap hok
    dsimp only at hok
    split_ifs at hok
    exact parse_of_onMessage_eq_ok hok

lemma Legible.readable (h : Legible parse cfg frames) {x : Frame × Message}
    (hx : x ∈ entries parse cfg frames) : Readable x.2 := by
  obtain ⟨hfr, hm⟩ := mem_entries hx
  exact h.rows x.2 (List.mem_filterMap.mpr ⟨x.1, hfr, hm⟩)

lemma Legible.record_ok (h : Legible parse cfg frames) {r : Record}
    (hr : r ∈ recorded (liveRun parse cfg (.new cfg) (entries parse cfg frames)).2) :
    r.Ok parse := by
  obtain ⟨z, hz, hrec⟩ := List.mem_filterMap.mp hr
  obtain ⟨hin, hsym, -, hparse⟩ := of_mem_liveRun hz
  have hbody : newline ∉ z.2.2.body := by
    refine h.bodies z.2 ?_
    rw [runShard_eq.2]
    exact List.mem_map_of_mem hz
  cases hf : z.2.2 with
  | none => simp [recordOf, hf] at hrec
  | failed => simp [recordOf, hf] at hrec
  | ok raw snap =>
    obtain rfl : (⟨z.1.1.snapTs, z.2.1, raw, snap⟩ : Record) = r := by
      simpa [recordOf, hf] using hrec
    rw [hf] at hbody
    exact ⟨hsym ▸ (h.readable hin).1, hbody, hparse raw snap hf⟩

/-- The queue of a symbol holds what its requests obtained. -/
lemma queue_snapshots (y : Bytes) (l : List (Bytes × Fetch)) :
    ((l.filterMap snapshotOf).filter (·.1 = y)).map Prod.snd = results (l.map (attemptOf y)) := by
  induction l with
  | nil => rfl
  | cons x l ih =>
    have hcons : results ((x :: l).map (attemptOf y)) =
        (attemptOf y x).result.toList ++ results (l.map (attemptOf y)) := by
      rw [results, List.map_cons, List.filterMap_cons]
      cases (attemptOf y x).result <;> rfl
    rw [hcons, ← ih, List.filterMap_cons]
    cases hf : x.2 with
    | none => simp [snapshotOf, hf, attemptOf, Fetch.attempt, Attempt.result]
    | failed => by_cases hy : x.1 = y <;>
        simp [snapshotOf, hf, hy, attemptOf, Fetch.attempt, Attempt.result]
    | ok raw snap => by_cases hy : x.1 = y <;>
        simp [snapshotOf, hf, hy, attemptOf, Fetch.attempt, Attempt.result]

lemma recorded_snapshots (h : List ((Frame × Message) × Bytes × Fetch)) :
    (recorded h).map (fun r => (r.symbol, r.snap)) = (h.map Prod.snd).filterMap snapshotOf := by
  rw [recorded, List.map_filterMap, List.filterMap_map]
  refine List.filterMap_congr fun x _ => ?_
  rw [recordOf, Function.comp_apply, snapshotOf]
  cases x.2.2 <;> rfl

/-- **Legible files read back.** -/
lemma Legible.readBack (h : Legible parse cfg frames) : ReadBack parse cfg frames where
  rows := by
    rw [runShard_eq.1, lines_md fun x hx => h.readable hx, List.filterMap_map]
    refine congrArg _ (List.filterMap_eq_map_iff_forall_eq_some.mpr fun x _ => readRow_line x)
  snapshots := by
    rw [runShard_eq.1, runShard_eq.2, loadSnapshots_liveRun fun r hr => h.record_ok hr,
      recorded_snapshots]

/-! ## The two runs -/

/-- The replay of the files of a live run, as a run over the entries. -/
lemma runReplay_eq (h : ReadBack parse cfg frames) :
    let live := runShard parse cfg frames
    let t := Replay.new parse (some live.1.snaps)
    (runReplay parse rcfg live.1.md (some live.1.snaps)).1 =
        (replayRun parse rcfg t (entries parse cfg frames)).1 ∧
      replayRows (runReplay parse rcfg live.1.md (some live.1.snaps)).2 =
        (replayRun parse rcfg t (entries parse cfg frames)).2.map Prod.snd := by
  exact run_onLine h.rows _

/-- The requests of a symbol, in the run over the entries. -/
lemma attempts_liveRows (y : Bytes) :
    (liveRows (runShard parse cfg frames).2).map (attemptOf y) =
      attempts (attemptOf y)
        (liveRun parse cfg (.new cfg) (entries parse cfg frames)).2 := by
  rw [runShard_eq.2, List.map_map]
  rfl

/-- A symbol of another shard has no requests. -/
lemma results_eq_nil_of_notMem {y : Bytes} (hy : y ∉ cfg.symbols) :
    results ((liveRows (runShard parse cfg frames).2).map (attemptOf y)) = [] := by
  rw [attempts_liveRows]
  refine results_eq_nil.mpr fun a ha => ?_
  obtain ⟨z, hz, rfl⟩ := List.mem_map.mp ha
  obtain ⟨-, hsym, hother, -⟩ := of_mem_liveRun hz
  rw [attemptOf]
  split_ifs with hzy
  · have hnone : z.2.2 = .none := hother (by rw [← hsym, hzy]; exact hy)
    rw [hnone]
    rfl
  · rfl

lemma attemptOf_ne_failed {y : Bytes} {x : Bytes × Fetch} (h : x.2 ≠ .failed) :
    attemptOf y x ≠ .failed := by
  rw [attemptOf]
  split_ifs
  · cases hf : x.2 with
    | none => simp [Fetch.attempt]
    | failed => exact absurd hf h
    | ok raw snap => simp [Fetch.attempt]
  · simp

/-- The replay starts with what the requests of each symbol obtained. -/
lemma snaps_new (h : ReadBack parse cfg frames) (y : Bytes) :
    (Replay.new parse (some (runShard parse cfg frames).1.snaps)).snaps y =
      results ((liveRows (runShard parse cfg frames).2).map (attemptOf y)) := by
  show ((loadSnapshots parse (runShard parse cfg frames).1.snaps).filter (·.1 = y)).map
    Prod.snd = _
  rw [h.snapshots, queue_snapshots]

/-- At first a symbol is in the same state in both runs. -/
lemma mirrors_new (hepochs : frames.Pairwise fun a b => a.connEpoch ≤ b.connEpoch)
    (hvenue : rcfg.venue = cfg.venue) {y : Bytes}
    (hy : ∀ x ∈ entries parse cfg frames, x.2.symbol = y → y ∈ cfg.symbols) (text : Bytes) :
    Mirrors parse cfg y rcfg (entries parse cfg frames) (.new cfg)
      (.new parse (some text)) where
  synced := by
    refine .inl ⟨rfl, rfl, ?_⟩
    show BookSession.new (deriveId y) rcfg.venue = _
    rw [hvenue]
  seq := fun _ => rfl
  rows := fun _ => rfl
  epochs := fun e he => absurd he (Option.not_mem_none e)
  later := pairwise_entries hepochs
  stamped := by
    intro x hx hxy
    have hsub : x.2.symbol ∈ cfg.symbols := hxy ▸ hy x hx hxy
    exact ⟨hsub, stamped_message (mem_entries hx).2 hsub⟩

lemma Replay.rows_eq (rcfg : Config) (t : Replay) (y : Bytes) :
    t.rows y = (t.book rcfg y).rows := by
  rw [Replay.rows, Replay.book]
  cases t.books y <;> rfl

/-! ### Two short runs -/

/-- The settings of the runs below. -/
def oneSymbol : Config where
  venue := .spot
  symbols := [lit "A"]
  timePolicy := .recvWallClock
  integrateTrades := true
  shardId := 0

/-- A frame with a diff of the symbol. -/
def diffFrame (connEpoch : UInt64) (ids : String) (response : Option String) : Frame where
  text := lit ("\x7b\"stream\":\"a@depth\",\"data\":\x7b" ++ ids ++
    ",\"b\":[[\"1.5\",\"2\"]],\"a\":[]\x7d\x7d")
  connEpoch := connEpoch
  connSeq := 0
  recvTs := ⟨7, 8⟩
  response := response.map lit
  snapTs := ⟨9, 10⟩

/-- A response of the REST client. -/
def depthResponse : String := "\x7b\"lastUpdateId\":3,\"bids\":[[\"1\",\"2\"]],\"asks\":[]\x7d"

/-- The first diff asks for a snapshot, and the second one is applied. -/
def seededRun : List Frame :=
  [diffFrame 0 "\"U\":2,\"u\":3" (some depthResponse), diffFrame 0 "\"U\":4,\"u\":5" none]

/-- The first request fails, and the second one, after a reconnect, succeeds. -/
def failedRun : List Frame :=
  [diffFrame 0 "\"U\":2,\"u\":3" none, diffFrame 1 "\"U\":4,\"u\":5" (some depthResponse)]

/-- The first request succeeds; after each of two reconnects the request fails. -/
def reconnectRun : List Frame :=
  [diffFrame 0 "\"U\":2,\"u\":3" (some depthResponse), diffFrame 0 "\"U\":4,\"u\":5" none,
    diffFrame 1 "\"U\":6,\"u\":7" none, diffFrame 2 "\"U\":8,\"u\":9" none]

lemma legible_reconnectRun : Legible parseDepth oneSymbol reconnectRun :=
  ⟨by decide +kernel, by decide +kernel, by decide +kernel⟩

lemma legible_seededRun : Legible parseDepth oneSymbol seededRun :=
  ⟨by decide +kernel, by decide +kernel, by decide +kernel⟩

/-! ## Results -/

/-- **A replay reproduces the rows of a live run** in which every request succeeded. -/
theorem replay_reproduces_live (h : Legible parse cfg frames)
    (hsubscribed : ∀ m ∈ frames.filterMap (Frame.message parse cfg), m.symbol ∈ cfg.symbols)
    (hfetched : ∀ x ∈ liveRows (runShard parse cfg frames).2, x.2 ≠ .failed)
    (hvenue : rcfg.venue = cfg.venue)
    (htrades : rcfg.integrateTrades = cfg.integrateTrades) (y : Bytes) :
    let live := (runShard parse cfg frames).1
    (runReplay parse rcfg live.md (some live.snaps)).1.rows y = (live.sym y).rows := by
  have hy : ∀ x ∈ entries parse cfg frames, x.2.symbol = y → y ∈ cfg.symbols := by
    rintro x hx rfl
    obtain ⟨hfr, hm⟩ := mem_entries hx
    exact hsubscribed x.2 (List.mem_filterMap.mpr ⟨x.1, hfr, hm⟩)
  have hnone : NoneAfterFailure ((liveRows (runShard parse cfg frames).2).map (attemptOf y)) := by
    refine noneAfterFailure_of_ne_failed fun a ha => ?_
    obtain ⟨x, hx, rfl⟩ := List.mem_map.mp ha
    exact attemptOf_ne_failed (hfetched x hx)
  have hqueue := snaps_new h.readBack y
  rw [attempts_liveRows] at hnone hqueue
  obtain ⟨-, hend⟩ := Mirrors.inStep.run_eq (mirrors_new h.epochs hvenue hy _) hqueue hnone
  dsimp only
  rw [(runReplay_eq h.readBack).1, Replay.rows_eq rcfg, ← hend.rows htrades, runShard_eq.1]

theorem replay_reproduces_live_seeded :
    let live := (runShard parseDepth oneSymbol seededRun).1
    (live.sym (lit "A")).rows ≠ [] ∧
      (runReplay parseDepth oneSymbol live.md (some live.snaps)).1.rows (lit "A") =
        (live.sym (lit "A")).rows :=
  ⟨by decide +kernel, replay_reproduces_live legible_seededRun (by decide +kernel)
    (by decide +kernel) rfl rfl (lit "A")⟩

/-- **A replay uses the snapshots where the live run used them** if the files read back and no
request of the symbol succeeded after one had failed; and of files that read back, only then. -/
theorem sidecar_in_step (hepochs : frames.Pairwise fun a b => a.connEpoch ≤ b.connEpoch)
    (hvenue : rcfg.venue = cfg.venue) (y : Bytes) :
    let live := runShard parse cfg frames
    let replay := runReplay parse rcfg live.1.md (some live.1.snaps)
    let inStep := ∀ (k : ℕ) (x : ℕ × DepthEvent),
      (placed ((liveRows live.2).map fun r => (attemptOf y r).result))[k]? = some x →
        (placed ((replayRows replay.2).map (usedBy y)))[k]? = some x
    (ReadBack parse cfg frames ∧ NoneAfterFailure ((liveRows live.2).map (attemptOf y)) →
        inStep) ∧
      (ReadBack parse cfg frames → inStep →
        NoneAfterFailure ((liveRows live.2).map (attemptOf y))) := by
  intro live replay inStep
  suffices hiff : ReadBack parse cfg frames →
      (inStep ↔ NoneAfterFailure ((liveRows live.2).map (attemptOf y))) from
    ⟨fun h => (hiff h.1).mpr h.2, fun h => (hiff h).mp⟩
  intro h
  have hresults : (liveRows live.2).map (fun r => (attemptOf y r).result) =
      ((liveRows live.2).map (attemptOf y)).map Attempt.result := by
    rw [List.map_map]
    rfl
  simp only [inStep, hresults]
  by_cases hy : y ∈ cfg.symbols
  · have hqueue := snaps_new h y
    rw [attempts_liveRows] at hqueue ⊢
    rw [(runReplay_eq h).2, List.map_map]
    exact Mirrors.inStep.placed_iff (mirrors_new hepochs hvenue (fun _ _ _ => hy) _) hqueue
  · -- there is nothing to use, and nothing that could have failed
    have hnil : results ((liveRows live.2).map (attemptOf y)) = [] :=
      results_eq_nil_of_notMem hy
    rw [placed, placedFrom_eq_nil.mpr hnil]
    constructor
    · exact fun _ => noneAfterFailure_of_results_eq_nil hnil
    · exact fun _ k x hx => absurd hx (by simp)

/-- The requests of three connections: only that of the first one succeeds. -/
theorem sidecar_in_step_reconnect :
    let live := runShard parseDepth oneSymbol reconnectRun
    let replay := runReplay parseDepth oneSymbol live.1.md (some live.1.snaps)
    let used := placed ((liveRows live.2).map fun r => (attemptOf (lit "A") r).result)
    used.length = 1 ∧ ((liveRows live.2).map (attemptOf (lit "A"))).count .failed = 2 ∧
      ∀ (k : ℕ) (x : ℕ × DepthEvent), used[k]? = some x →
        (placed ((replayRows replay.2).map (usedBy (lit "A"))))[k]? = some x :=
  ⟨by decide +kernel, by decide +kernel,
    (sidecar_in_step (by decide +kernel) rfl (lit "A")).1
      ⟨legible_reconnectRun.readBack, by decide +kernel⟩⟩

/-- The snapshot of the second connection is used up on the row of the first. -/
theorem sidecar_ahead :
    let live := runShard parseDepth oneSymbol failedRun
    let replay := runReplay parseDepth oneSymbol live.1.md (some live.1.snaps)
    ¬ ∀ (k : ℕ) (x : ℕ × DepthEvent),
      (placed ((liveRows live.2).map fun r => (attemptOf (lit "A") r).result))[k]? = some x →
        (placed ((replayRows replay.2).map (usedBy (lit "A"))))[k]? = some x := by
  intro live replay h
  have hlive : (placed ((liveRows live.2).map fun r => (attemptOf (lit "A") r).result))[0]? =
      some (1, { lastUpdateId := 3, bids := [⟨100000000, 200000000⟩] }) := by
    decide +kernel
  have hreplay : (placed ((replayRows replay.2).map (usedBy (lit "A"))))[0]? =
      some (0, { lastUpdateId := 3, bids := [⟨100000000, 200000000⟩] }) := by
    decide +kernel
  exact absurd (hreplay.symm.trans (h 0 _ hlive)) (by simp)

end LobCapture
