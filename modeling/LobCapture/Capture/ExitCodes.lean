/-
# Exit codes

How `run_shard` and `run_replay` use their sinks, and the code they return.  Both flush every sink
at the end.  `run_shard` then looks at the error flag of every sink, and `run_replay` at none.

A sink is closed after the code is known, and nothing is written to it then, so the calls of
`close` are left out.
-/
import LobCapture.Capture.Live
import LobCapture.Capture.Replay
import LobCapture.Sink.Driver
import Mathlib.Data.List.Dedup
import Mathlib.Data.List.Sort

namespace LobCapture

open Lib

/-- An `fwrite` came short in the run. -/
def cameShort {ι : Type} (history : List (DriverMove ι × Option ι)) : Prop :=
  ∃ i, some i ∈ history.map Prod.snd

/-- The keys of a `std::map` to which the symbols have been added. -/
def mapKeys (symbols : List Bytes) : List Bytes := symbols.dedup.insertionSort (· ≤ ·)

/-- The rows that are new in the order-book file of a symbol. -/
def newRows {ι : Type} (i : ι) (before after : List ObRow) : List (DriverOp ι) :=
  (after.drop before.length).map fun r => .call i (.write r.writeRow)

/-! ## A shard -/

/-- The sinks of a shard. -/
inductive ShardSink
  | md
  | snaps
  | ob (symbol : Bytes)
deriving DecidableEq

/-- With a writer thread or without one, and the number of slots, as a power of two. -/
def ShardSink.mode (syncWrites : Bool) : ShardSink → Bool × ℕ
  | .md | .ob _ => (!syncWrites, 13)
  | .snaps => (!syncWrites, 6)

/-- What is written first. -/
def ShardSink.header : ShardSink → Bytes
  | .md => marketDataHeader ++ [newline]
  | .snaps => sidecarHeader ++ [newline]
  | .ob _ => orderBookHeader ++ [newline]

/-- The sinks in the order in which they are opened.  The symbols of a shard are distinct. -/
def shardSinks (cfg : Config) : List ShardSink := .md :: .snaps :: cfg.symbols.map .ob

variable (parse : Bytes → Option DepthEvent) (cfg : Config)

/-- What the handler writes. -/
def Shard.frameOps (s : Shard) (fr : Frame) : List (DriverOp ShardSink) :=
  match fr.message parse cfg with
  | none => []
  | some m =>
    let (s', _, fetch) := s.take parse cfg (fr, m)
    .call .md (.write (m.row cfg fr)) ::
      newRows (.ob m.symbol) (s.sym m.symbol).rows (s'.sym m.symbol).rows ++
      match fetch with
      | .ok raw snap =>
        [.call .snaps (.write (snapshotRow fr.snapTs m.symbol snap.lastUpdateId raw))]
      | _ => []

/-- The end of `run_shard`. -/
def shardEnd : List (DriverOp ShardSink) :=
  [.call .md .flush, .call .snaps .flush, .check .md, .check .snaps] ++
    (mapKeys cfg.symbols).flatMap fun y => [.call (.ob y) .flush, .check (.ob y)]

/-- What `run_shard` does with its sinks; `opens` says which files can be opened. -/
def shardOps (opens : ShardSink → Bool) (frames : List Frame) : List (DriverOp ShardSink) :=
  ((shardSinks cfg).takeWhile opens).map (fun i => .call i (.write i.header)) ++
    if (shardSinks cfg).all opens then
      outputs (handler parse cfg) (Shard.frameOps parse cfg) (.new cfg) frames ++ shardEnd cfg
    else []

/-- The code that `run_shard` returns when it does; `rc` is what the client returned. -/
def shardExit (opens : ShardSink → Bool) (rc : Int32) (s : Driver ShardSink) : Option Int32 :=
  if s.ops ≠ [] then none
  else if (shardSinks cfg).all opens then
    some (if rc = 0 ∧ s.wroteOk = false then 4 else rc)
  else some 2

/-! ## A replay -/

/-- The file of the symbol of a line can be opened. -/
def opensFor (opens : Bytes → Bool) (line : Bytes) : Bool :=
  match readRow line with
  | none => true
  | some row => opens row.symbol

/-- What a replay writes on a line. -/
def Replay.lineOps (haveSidecar : Bool) (s : Replay) (line : Bytes) : List (DriverOp Bytes) :=
  match readRow line with
  | none => []
  | some row =>
    let (s', _) := s.take parse cfg haveSidecar row
    (if (s.books row.symbol).isNone then
      [.call row.symbol (.write (orderBookHeader ++ [newline]))] else []) ++
      newRows row.symbol (s.rows row.symbol) (s'.rows row.symbol)

/-- The lines behind the header. -/
def dataLines (md : Bytes) : List Bytes := (lines md).drop 1

/-- The input can be opened, and the file of every symbol in it. -/
def replayOpens (opens : Bytes → Bool) : Option Bytes → Bool
  | none => false
  | some md => (dataLines md).all (opensFor opens)

/-- What `run_replay` does with its sinks.  It ends at the first file that cannot be opened. -/
def replayOps (opens : Bytes → Bool) (sidecar : Option Bytes) :
    Option Bytes → List (DriverOp Bytes)
  | none => []
  | some md =>
    outputs (Replay.onLine parse cfg sidecar.isSome) (Replay.lineOps parse cfg sidecar.isSome)
      (.new parse sidecar) ((dataLines md).takeWhile (opensFor opens)) ++
    if replayOpens opens (some md) then
      (mapKeys (((dataLines md).filterMap readRow).map Row.symbol)).map fun y => .call y .flush
    else []

/-- The code that `run_replay` returns when it does. -/
def replayExit (opens : Bytes → Bool) (md : Option Bytes) (s : Driver Bytes) : Option Int32 :=
  if s.ops ≠ [] then none else if replayOpens opens md then some 0 else some 2

/-- A run of a shard's thread and of its writers. -/
abbrev driveShard (syncWrites : Bool) (opens : ShardSink → Bool) (frames : List Frame)
    (moves : List (DriverMove ShardSink)) :=
  run Driver.step (.new (ShardSink.mode syncWrites) (shardOps parse cfg opens frames)) moves

/-- A run of a replay and of its writers. -/
abbrev driveReplay (opens : Bytes → Bool) (md sidecar : Option Bytes)
    (moves : List (DriverMove Bytes)) :=
  run Driver.step (.new (fun _ => (true, 13)) (replayOps parse cfg opens sidecar md)) moves

/-! ## Which sinks are used -/

@[simp] lemma mem_mapKeys {y : Bytes} {symbols : List Bytes} :
    y ∈ mapKeys symbols ↔ y ∈ symbols := by
  rw [mapKeys, (List.perm_insertionSort _ _).mem_iff, List.mem_dedup]

lemma nodup_mapKeys (symbols : List Bytes) : (mapKeys symbols).Nodup :=
  (List.perm_insertionSort _ _).nodup_iff.mpr (List.nodup_dedup _)

@[simp] lemma newRows_self {ι : Type} (i : ι) (rows : List ObRow) : newRows i rows rows = [] := by
  simp [newRows]

lemma Finishes.append {ι : Type} {i : ι} {ops : List (DriverOp ι)} (h : Finishes i ops)
    (before : List (DriverOp ι)) : Finishes i (before ++ ops) := by
  obtain ⟨pre, post, rfl, hcheck, hno⟩ := h
  exact ⟨before ++ pre, post, by simp, hcheck, hno⟩

variable {parse cfg} {opens : ShardSink → Bool} {i : ShardSink}

/-- At the end every sink is flushed, and then looked at. -/
lemma finishes_shardEnd (h : i ∈ shardSinks cfg) : Finishes i (shardEnd cfg) := by
  cases i with
  | md => exact ⟨[], _, rfl, by simp, by simp [NoCall]⟩
  | snaps => exact ⟨[.call .md .flush], _, rfl, by simp, by simp [NoCall]⟩
  | ob y =>
    have hy : y ∈ mapKeys cfg.symbols := by simpa [shardSinks] using h
    obtain ⟨before, after, hkeys⟩ := List.append_of_mem hy
    have hnot : y ∉ after := by
      have hnodup := nodup_mapKeys cfg.symbols
      rw [hkeys] at hnodup
      exact (List.nodup_cons.mp hnodup.of_append_right).1
    refine Finishes.append ?_ _
    rw [hkeys, List.flatMap_append, List.flatMap_cons]
    refine Finishes.append ⟨[], .check (.ob y) :: after.flatMap fun z =>
      [.call (ShardSink.ob z) .flush, .check (ShardSink.ob z)], rfl, List.mem_cons_self, ?_⟩ _
    intro c hc
    simp only [List.mem_cons, reduceCtorEq, false_or, List.mem_flatMap, DriverOp.call.injEq,
      ShardSink.ob.injEq, List.not_mem_nil, or_false] at hc
    obtain ⟨z, hz, rfl, -⟩ := hc
    exact hnot hz

/-- The handler writes to the sinks of the shard. -/
lemma mem_shardSinks_of_frameOps {s : Shard} {fr : Frame} {c : SinkCall}
    (h : .call i c ∈ s.frameOps parse cfg fr) : i ∈ shardSinks cfg := by
  rw [Shard.frameOps] at h
  cases hmsg : fr.message parse cfg with
  | none => simp [hmsg] at h
  | some m =>
    simp only [hmsg] at h
    by_cases htake : m.ParseFailed ∨ m.symbol ∉ cfg.symbols
    · -- only the market-data row
      simp only [Shard.take, if_pos htake, newRows_self, List.cons_append, List.nil_append,
        List.mem_cons, List.not_mem_nil, or_false, DriverOp.call.injEq] at h
      simp [shardSinks, h.1]
    · have hsymbol := not_not.mp (not_or.mp htake).2
      rcases List.mem_cons.mp h with h | h
      · simp only [DriverOp.call.injEq] at h
        simp [shardSinks, h.1]
      · rcases List.mem_append.mp h with h | h
        · obtain ⟨r, -, hr⟩ := List.mem_map.mp h
          simp only [DriverOp.call.injEq] at hr
          simp [shardSinks, ← hr.1, hsymbol]
        · split at h
          · simp only [List.mem_singleton, DriverOp.call.injEq] at h
            simp [shardSinks, h.1]
          · exact absurd h List.not_mem_nil

/-- Nothing is written to any other sink. -/
lemma noCall_shardOps {frames : List Frame} (h : i ∉ shardSinks cfg) :
    NoCall i (shardOps parse cfg opens frames) := by
  intro c hc
  rcases List.mem_append.mp hc with hc | hc
  · obtain ⟨j, hj, hcall⟩ := List.mem_map.mp hc
    simp only [DriverOp.call.injEq] at hcall
    exact h (hcall.1 ▸ (List.takeWhile_subset _) hj)
  · split_ifs at hc
    · rcases List.mem_append.mp hc with hc | hc
      · obtain ⟨fr, -, s, hc⟩ := mem_outputs hc
        exact h (mem_shardSinks_of_frameOps hc)
      · refine h ?_
        rcases List.mem_append.mp hc with hc | hc
        · simp only [List.mem_cons, DriverOp.call.injEq, reduceCtorEq, List.not_mem_nil, or_false]
            at hc
          rcases hc with ⟨rfl, -⟩ | ⟨rfl, -⟩ <;> simp [shardSinks]
        · obtain ⟨y, hy, hc⟩ := List.mem_flatMap.mp hc
          simp only [List.mem_cons, DriverOp.call.injEq, reduceCtorEq, List.not_mem_nil, or_false]
            at hc
          simpa [shardSinks, hc.1] using hy
    · exact absurd hc List.not_mem_nil

/-! ## The codes -/

/-- A shard that returns `0` has opened all its files. -/
lemma shardExit_eq_zero {rc : Int32} {s : Driver ShardSink}
    (h : shardExit cfg opens rc s = some 0) :
    s.ops = [] ∧ (shardSinks cfg).all opens = true ∧ s.wroteOk = true := by
  rw [shardExit] at h
  split_ifs at h with hops hopens hrc
  · exact absurd (Option.some.inj h) (by decide)
  · refine ⟨not_not.mp hops, hopens, ?_⟩
    by_contra hok
    exact hrc ⟨Option.some.inj h, by simpa using hok⟩
  · exact absurd (Option.some.inj h) (by decide)

/-- A short `fwrite` makes a shard fail. -/
lemma shardExit_ne_zero_of_short {rc : Int32} {syncWrites : Bool} {frames : List Frame}
    {moves : List (DriverMove ShardSink)}
    (hshort : cameShort (driveShard parse cfg syncWrites opens frames moves).2) :
    shardExit cfg opens rc (driveShard parse cfg syncWrites opens frames moves).1 ≠ some 0 := by
  intro hcode
  obtain ⟨i, hi⟩ := hshort
  obtain ⟨hdone, hopens, hok⟩ := shardExit_eq_zero hcode
  have hend : Finishes i (shardOps parse cfg opens frames) ∨
      NoCall i (shardOps parse cfg opens frames) := by
    by_cases hsink : i ∈ shardSinks cfg
    · rw [shardOps, if_pos hopens]
      exact .inl (((finishes_shardEnd hsink).append _).append _)
    · exact .inr (noCall_shardOps hsink)
  have hfailed := Driver.wroteOk_of_short (ShardSink.mode syncWrites) hend moves hdone hi
  rw [hok] at hfailed
  exact absurd hfailed (by decide)

/-- A replay that has opened all its files returns `0`. -/
lemma replayExit_eq {openable : Bytes → Bool} {md : Option Bytes} {s : Driver Bytes} {code : Int32}
    (h : replayExit openable md s = some code) :
    code = if replayOpens openable md then 0 else 2 := by
  rw [replayExit] at h
  split_ifs at h ⊢
  all_goals exact (Option.some.inj h).symm

variable (parse cfg) in
/-- **What a short `fwrite` does to the exit code**: a shard does not return `0` then, and a replay
returns `0` as always when it can open its files. -/
theorem exit_code_of_short :
    (∀ syncWrites opens rc frames moves,
      cameShort (driveShard parse cfg syncWrites opens frames moves).2 →
        shardExit cfg opens rc (driveShard parse cfg syncWrites opens frames moves).1 ≠ some 0) ∧
    ∀ opens md sidecar moves code,
      replayExit opens md (driveReplay parse cfg opens md sidecar moves).1 = some code →
        ((cameShort (driveReplay parse cfg opens md sidecar moves).2 → code ≠ 0) ↔
          replayOpens opens md = false ∨
            ¬ cameShort (driveReplay parse cfg opens md sidecar moves).2) := by
  refine ⟨fun _ _ _ _ _ hshort => shardExit_ne_zero_of_short hshort, ?_⟩
  intro openable md sidecar moves code hcode
  rw [replayExit_eq hcode]
  cases hopens : replayOpens openable md with
  | true => simp
  | false => simp [show (2 : Int32) ≠ 0 by decide]

/-- A row of a replay is cut off while it is written, and the code is `0`. -/
theorem replay_ignores_short_write :
    let cfg : Config := ⟨.spot, [], .recvWallClock, false, 0⟩
    let md := lit ("header\n1,0,spot,depth5,0,1,1,B,\"\x7b\"\"lastUpdateId\"\":7," ++
      "\"\"bids\"\":[[\"\"1.5\"\",\"\"2\"\"]]\x7d\"\n")
    let writer (io : IoOutcome) : DriverMove Bytes := .writer (lit "B") io
    let moves := List.replicate 12 (.driver {}) ++ List.replicate 3 (writer {}) ++
      [writer { ok := false, accepted := 10, moved := 200 }] ++ List.replicate 20 (writer {}) ++
      [.driver {}]
    let r := driveReplay parseDepth cfg (fun _ => true) (some md) none moves
    cameShort r.2 ∧ (r.1.sinks (lit "B")).file.device ≠ (r.1.sinks (lit "B")).file.passed ∧
      replayExit (fun _ => true) (some md) r.1 = some 0 := by
  intro cfg md writer moves r
  refine ⟨⟨lit "B", ?_⟩, ?_, ?_⟩
  all_goals decide +kernel

/-- The header of an order-book file is cut off in a live run, and in a replay. -/
theorem exit_code_of_short_header :
    let cfg : Config := ⟨.spot, [lit "B"], .recvWallClock, false, 0⟩
    let live := List.replicate 5 (.driver {}) ++ [.driver { ok := false }] ++
      List.replicate 20 (.driver {})
    let r := driveShard parseDepth cfg true (fun _ => true) [] live
    let md := lit "header\n1,0,spot,trade,0,1,1,B,\x7b\x7d\n"
    let replay := List.replicate 7 (.driver {}) ++
      List.replicate 20 (.writer (lit "B") { ok := false }) ++ [.driver {}]
    let s := driveReplay parseDepth cfg (fun _ => true) (some md) none replay
    shardExit cfg (fun _ => true) 0 r.1 ≠ some 0 ∧
      ((cameShort s.2 → (0 : Int32) ≠ 0) ↔
        replayOpens (fun _ => true) (some md) = false ∨ ¬ cameShort s.2) := by
  intro cfg live r md replay s
  have h := exit_code_of_short parseDepth cfg
  exact ⟨h.1 true _ 0 _ _ ⟨.ob (lit "B"), by decide +kernel⟩,
    h.2 _ _ none _ 0 (by decide +kernel)⟩

end LobCapture
