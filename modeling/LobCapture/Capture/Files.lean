/-
# What a live run leaves in its files

The market-data file has one line for each frame that the handler took apart, and the sidecar
one line for each snapshot that was fetched; a replay reads both back as they were written.
-/
import LobCapture.Capture.Live
import LobCapture.Capture.Replay

namespace LobCapture

open Lib

variable (parse : Bytes → Option DepthEvent) (cfg : Config)

/-- The frames that `split_envelope` accepts, taken apart. -/
def entries (frames : List Frame) : List (Frame × Message) :=
  frames.filterMap fun fr => (fr.message parse cfg).map fun m => (fr, m)

/-- The run of a shard over the frames that are taken apart. -/
abbrev liveRun (s : Shard) (es : List (Frame × Message)) :
    Shard × List ((Frame × Message) × Bytes × Fetch) :=
  run (Shard.take parse cfg) s es

lemma handler_eq :
    handler parse cfg =
      skipping (Shard.take parse cfg) fun fr => (fr.message parse cfg).map fun m => (fr, m) := by
  ext s fr : 2
  cases hm : fr.message parse cfg <;> simp [handler, skipping, hm]

lemma run_handler (s : Shard) (frames : List Frame) :
    (run (handler parse cfg) s frames).1 = (liveRun parse cfg s (entries parse cfg frames)).1 ∧
      (run (handler parse cfg) s frames).2.filterMap Prod.snd =
        (liveRun parse cfg s (entries parse cfg frames)).2.map Prod.snd := by
  rw [handler_eq]
  exact run_skipping _ s frames

/-! ## The market-data file -/

/-- The fields of a market-data line. -/
def Message.fields (fr : Frame) (m : Message) : List Bytes :=
  [integer m.ts.tsec.toInt, integer m.ts.tnsec.toInt, cfg.venue.toText, m.kind.toText,
    integer cfg.shardId.toInt, decimal fr.connEpoch.toNat, decimal fr.connSeq.toNat, m.symbol,
    m.payload]

/-- A market-data line. -/
def Message.line (x : Frame × Message) : Bytes :=
  joinFields ((x.2.fields cfg x.1).map csvEscape)

/-- What a replay reads from it. -/
def Message.toRow (x : Frame × Message) : Row where
  ts := x.2.ts
  kind := x.2.kind.toText
  connEpoch := x.1.connEpoch
  symbol := x.2.symbol
  payload := x.2.payload

variable {parse cfg}

lemma plain_venue (v : Venue) : Plain v.toText := by
  cases v <;> rfl

lemma plain_kind (k : StreamKind) : Plain k.toText := by
  cases k <;> rfl

/-- A frame whose line can be read back. -/
def Readable (m : Message) : Prop := Plain m.symbol ∧ newline ∉ m.payload

instance readableDecidable (m : Message) : Decidable (Readable m) :=
  inferInstanceAs (Decidable (_ ∧ _))

lemma row_eq_line {x : Frame × Message} (h : Plain x.2.symbol) :
    x.2.row cfg x.1 = Message.line cfg x ++ [newline] := by
  simp only [Message.row, writeRow, Message.line, Message.fields, List.map_cons, List.map_nil,
    (plain_integer _).csvEscape, (plain_venue _).csvEscape, (plain_kind _).csvEscape,
    (plain_decimal _).csvEscape, h.csvEscape, joinFields, List.append_assoc, List.cons_append]

lemma newline_notMem_line {x : Frame × Message} (h : Readable x.2) :
    newline ∉ Message.line cfg x := by
  have hfield : ∀ {s : Bytes}, Plain s → newline ∉ s := fun hs => (plain_iff.mp hs).2.2.1
  refine newline_notMem_joinFields ?_
  intro f hf
  obtain ⟨g, hg, rfl⟩ := List.mem_map.mp hf
  refine newline_notMem_csvEscape ?_
  simp only [Message.fields, List.mem_cons, List.not_mem_nil, or_false] at hg
  rcases hg with rfl | rfl | rfl | rfl | rfl | rfl | rfl | rfl | rfl
  · exact hfield (plain_integer _)
  · exact hfield (plain_integer _)
  · exact hfield (plain_venue _)
  · exact hfield (plain_kind _)
  · exact hfield (plain_integer _)
  · exact hfield (plain_decimal _)
  · exact hfield (plain_decimal _)
  · exact hfield h.1
  · exact h.2

lemma readRow_line (x : Frame × Message) :
    readRow (Message.line cfg x) = some (Message.toRow x) := by
  have hfields : parseCsvLine (Message.line cfg x) = x.2.fields cfg x.1 :=
    parseCsvLine_joinFields (by simp [Message.fields])
  have hne : Message.line cfg x ≠ [] := by
    intro hnil
    rw [hnil] at hfields
    simp [parseCsvLine, parseCsvLine.go, Message.fields] at hfields
  rw [readRow, if_neg hne, hfields]
  simp [Message.fields, Message.toRow, atoll_integer, atoi_integer, strtoull_decimal]

lemma md_liveRun (s : Shard) (es : List (Frame × Message)) :
    (liveRun parse cfg s es).1.md = s.md ++ es.flatMap fun x => x.2.row cfg x.1 := by
  induction es generalizing s with
  | nil => simp
  | cons x es ih =>
    have hmd : (s.take parse cfg x).1.md = s.md ++ x.2.row cfg x.1 := by
      simp only [Shard.take]
      split_ifs <;> rfl
    rw [liveRun, run_cons, List.flatMap_cons, ← List.append_assoc, ← hmd]
    exact ih _

/-- **The market-data file reads back**: after the header, its lines are those of the frames. -/
lemma lines_md {es : List (Frame × Message)} (h : ∀ x ∈ es, Readable x.2) :
    (lines (liveRun parse cfg (.new cfg) es).1.md).drop 1 = es.map (Message.line cfg) := by
  have hrows : es.flatMap (fun x => x.2.row cfg x.1) =
      es.flatMap fun x => Message.line cfg x ++ [newline] := by
    refine List.flatMap_congr fun x hx => row_eq_line (h x hx).1
  have hnew : (Shard.new cfg).md = marketDataHeader ++ [newline] := rfl
  rw [md_liveRun, hrows, hnew, List.append_assoc, List.singleton_append,
    lines_append (by decide), lines_flatMap es fun x hx => newline_notMem_line (h x hx),
    List.drop_succ_cons, List.drop_zero]

/-! ## The sidecar -/

/-- A line of the sidecar. -/
structure Record where
  ts : Timestamp
  symbol : Bytes
  raw : Bytes
  snap : DepthEvent

/-- The sidecar line of a handled frame, if it has one. -/
def recordOf (x : (Frame × Message) × Bytes × Fetch) : Option Record :=
  match x.2.2 with
  | .ok raw snap => some ⟨x.1.1.snapTs, x.2.1, raw, snap⟩
  | _ => none

/-- The sidecar lines of a run. -/
def recorded (h : List ((Frame × Message) × Bytes × Fetch)) : List Record := h.filterMap recordOf

/-- The text of a sidecar line. -/
def Record.line (r : Record) : Bytes :=
  joinFields ([integer r.ts.tsec.toInt, integer r.ts.tnsec.toInt, r.symbol,
    decimal r.snap.lastUpdateId.toNat, r.raw].map csvEscape)

lemma snaps_liveRun (s : Shard) (es : List (Frame × Message)) :
    (liveRun parse cfg s es).1.snaps =
      s.snaps ++ (recorded (liveRun parse cfg s es).2).flatMap fun r =>
        snapshotRow r.ts r.symbol r.snap.lastUpdateId r.raw := by
  induction es generalizing s with
  | nil => simp [recorded]
  | cons x es ih =>
    have hstep : (s.take parse cfg x).1.snaps = s.snaps ++
        (recorded [(x, (s.take parse cfg x).2)]).flatMap fun r =>
          snapshotRow r.ts r.symbol r.snap.lastUpdateId r.raw := by
      simp only [Shard.take]
      split_ifs
      · simp [recorded, recordOf]
      · cases ((s.sym x.2.symbol).onMessage parse cfg x.1 x.2).2 <;>
          simp [recorded, recordOf, Fetch.sidecarText]
    have hhist : ∀ a l, recorded (a :: l) = recorded [a] ++ recorded l := by
      intro a l
      rw [recorded, ← List.singleton_append]
      exact List.filterMap_append
    rw [liveRun, run_cons, hhist, List.flatMap_append, ← List.append_assoc, ← hstep]
    exact ih _

/-- What a sidecar line was made from. -/
structure Record.Ok (parse : Bytes → Option DepthEvent) (r : Record) : Prop where
  symbol : Plain r.symbol
  raw : newline ∉ r.raw
  snap : parse r.raw = some r.snap

lemma snapshotRow_eq_line {r : Record} (h : r.Ok parse) :
    snapshotRow r.ts r.symbol r.snap.lastUpdateId r.raw = r.line ++ [newline] := by
  simp only [snapshotRow, Record.line, List.map_cons, List.map_nil, (plain_integer _).csvEscape,
    (plain_decimal _).csvEscape, h.symbol.csvEscape, joinFields, List.append_assoc,
    List.cons_append]

lemma newline_notMem_record {r : Record} (h : r.Ok parse) : newline ∉ r.line := by
  have hfield : ∀ {s : Bytes}, Plain s → newline ∉ s := fun hs => (plain_iff.mp hs).2.2.1
  refine newline_notMem_joinFields ?_
  intro f hf
  obtain ⟨g, hg, rfl⟩ := List.mem_map.mp hf
  refine newline_notMem_csvEscape ?_
  simp only [List.mem_cons, List.not_mem_nil, or_false] at hg
  rcases hg with rfl | rfl | rfl | rfl | rfl
  · exact hfield (plain_integer _)
  · exact hfield (plain_integer _)
  · exact hfield h.symbol
  · exact hfield (plain_decimal _)
  · exact h.raw

lemma readSnapshot_line {r : Record} (h : r.Ok parse) :
    readSnapshot parse r.line = some (r.symbol, r.snap) := by
  have hfields : parseCsvLine r.line = _ := parseCsvLine_joinFields (by simp)
  have hne : r.line ≠ [] := by
    intro hnil
    rw [hnil] at hfields
    simp [parseCsvLine, parseCsvLine.go] at hfields
  rw [readSnapshot, if_neg hne, hfields]
  simp [h.snap]

/-- **The sidecar reads back**: its snapshots are those that were fetched. -/
lemma loadSnapshots_liveRun {es : List (Frame × Message)}
    (h : ∀ r ∈ recorded (liveRun parse cfg (.new cfg) es).2, r.Ok parse) :
    loadSnapshots parse (liveRun parse cfg (.new cfg) es).1.snaps =
      (recorded (liveRun parse cfg (.new cfg) es).2).map fun r => (r.symbol, r.snap) := by
  have hrows : (recorded (liveRun parse cfg (.new cfg) es).2).flatMap (fun r =>
        snapshotRow r.ts r.symbol r.snap.lastUpdateId r.raw) =
      (recorded (liveRun parse cfg (.new cfg) es).2).flatMap fun r => r.line ++ [newline] :=
    List.flatMap_congr fun r hr => snapshotRow_eq_line (h r hr)
  have hnew : (Shard.new cfg).snaps = sidecarHeader ++ [newline] := rfl
  rw [loadSnapshots, snaps_liveRun, hrows, hnew, List.append_assoc, List.singleton_append,
    lines_append (by decide), lines_flatMap _ fun r hr => newline_notMem_record (h r hr),
    List.drop_succ_cons, List.drop_zero, List.filterMap_map]
  refine List.filterMap_eq_map_iff_forall_eq_some.mpr ?_
  intro r hr
  exact readSnapshot_line (h r hr)

end LobCapture
