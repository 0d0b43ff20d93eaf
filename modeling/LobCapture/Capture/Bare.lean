/-
# A replay without a sidecar

Without recorded snapshots the depth5 rows of the market-data file take their place: each of them
seeds the book anew.  Seen from one symbol a replay is then a walk over the rows of the symbol,
and a row does to its session one of three things.
-/
import LobCapture.Capture.ReplaySymbol
import LobCapture.Session.Invariant

namespace LobCapture

open Lib BookSession

variable (parse : Bytes → Option DepthEvent) (cfg : Config)

/-- The diff of a row, if it is one that the parser accepts. -/
def Row.diffEvent (row : Row) : Option DepthEvent :=
  if row.kind = lit "depth_diff" then
    (parse row.payload).map fun ev => { ev with appliedTime := row.ts }
  else none

/-- The depth5 event of a row, if it is one that the parser accepts. -/
def Row.depth5Event (row : Row) : Option DepthEvent :=
  if row.kind = lit "depth5" then
    (parse row.payload).map fun ev => { ev with appliedTime := row.ts }
  else none

variable {parse} in
lemma Row.diffEvent_eq {row : Row} (hd : row.kind = lit "depth_diff") {ev : DepthEvent}
    (h : parse row.payload = some ev) :
    row.diffEvent parse = some { ev with appliedTime := row.ts } := by
  rw [Row.diffEvent, if_pos hd, h]
  rfl

variable {parse} in
lemma Row.depth5Event_eq {row : Row} (h5 : row.kind = lit "depth5") {ev : DepthEvent}
    (h : parse row.payload = some ev) :
    row.depth5Event parse = some { ev with appliedTime := row.ts } := by
  rw [Row.depth5Event, if_pos h5, h]
  rfl

/-- The diffs of some rows. -/
def diffEvents (rows : List Row) : List DepthEvent := rows.filterMap (Row.diffEvent parse)

/-- A row without depth data. -/
def Row.Quiet (row : Row) : Prop := row.diffEvent parse = none ∧ row.depth5Event parse = none

namespace SymReplay

/-- A row of the symbol, when there is no sidecar. -/
def bare (r : SymReplay) (row : Row) : SymReplay := (r.onRow parse cfg false row []).1

/-- What a replay without a sidecar keeps for a symbol after some rows. -/
def bareRun (y : Bytes) (rows : List Row) : SymReplay :=
  rows.foldl (bare parse cfg) (.new cfg y)

/-- What `on_diff` returns on a row, if it is called. -/
def diffOutcome (r : SymReplay) (row : Row) : Option Outcome :=
  (row.diffEvent parse).map fun ev => ((r.enterEpoch row.connEpoch).sess.onDiff ev).1

variable {parse cfg} {r : SymReplay} {row : Row} {ev : DepthEvent} {y : Bytes}

/-- The rows are all that matters, and no snapshot is ever there. -/
lemma run_step_nil (rows : List Row) (r : SymReplay) :
    (run (step parse cfg false) (r, []) rows).1 = (rows.foldl (bare parse cfg) r, []) := by
  have hsnaps : ∀ (r : SymReplay) (row : Row), (r.onRow parse cfg false row []).2.1 = [] := by
    intro r row
    simp only [onRow]
    by_cases hd : row.kind = lit "depth_diff"
    · simp only [if_pos hd]
      cases parse row.payload with
      | none => rfl
      | some ev =>
        dsimp only
        split_ifs <;> rfl
    simp only [if_neg hd]
    by_cases h5 : row.kind = lit "depth5"
    · simp only [if_pos h5]
      cases parse row.payload <;> rfl
    simp only [if_neg h5]
    split_ifs <;> rfl
  induction rows generalizing r with
  | nil => rfl
  | cons row rows ih =>
    have hstep : (step parse cfg false (r, []) row).1 = (r.bare parse cfg row, []) := by
      simp only [step, hsnaps]
      rfl
    rw [run_cons, hstep]
    exact ih _

/-- **A replay without a sidecar**, seen from one symbol. -/
lemma book_runReplay_none (md : Bytes) :
    (runReplay parse cfg md none).1.book cfg y = bareRun parse cfg y (fileRows y md) := by
  rw [book_runReplay]
  exact congrArg Prod.fst (run_step_nil (fileRows y md) (.new cfg y))

lemma bareRun_concat (rows : List Row) (row : Row) :
    bareRun parse cfg y (rows ++ [row]) = (bareRun parse cfg y rows).bare parse cfg row := by
  rw [bareRun, List.foldl_append]
  rfl

/-! ## What a row does -/

/-- A diff is taken, and nothing else happens: there is no snapshot to fetch. -/
lemma bare_diff (h : row.diffEvent parse = some ev) :
    (r.bare parse cfg row).toEmitter = ((r.enterEpoch row.connEpoch).takeDiff row.ts ev).1 := by
  rw [Row.diffEvent] at h
  split_ifs at h with hd
  obtain ⟨ev, hev, rfl⟩ := Option.map_eq_some_iff.mp h
  simp only [bare, onRow, if_pos hd, hev]
  split_ifs <;> rfl

/-- A depth5 event seeds the book. -/
lemma bare_depth5 (h : row.depth5Event parse = some ev) :
    (r.bare parse cfg row).toEmitter =
      ((r.enterEpoch row.connEpoch).seed ev).emitDepth5 row.ts ev := by
  rw [Row.depth5Event] at h
  split_ifs at h with h5
  obtain ⟨ev, hev, rfl⟩ := Option.map_eq_some_iff.mp h
  have hd : row.kind ≠ lit "depth_diff" := by
    rw [h5]
    decide
  simp only [bare, onRow, if_neg hd, if_pos h5, hev]
  rfl

lemma sess_bare_diff (h : row.diffEvent parse = some ev) :
    (r.bare parse cfg row).sess = ((r.enterEpoch row.connEpoch).sess.onDiff ev).2 := by
  rw [bare_diff h]
  exact Emitter.sess_takeDiff row.ts ev _

lemma sess_bare_depth5 (h : row.depth5Event parse = some ev) :
    (r.bare parse cfg row).sess =
      ((r.enterEpoch row.connEpoch).sess.onSnapshot ev.bids ev.asks ev.lastUpdateId).session := by
  rw [bare_depth5 h]
  exact Emitter.sess_seed ev _

lemma sess_bare_quiet (h : row.Quiet parse) :
    (r.bare parse cfg row).sess = (r.enterEpoch row.connEpoch).sess := by
  obtain ⟨hdiff, h5⟩ := h
  rw [Row.diffEvent] at hdiff
  rw [Row.depth5Event] at h5
  simp only [bare, onRow]
  by_cases hkind : row.kind = lit "depth_diff"
  · rw [if_pos hkind] at hdiff
    simp only [if_pos hkind, Option.map_eq_none_iff.mp hdiff]
  simp only [if_neg hkind]
  by_cases hkind5 : row.kind = lit "depth5"
  · rw [if_pos hkind5] at h5
    simp only [if_pos hkind5, Option.map_eq_none_iff.mp h5]
  simp only [if_neg hkind5]
  split_ifs
  · exact Emitter.sess_emitIfReady _ _ _
  · rfl
  · rfl

/-- An applied diff has its row. -/
lemma rows_bare_applied (h : row.diffEvent parse = some ev)
    (ho : ((r.enterEpoch row.connEpoch).sess.onDiff ev).1 = .applied) :
    (r.bare parse cfg row).rows = r.rows ++
      [(r.bare parse cfg row).sess.ob.fillTop5
        { ts := row.ts, seqNo := r.seq + 1, type := 'D' }] := by
  have hready := not_or_of_synced (synced_onDiff ho)
  rw [sess_bare_diff h, bare_diff h, Emitter.takeDiff]
  simp only [ho, if_true, Emitter.emitIfReady, if_neg hready, Emitter.emitBook]
  rw [rows_enterEpoch, seq_enterEpoch]

lemma epoch_bare (r : SymReplay) (row : Row) : (r.bare parse cfg row).epoch = some row.connEpoch :=
  epoch_onRow false row []

lemma epoch_bareRun (rows : List Row) :
    (bareRun parse cfg y rows).epoch = rows.getLast?.map Row.connEpoch := by
  induction rows using List.reverseRecOn with
  | nil => rfl
  | append_singleton rows row _ =>
    rw [bareRun_concat, epoch_bare, List.getLast?_concat]
    rfl

end SymReplay

end LobCapture
