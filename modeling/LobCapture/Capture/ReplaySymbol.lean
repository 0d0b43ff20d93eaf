/-
# One symbol of a replay

The rows of a symbol in the market-data file are all that matters for its book, and each of them
is a few actions of its emitter.
-/
import LobCapture.Capture.Sights

namespace LobCapture

open Lib BookSession

variable (parse : Bytes → Option DepthEvent) (cfg : Config)

/-- The rows of a symbol in a market-data file. -/
def fileRows (y md : Bytes) : List Row :=
  (((lines md).drop 1).filterMap readRow).filter (·.symbol = y)

namespace SymReplay

/-- A row of the symbol, on what the replay keeps for it and the recorded snapshots that are
left. -/
def step (haveSidecar : Bool) (s : SymReplay × List DepthEvent) (row : Row) :
    (SymReplay × List DepthEvent) × Option DepthEvent :=
  let r := s.1.onRow parse cfg haveSidecar row s.2
  ((r.1, r.2.1), r.2.2)

/-- The action of a row that comes with another connection. -/
def entering (r : SymReplay) (connEpoch : UInt64) : List Action :=
  match r.epoch with
  | none => []
  | some e => if e ≠ connEpoch then [.invalidate] else []

/-- The actions in which a row is handled. -/
def actions (haveSidecar : Bool) (s : SymReplay × List DepthEvent) (row : Row) : List Action :=
  s.1.entering row.connEpoch ++
    if row.kind = lit "depth_diff" then
      match parse row.payload with
      | none => []
      | some ev =>
        .diff row.ts { ev with appliedTime := row.ts } ::
          (step parse cfg haveSidecar s row).2.toList.map .snapshot
    else if row.kind = lit "depth5" then
      match parse row.payload with
      | none => []
      | some ev =>
        let ev := { ev with appliedTime := row.ts }
        (if haveSidecar then [] else [.snapshot ev]) ++ [.depth5 row.ts ev]
    else if row.kind = lit "trade" then if cfg.integrateTrades then [.trade row.ts] else []
    else []

end SymReplay

/-- The actions of a replay, each labelled with its row. -/
def replayActions (haveSidecar : Bool) (s : SymReplay × List DepthEvent) (rows : List Row) :
    List (Row × Action) :=
  outputs (SymReplay.step parse cfg haveSidecar)
    (fun s row => (SymReplay.actions parse cfg haveSidecar s row).map fun a => (row, a)) s rows

variable {parse cfg} {y : Bytes} {b : Bool}

lemma part_book :
    Part (Replay.onLine parse cfg b) (SymReplay.step parse cfg b)
      (fun t => (t.book cfg y, t.snaps y))
      fun line => (readRow line).filter (·.symbol = y) where
  frame t line hline := by
    cases hrow : readRow line with
    | none => simp only [Replay.onLine, hrow]
    | some row =>
      rw [hrow] at hline
      have hy : row.symbol ≠ y := by simpa using hline
      simp only [Replay.onLine, hrow, Replay.book_take, Replay.snaps_take, if_neg hy]
  own t line k hline := by
    cases hrow : readRow line with
    | none => simp [hrow] at hline
    | some row =>
      rw [hrow] at hline
      obtain ⟨hmem, hy⟩ := Option.filter_eq_some_iff.mp hline
      obtain rfl : row = k := Option.some.inj hmem
      replace hy : row.symbol = y := by simpa using hy
      simp only [Replay.onLine, hrow, Replay.book_take, Replay.snaps_take, if_pos hy]
      rfl

/-- **What a replay keeps for a symbol** is what a run over its own rows leaves. -/
lemma book_runReplay (md : Bytes) (sidecar : Option Bytes) :
    (runReplay parse cfg md sidecar).1.book cfg y =
      (run (SymReplay.step parse cfg sidecar.isSome)
        (.new cfg y, (Replay.new parse sidecar).snaps y) (fileRows y md)).1.1 := by
  have hpart := (@part_book parse cfg y sidecar.isSome).run_eq
    (Replay.new parse sidecar) ((lines md).drop 1)
  rw [← List.filter_filterMap] at hpart
  exact congrArg Prod.fst hpart

namespace SymReplay

lemma enterEpoch_actions (r : SymReplay) (n : UInt64) :
    (r.enterEpoch n).toEmitter = (run Emitter.step r.toEmitter (r.entering n)).1 := by
  rw [enterEpoch, entering]
  cases r.epoch with
  | none => rfl
  | some e =>
    dsimp only
    split_ifs <;> rfl

/-- **A row is handled in its actions.** -/
lemma step_actions (s : SymReplay × List DepthEvent) (row : Row) :
    (step parse cfg b s row).1.1.toEmitter =
      (run Emitter.step s.1.toEmitter (actions parse cfg b s row)).1 := by
  rw [actions, run_append, ← enterEpoch_actions]
  simp only [step, onRow]
  by_cases hd : row.kind = lit "depth_diff"
  · simp only [if_pos hd]
    cases parse row.payload with
    | none => rfl
    | some ev =>
      dsimp only
      split_ifs
      · cases s.2 <;> rfl
      · rfl
  simp only [if_neg hd]
  by_cases h5 : row.kind = lit "depth5"
  · simp only [if_pos h5]
    cases parse row.payload with
    | none => rfl
    | some ev => cases b <;> rfl
  simp only [if_neg h5]
  by_cases ht : row.kind = lit "trade"
  · simp only [if_pos ht]
    split_ifs <;> rfl
  · simp only [if_neg ht]
    rfl

end SymReplay

end LobCapture
