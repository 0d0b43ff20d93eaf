/-
# Replay

`run_replay` of `replay.cpp`: the market-data file is read back line by line, and the snapshots
of the sidecar take the place of the REST client.
-/
import LobCapture.Capture.Emitter
import LobCapture.Lib.Run

namespace LobCapture

open Lib

/-- The fields of a market-data line that a replay uses. -/
structure Row where
  ts : Timestamp
  kind : Bytes
  connEpoch : UInt64
  symbol : Bytes
  payload : Bytes

/-- Read a market-data line; an empty or short one is skipped. -/
def readRow (line : Bytes) : Option Row :=
  if line = [] then none
  else
    let f := parseCsvLine line
    if f.length < 9 then none
    else
      some
        { ts := ⟨atoll (f.getD 0 []), atoi (f.getD 1 [])⟩
          kind := f.getD 3 []
          connEpoch := strtoull (f.getD 5 [])
          symbol := f.getD 7 []
          payload := f.getD 8 [] }

/-- What a replay keeps for a symbol. -/
structure SymReplay extends Emitter where
  /-- last conn_epoch -/
  epoch : Option UInt64 := none

/-- The symbols seen so far, and the recorded snapshots that are left. -/
structure Replay where
  books : Bytes → Option SymReplay
  snaps : Bytes → List DepthEvent

variable (parse : Bytes → Option DepthEvent) (cfg : Config)

/-- Read a line of the sidecar. -/
def readSnapshot (line : Bytes) : Option (Bytes × DepthEvent) :=
  if line = [] then none
  else
    let f := parseCsvLine line
    if f.length < 5 then none
    else (parse (f.getD 4 [])).map fun ev => (f.getD 2 [], ev)

/-- The snapshots of a sidecar, in the order of its lines. -/
def loadSnapshots (sidecar : Bytes) : List (Bytes × DepthEvent) :=
  ((lines sidecar).drop 1).filterMap (readSnapshot parse)

/-- The replay before the first line, with the sidecar if there is one. -/
def Replay.new (sidecar : Option Bytes) : Replay where
  books _ := none
  snaps symbol :=
    match sidecar with
    | none => []
    | some text => ((loadSnapshots parse text).filter (·.1 = symbol)).map Prod.snd

def SymReplay.new (symbol : Bytes) : SymReplay := { toEmitter := .new cfg.venue symbol }

/-- A new conn_epoch invalidates the book. -/
def SymReplay.enterEpoch (connEpoch : UInt64) (r : SymReplay) : SymReplay :=
  match r.epoch with
  | none => { r with epoch := some connEpoch }
  | some e =>
    if e ≠ connEpoch then
      { r with sess := r.sess.requestResync, epoch := some connEpoch }
    else r

/-- `seed_from_sidecar`: what is left of the snapshots, and the one that was used. -/
def SymReplay.seedFromSidecar (snaps : List DepthEvent) (r : SymReplay) :
    SymReplay × List DepthEvent × Option DepthEvent :=
  match snaps with
  | [] => (r, [], none)
  | snap :: snaps => ({ r with toEmitter := r.seed snap }, snaps, some snap)

/-- A market-data row of a symbol whose recorded snapshots are `snaps`. -/
def SymReplay.onRow (haveSidecar : Bool) (row : Row) (snaps : List DepthEvent) (r : SymReplay) :
    SymReplay × List DepthEvent × Option DepthEvent :=
  let r := r.enterEpoch row.connEpoch
  if row.kind = lit "depth_diff" then
    match parse row.payload with
    | none => (r, snaps, none)
    | some ev =>
      let (e, wantsSnapshot) := r.takeDiff row.ts { ev with appliedTime := row.ts }
      let r := { r with toEmitter := e }
      if wantsSnapshot then r.seedFromSidecar snaps else (r, snaps, none)
  else if row.kind = lit "depth5" then
    match parse row.payload with
    | none => (r, snaps, none)
    | some ev =>
      let ev := { ev with appliedTime := row.ts }
      let e := if haveSidecar then r.toEmitter else r.seed ev
      ({ r with toEmitter := e.emitDepth5 row.ts ev }, snaps, none)
  else if row.kind = lit "trade" then
    if cfg.integrateTrades then
      ({ r with toEmitter := r.emitIfReady row.ts 'T' }, snaps, none)
    else (r, snaps, none)
  else (r, snaps, none)

/-- A market-data row, with the snapshot of the sidecar that was used on it. -/
def Replay.take (haveSidecar : Bool) (s : Replay) (row : Row) :
    Replay × Bytes × Option DepthEvent :=
  let r := (s.books row.symbol).getD (.new cfg row.symbol)
  let (r, snaps, used) := r.onRow parse cfg haveSidecar row (s.snaps row.symbol)
  ({ books y := if y = row.symbol then some r else s.books y
     snaps y := if y = row.symbol then snaps else s.snaps y }, row.symbol, used)

def Replay.onLine (haveSidecar : Bool) (s : Replay) (line : Bytes) :
    Replay × Option (Bytes × Option DepthEvent) :=
  match readRow line with
  | none => (s, none)
  | some row =>
    let (s, used) := s.take parse cfg haveSidecar row
    (s, some used)

def runReplay (md : Bytes) (sidecar : Option Bytes) :
    Replay × List (Bytes × Option (Bytes × Option DepthEvent)) :=
  run (Replay.onLine parse cfg sidecar.isSome) (.new parse sidecar) ((lines md).drop 1)

/-- The rows of a symbol's order-book file. -/
def Replay.rows (s : Replay) (symbol : Bytes) : List ObRow :=
  ((s.books symbol).map (·.rows)).getD []

end LobCapture
