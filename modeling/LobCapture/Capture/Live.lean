/-
# The live run of a shard

The `handler` and `resync` lambdas of `run_shard` in `main.cpp`.  What the handler asks the
outside world for during a call is part of the call: the clock, and the response of the REST
client if a snapshot is requested.  At most one is, so one response is enough.

The parser of depth payloads is a parameter: the program has two, and is built with one of them.
-/
import LobCapture.Capture.Emitter
import LobCapture.Lib.Run

namespace LobCapture

open Lib

/-- `@` -/
def atSign : UInt8 := 64

/-- `toupper` in the C locale. -/
def toUpper (c : UInt8) : UInt8 := if 97 ≤ c ∧ c ≤ 122 then c - 32 else c

def streamSymbol (stream : Bytes) : Bytes := (stream.takeWhile (· ≠ atSign)).map toUpper

/-- A call of the handler. -/
structure Frame where
  text : Bytes
  connEpoch : UInt64
  connSeq : UInt64
  /-- the clock when the frame is handled -/
  recvTs : Timestamp
  /-- the body of the REST response, unless the request fails -/
  response : Option Bytes
  /-- the clock after the snapshot -/
  snapTs : Timestamp

/-- What the handler knows about a frame when it writes the market-data row. -/
structure Message where
  symbol : Bytes
  kind : StreamKind
  payload : Bytes
  ts : Timestamp
  /-- the parsed payload, if it is parsed and the parser accepts it -/
  event : Option DepthEvent

/-- What became of the request for a snapshot. -/
inductive Fetch where
  | none
  | failed
  | ok (raw : Bytes) (snap : DepthEvent)
deriving DecidableEq

structure SymState extends Emitter where
  /-- detects reconnects -/
  lastEpoch : UInt64 := .ofNat (UInt64.size - 1)

/-- The state of a shard: the state of each of its symbols, the market-data file, and the
snapshot sidecar. -/
structure Shard where
  sym : Bytes → SymState
  md : Bytes
  snaps : Bytes

def sidecarHeader : Bytes := lit "recv_tsec,recv_tnsec,symbol,lastUpdateId,payload_json"

/-- The row of the sidecar that `resync` writes. -/
def snapshotRow (t : Timestamp) (symbol : Bytes) (lastUpdateId : UInt64) (raw : Bytes) : Bytes :=
  integer t.tsec.toInt ++ comma :: integer t.tnsec.toInt ++ comma :: symbol ++
    comma :: decimal lastUpdateId.toNat ++ comma :: csvEscape raw ++ [newline]

/-- What `resync` writes to the sidecar. -/
def Fetch.sidecarText (t : Timestamp) (symbol : Bytes) : Fetch → Bytes
  | .ok raw snap => snapshotRow t symbol snap.lastUpdateId raw
  | _ => []

def Shard.new (cfg : Config) : Shard where
  sym symbol := { toEmitter := .new cfg.venue symbol }
  md := marketDataHeader ++ [newline]
  snaps := sidecarHeader ++ [newline]

variable (parse : Bytes → Option DepthEvent) (cfg : Config)

/-- The handler up to the market-data row. -/
def Frame.message (fr : Frame) : Option Message :=
  (splitEnvelope fr.text).map fun (stream, data) =>
    let symbol := streamSymbol stream
    let kind := classifyStream stream
    let stamp (ms : Int64) :=
      if cfg.timePolicy = .binanceEventTime ∧ ms > 0 then msToTs ms else fr.recvTs
    if (kind = .depthDiff ∨ kind = .depth5) ∧ symbol ∈ cfg.symbols then
      match parse data with
      | none => ⟨symbol, kind, data, fr.recvTs, none⟩
      | some ev =>
        let ts := stamp ev.eventTimeMs
        ⟨symbol, kind, data, ts, some { ev with appliedTime := ts }⟩
    else ⟨symbol, kind, data, stamp (eventTimeMs data), none⟩

/-- The row that the handler writes to the market-data file. -/
def Message.row (fr : Frame) (m : Message) : Bytes :=
  writeRow m.ts cfg.venue m.kind cfg.shardId fr.connEpoch fr.connSeq m.symbol m.payload

/-- `resync`, without the sidecar row. -/
def SymState.resync (response : Option Bytes) (st : SymState) : SymState × Fetch :=
  match response with
  | none => (st, .failed)
  | some raw =>
    match parse raw with
    | none => (st, .failed)
    | some snap => ({ st with toEmitter := st.seed snap }, .ok raw snap)

def SymState.enterEpoch (connEpoch : UInt64) (st : SymState) : SymState :=
  if st.lastEpoch ≠ connEpoch then
    { st with
      sess := if st.lastEpoch ≠ .ofNat (UInt64.size - 1) then st.sess.requestResync else st.sess
      lastEpoch := connEpoch }
  else st

/-- The handler after the market-data row. -/
def SymState.onMessage (fr : Frame) (m : Message) (st : SymState) : SymState × Fetch :=
  let st := st.enterEpoch fr.connEpoch
  match m.kind, m.event with
  | .depthDiff, some ev =>
    let (e, wantsSnapshot) := st.takeDiff m.ts ev
    let st := { st with toEmitter := e }
    if wantsSnapshot then st.resync parse fr.response else (st, .none)
  | .depth5, some ev => ({ st with toEmitter := st.emitDepth5 m.ts ev }, .none)
  | .trade, _ =>
    if cfg.integrateTrades then ({ st with toEmitter := st.emitIfReady m.ts 'T' }, .none)
    else (st, .none)
  | _, none => (st, .none)

/-- A depth payload that the parser does not accept. -/
def Message.ParseFailed (m : Message) : Prop :=
  (m.kind = .depthDiff ∨ m.kind = .depth5) ∧ m.event = none

instance (m : Message) : Decidable m.ParseFailed := inferInstanceAs (Decidable (_ ∧ _))

/-- The handler for a frame that it has taken apart. -/
def Shard.take (s : Shard) (x : Frame × Message) : Shard × Bytes × Fetch :=
  let (fr, m) := x
  let s := { s with md := s.md ++ m.row cfg fr }
  if m.ParseFailed ∨ m.symbol ∉ cfg.symbols then (s, m.symbol, .none)
  else
    let (st, fetch) := (s.sym m.symbol).onMessage parse cfg fr m
    ({ s with
        sym y := if y = m.symbol then st else s.sym y
        snaps := s.snaps ++ fetch.sidecarText fr.snapTs m.symbol },
      m.symbol, fetch)

/-- `handler`, which also says whose row it wrote to the market-data file, if any, and what
became of the request for a snapshot. -/
def handler (s : Shard) (fr : Frame) : Shard × Option (Bytes × Fetch) :=
  match fr.message parse cfg with
  | none => (s, none)
  | some m =>
    let (s, r) := s.take parse cfg (fr, m)
    (s, some r)

def runShard (frames : List Frame) : Shard × List (Frame × Option (Bytes × Fetch)) :=
  run (handler parse cfg) (.new cfg) frames

end LobCapture
