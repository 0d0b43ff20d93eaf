/-
# A symbol's session and its order-book file

What the live handler and the replay do with a session and the rows it gives rise to.  The two
drivers spell these steps out separately, with the same text; here they are stated once.
-/
import LobCapture.Capture.Csv
import LobCapture.Session.BookSession

namespace LobCapture

open Lib

inductive TimePolicy where
  | recvWallClock
  | binanceEventTime
deriving DecidableEq, Repr

/-- The settings that a shard or a replay reads. -/
structure Config where
  venue : Venue
  /-- the symbols of the shard -/
  symbols : List Bytes
  timePolicy : TimePolicy
  /-- annotate order-book rows on trades -/
  integrateTrades : Bool
  shardId : Int32

def deriveId (s : Bytes) : Int32 :=
  let h : UInt32 := s.foldl (fun h c => (h ^^^ c.toUInt32) * 16777619) 2166136261
  (h &&& 0x7fffffff).toInt32

def msToTs (ms : Int64) : Timestamp where
  tsec := ms / 1000
  tnsec := (ms % 1000 * 1000000).toInt32

/-- A session with the sequence number and the rows of its order-book file. -/
structure Emitter where
  sess : BookSession
  seq : UInt64 := 0
  rows : List ObRow := []

namespace Emitter

def new (venue : Venue) (symbol : Bytes) : Emitter := { sess := .new (deriveId symbol) venue }

/-- Write a row that shows a book. -/
def emitBook (ts : Timestamp) (type : Char) (book : OrderBook) (e : Emitter) : Emitter :=
  { e with
    seq := e.seq + 1
    rows := e.rows ++ [book.fillTop5 { ts := ts, seqNo := e.seq + 1, type := type }] }

/-- Fail closed: never emit a row from an unseeded or resync-pending book. -/
def emitIfReady (ts : Timestamp) (type : Char) (e : Emitter) : Emitter :=
  if e.sess.initialized = false ∨ e.sess.resyncPending = true then e
  else e.emitBook ts type e.sess.ob

/-- Write the row of a depth5 event, straight from the event. -/
def emitDepth5 (ts : Timestamp) (ev : DepthEvent) (e : Emitter) : Emitter :=
  { e with
    seq := e.seq + 1
    rows := e.rows ++ [
      { ts := ts
        seqNo := e.seq + 1
        id := e.sess.ob.id
        type := 'S'
        bid := .ofFn fun i => (ev.bids[(i : ℕ)]?.map Level.price).getD 0
        bidSize := .ofFn fun i => (ev.bids[(i : ℕ)]?.map Level.qty).getD 0
        ask := .ofFn fun i => (ev.asks[(i : ℕ)]?.map Level.price).getD 0
        askSize := .ofFn fun i => (ev.asks[(i : ℕ)]?.map Level.qty).getD 0 }] }

/-- `on_snapshot` with a callback that writes a row for each applied event. -/
def seed (snap : DepthEvent) (e : Emitter) : Emitter :=
  let r := e.sess.onSnapshot snap.bids snap.asks snap.lastUpdateId
  r.callbacks.foldl (fun e x => e.emitBook x.1.appliedTime 'D' x.2) { e with sess := r.session }

/-- `on_diff` with its row, and whether a snapshot has to be fetched. -/
def takeDiff (ts : Timestamp) (ev : DepthEvent) (e : Emitter) : Emitter × Bool :=
  let (o, sess) := e.sess.onDiff ev
  let e := { e with sess := sess }
  if o = .applied then (e.emitIfReady ts 'D', false)
  else (e, o = .resyncNeeded ∨ o = .buffered ∧ sess.resyncPending = true)

end Emitter

end LobCapture
