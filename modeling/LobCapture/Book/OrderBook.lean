/-
# The order book of one symbol

`OrderBook` of `order_book.cpp`: full-depth hash maps from price to quantity plus fixed caches
of the best levels, and the sequence state of the diff stream.

The hash maps may hand out their entries in any order, and that order may differ from one
traversal to the next.  An operation therefore takes a `Traversal`, which says in which order
each of the rebuilds it performs visits the entries.
-/
import LobCapture.Book.Types

namespace LobCapture

/-! ## The cache of the best levels -/

def kTopCache : ℕ := 64

/-- A fixed array of levels of which the first `count` are in use. -/
structure TopCache where
  levels : Vector Level 64 := Vector.replicate 64 ⟨0, 0⟩
  count : ℕ := 0
deriving DecidableEq

namespace TopCache

/-- `c.levels[i]`. -/
def slot (c : TopCache) (i : ℕ) : Level := c.levels.getD i ⟨0, 0⟩

/-- The levels in use, in the order of the array. -/
def toList (c : TopCache) : List Level := c.levels.toList.take c.count

/-- `clear_cache`. -/
def clear : TopCache := {}

/-- `for (size_t j = i + 1; j < count; ++j) levels[j - 1] = levels[j];` -/
def shiftDown (a : Vector Level 64) (i count : ℕ) : Vector Level 64 :=
  (List.range' (i + 1) (count - (i + 1))).foldl
    (fun a j => a.setIfInBounds (j - 1) (a.getD j ⟨0, 0⟩)) a

/-- `for (size_t j = limit; j > pos; --j) levels[j] = levels[j - 1];` -/
def shiftUp (a : Vector Level 64) (pos limit : ℕ) : Vector Level 64 :=
  (List.range' (pos + 1) (limit - pos)).reverse.foldl
    (fun a j => a.setIfInBounds j (a.getD (j - 1) ⟨0, 0⟩)) a

/-- `remove_cache_price`: also says whether the removed level was among the first five. -/
def removePrice (c : TopCache) (price : Int64) : TopCache × Bool :=
  match c.toList.findIdx? (·.price == price) with
  | some i =>
    let a := shiftDown c.levels i c.count
    (⟨a.setIfInBounds (c.count - 1) ⟨0, 0⟩, c.count - 1⟩, decide (i < 5))
  | none => (c, false)

variable (better : Int64 → Int64 → Prop) [DecidableRel better]

/-- The common text of `upsert_bid_cache` and `upsert_ask_cache`. -/
def upsert (l : Level) (c : TopCache) : TopCache :=
  if c.count = kTopCache ∧ ¬ better l.price (c.slot (kTopCache - 1)).price then c
  else
    let pos := c.toList.findIdx fun x => ¬ better x.price l.price
    let limit := min c.count (kTopCache - 1)
    let a := (shiftUp c.levels pos limit).setIfInBounds pos l
    ⟨a, if c.count < kTopCache then c.count + 1 else c.count⟩

/-- `upsert_bid_cache`. -/
def upsertBid (l : Level) (c : TopCache) : TopCache := c.upsert betterBid l

/-- `upsert_ask_cache`. -/
def upsertAsk (l : Level) (c : TopCache) : TopCache := c.upsert betterAsk l

/-- The common text of `rebuild_bid_cache` and `rebuild_ask_cache`, for a map that hands out its
entries in the order given by `visit`. -/
def rebuild (visit : List Level → List Level) (m : PriceMap) : TopCache :=
  (visit m.levels).foldl (fun c kv => c.upsert better kv) clear

/-- `rebuild_bid_cache`. -/
def rebuildBid (visit : List Level → List Level) (m : PriceMap) : TopCache :=
  rebuild betterBid visit m

/-- `rebuild_ask_cache`. -/
def rebuildAsk (visit : List Level → List Level) (m : PriceMap) : TopCache :=
  rebuild betterAsk visit m

end TopCache

/-- The common text of `apply_bid_level` and `apply_ask_level`. -/
def applyLevel (better : Int64 → Int64 → Prop) [DecidableRel better]
    (visit : List Level → List Level) (l : Level) (m : PriceMap) (c : TopCache) :
    PriceMap × TopCache :=
  let (c', visible) := c.removePrice l.price
  if l.qty = 0 then
    let m' := m.erase l.price
    if visible ∨ c'.count < 5 then (m', TopCache.rebuild better visit m') else (m', c')
  else
    (m.insert l.price l.qty, c'.upsert better l)

/-! ## The book -/

/-- The orders in which the two hash maps hand out their entries during one operation, at its
`n`-th level. -/
structure Traversal where
  bids : ℕ → List Level → List Level
  asks : ℕ → List Level → List Level
  bids_perm : ∀ n l, (bids n l).Perm l
  asks_perm : ∀ n l, (asks n l).Perm l

/-- The entries in the order in which they are stored. -/
def Traversal.stored : Traversal where
  bids _ l := l
  asks _ l := l
  bids_perm _ l := .refl l
  asks_perm _ l := .refl l

/-- Local order book for one symbol. -/
structure OrderBook where
  id : Int32
  initialized : Bool := false
  lastUpdateId : UInt64 := 0
  /-- an event applied since the last snapshot -/
  started : Bool := false
  bids : PriceMap := ∅
  asks : PriceMap := ∅
  bidCache : TopCache := {}
  askCache : TopCache := {}

namespace OrderBook

/-- `for (const auto& l : levels) if (l.qty != 0) m[l.price] = l.qty;` on an empty map. -/
def seedMap (levels : List Level) : PriceMap :=
  levels.foldl (fun m l => if l.qty ≠ 0 then m.insert l.price l.qty else m) ∅

def setSnapshot (t : Traversal) (bids asks : List Level) (snapshotLastUpdateId : UInt64)
    (b : OrderBook) : OrderBook :=
  { b with
    bids := seedMap bids
    asks := seedMap asks
    bidCache := TopCache.rebuildBid (t.bids 0) (seedMap bids)
    askCache := TopCache.rebuildAsk (t.asks 0) (seedMap asks)
    lastUpdateId := snapshotLastUpdateId
    initialized := true
    started := false }

/-- `apply_bid_level`. -/
def applyBidLevel (visit : List Level → List Level) (l : Level) (b : OrderBook) : OrderBook :=
  let (m, c) := applyLevel betterBid visit l b.bids b.bidCache
  { b with bids := m, bidCache := c }

/-- `apply_ask_level`. -/
def applyAskLevel (visit : List Level → List Level) (l : Level) (b : OrderBook) : OrderBook :=
  let (m, c) := applyLevel betterAsk visit l b.asks b.askCache
  { b with asks := m, askCache := c }

def applyLevels (t : Traversal) (bids asks : List Level) (b : OrderBook) : OrderBook :=
  let b := bids.zipIdx.foldl (fun b x => b.applyBidLevel (t.bids x.2) x.1) b
  asks.zipIdx.foldl (fun b x => b.applyAskLevel (t.asks x.2) x.1) b

def applyDiffSpot (t : Traversal) (U u : UInt64) (bids asks : List Level) (b : OrderBook) :
    ApplyResult × OrderBook :=
  if b.initialized = false then (.needSnapshot, b)
  else if u ≤ b.lastUpdateId then (.ignoredOld, b)
  else if U > b.lastUpdateId + 1 then (.gap, b)
  else (.applied, { b.applyLevels t bids asks with lastUpdateId := u, started := true })

def applyDiffUsdm (t : Traversal) (U u pu : UInt64) (bids asks : List Level) (b : OrderBook) :
    ApplyResult × OrderBook :=
  if b.initialized = false then (.needSnapshot, b)
  else if u ≤ b.lastUpdateId then (.ignoredOld, b)
  else if b.started = false ∧ U > b.lastUpdateId then (.gap, b)
  else if b.started = true ∧ pu ≠ b.lastUpdateId then (.gap, b)
  else (.applied, { b.applyLevels t bids asks with lastUpdateId := u, started := true })

def fillTop5 (b : OrderBook) (row : ObRow) : ObRow :=
  { row with
    id := b.id
    bid := .ofFn fun i => if i < b.bidCache.count then (b.bidCache.slot i).price else row.bid[i]
    bidSize := .ofFn fun i =>
      if i < b.bidCache.count then (b.bidCache.slot i).qty else row.bidSize[i]
    ask := .ofFn fun i => if i < b.askCache.count then (b.askCache.slot i).price else row.ask[i]
    askSize := .ofFn fun i =>
      if i < b.askCache.count then (b.askCache.slot i).qty else row.askSize[i] }

def reset (b : OrderBook) : OrderBook :=
  { b with
    bids := ∅
    asks := ∅
    bidCache := .clear
    askCache := .clear
    initialized := false
    lastUpdateId := 0
    started := false }

end OrderBook

end LobCapture
