/-
# Price levels, rows and the order of prices

The plain data of `types.hpp`, `order_book.hpp` and `json_min.hpp`.  Prices and quantities are
64-bit signed integers scaled by `10^8`; update ids are 64-bit unsigned integers.
-/
import Mathlib.Data.List.AList
import Mathlib.Order.RelClasses

namespace LobCapture

instance instLinearOrderInt64 : LinearOrder Int64 where
  le_refl := Int64.le_refl
  le_trans _ _ _ := Int64.le_trans
  le_antisymm _ _ := Int64.le_antisymm
  le_total := Int64.le_total
  lt_iff_le_not_ge _ _ := by grind
  toDecidableLE := inferInstance

instance instLinearOrderUInt64 : LinearOrder UInt64 where
  le_refl := UInt64.le_refl
  le_trans _ _ _ := UInt64.le_trans
  le_antisymm _ _ := UInt64.le_antisymm
  le_total := UInt64.le_total
  lt_iff_le_not_ge _ _ := by grind
  toDecidableLE := inferInstance

/-- Seconds and nanoseconds. -/
structure Timestamp where
  tsec : Int64 := 0
  tnsec : Int32 := 0
deriving DecidableEq, Repr

/-- A single price-level update: the absolute quantity at a price. -/
@[ext] structure Level where
  price : Int64
  qty : Int64
deriving DecidableEq, Repr

inductive Venue where
  | spot
  | usdm
deriving DecidableEq, Repr

/-- `stream_kind` values for the market-data CSV. -/
inductive StreamKind where
  | depthDiff
  | depth5
  | trade
deriving DecidableEq, Repr

/-- A parsed diff or partial-depth payload; absent fields are left at their defaults. -/
@[ext] structure DepthEvent where
  U : UInt64 := 0
  u : UInt64 := 0
  pu : UInt64 := 0
  hasPu : Bool := false
  /-- depth5 partial snapshot -/
  lastUpdateId : UInt64 := 0
  /-- Binance E/T event time, 0 when absent -/
  eventTimeMs : Int64 := 0
  /-- timestamp chosen for this event's order-book row -/
  appliedTime : Timestamp := {}
  bids : List Level := []
  asks : List Level := []
deriving DecidableEq, Repr

/-- One emitted order-book row, with the best five levels of each side. -/
structure ObRow where
  ts : Timestamp := {}
  seqNo : UInt64 := 0
  id : Int32 := 0
  type : Char := '?'
  side : Char := 'N'
  bid : Vector Int64 5 := Vector.replicate 5 0
  bidSize : Vector Int64 5 := Vector.replicate 5 0
  ask : Vector Int64 5 := Vector.replicate 5 0
  askSize : Vector Int64 5 := Vector.replicate 5 0
deriving DecidableEq

/-- Sequence-tracking result of applying a diff event. -/
inductive ApplyResult where
  | applied
  | ignoredOld
  | gap
  | needSnapshot
deriving DecidableEq, Repr

/-- `better_bid`: a bid is better when its price is higher. -/
abbrev betterBid : Int64 → Int64 → Prop := (· > ·)

/-- `better_ask`: an ask is better when its price is lower. -/
abbrev betterAsk : Int64 → Int64 → Prop := (· < ·)

/-! ## Price maps -/

/-- `std::unordered_map<int64_t, int64_t>` from price to quantity. -/
abbrev PriceMap := AList fun _ : Int64 => Int64

namespace PriceMap

/-- The entries of the map, in the order in which they are stored. -/
def levels (m : PriceMap) : List Level := m.entries.map fun kv => ⟨kv.1, kv.2⟩

/-- The absolute quantity at a price, `0` when the price is absent. -/
def qtyAt (m : PriceMap) (p : Int64) : Int64 := (m.lookup p).getD 0

@[simp] lemma levels_empty : levels ∅ = [] := rfl

lemma map_price_levels (m : PriceMap) : m.levels.map Level.price = m.keys := by
  simp [levels, AList.keys, List.keys, Function.comp_def]

lemma nodup_price (m : PriceMap) : (m.levels.map Level.price).Nodup := by
  rw [map_price_levels]
  exact m.keys_nodup

lemma mem_levels {m : PriceMap} {l : Level} : l ∈ m.levels ↔ m.lookup l.price = some l.qty := by
  rw [← Option.mem_def, AList.mem_lookup_iff, levels, List.mem_map]
  constructor
  · rintro ⟨kv, hkv, rfl⟩
    exact hkv
  · exact fun h => ⟨_, h, rfl⟩

lemma mem_levels_insert {m : PriceMap} {l x : Level} :
    x ∈ levels (m.insert l.price l.qty) ↔ x = l ∨ x ∈ m.levels ∧ x.price ≠ l.price := by
  rw [mem_levels, mem_levels]
  by_cases hp : x.price = l.price
  · rw [hp, AList.lookup_insert]
    simp [Level.ext_iff, hp, eq_comm]
  · rw [AList.lookup_insert_ne hp]
    simp [Level.ext_iff, hp]

lemma mem_levels_erase {m : PriceMap} {p : Int64} {x : Level} :
    x ∈ levels (m.erase p) ↔ x ∈ m.levels ∧ x.price ≠ p := by
  rw [mem_levels, mem_levels]
  by_cases hp : x.price = p
  · rw [hp, AList.lookup_erase]
    simp
  · rw [AList.lookup_erase_ne hp]
    simp [hp]

end PriceMap

end LobCapture
