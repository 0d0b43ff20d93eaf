/-
# The book of the exchange

The exchange has a book at every update id.  As long as a session is fed with genuine diffs and
snapshots, its book is the one of the exchange at exactly the id it claims to be at, whatever is
lost, repeated, reordered or thrown away in between.
-/
import LobCapture.Lib.Patch
import LobCapture.Session.Calls

namespace LobCapture

open Lib

/-! ## Price maps as functions -/

namespace PriceMap

variable {m m' : PriceMap}

/-- No price is listed with quantity zero. -/
def Nonzero (m : PriceMap) : Prop := ∀ l ∈ m.levels, l.qty ≠ 0

@[simp] lemma qtyAt_empty : qtyAt ∅ = fun _ => 0 := by
  ext p
  simp [qtyAt]

lemma qtyAt_insert (m : PriceMap) (p q : Int64) :
    qtyAt (m.insert p q) = Function.update m.qtyAt p q := by
  ext p'
  rcases eq_or_ne p' p with rfl | hne
  · simp [qtyAt]
  · simp [qtyAt, hne, Function.update_of_ne]

lemma qtyAt_erase (m : PriceMap) (p : Int64) :
    qtyAt (m.erase p) = Function.update m.qtyAt p 0 := by
  ext p'
  rcases eq_or_ne p' p with rfl | hne
  · simp [qtyAt]
  · simp [qtyAt, hne, AList.lookup_erase_ne, Function.update_of_ne]

lemma Nonzero.lookup_eq (h : m.Nonzero) (p : Int64) :
    m.lookup p = if m.qtyAt p = 0 then none else some (m.qtyAt p) := by
  cases hp : m.lookup p with
  | none => simp [qtyAt, hp]
  | some q =>
    have hq : q ≠ 0 := h ⟨p, q⟩ (mem_levels.mpr hp)
    simp [qtyAt, hp, hq]

/-- Maps without zero quantities are the same as soon as their quantities are. -/
lemma Nonzero.lookup_congr (h : m.Nonzero) (h' : m'.Nonzero) (heq : m.qtyAt = m'.qtyAt)
    (p : Int64) : m.lookup p = m'.lookup p := by
  rw [h.lookup_eq, h'.lookup_eq, heq]

lemma levels_perm (h : ∀ p, m.lookup p = m'.lookup p) : m.levels.Perm m'.levels := by
  rw [List.perm_ext_iff_of_nodup (List.Nodup.of_map _ m.nodup_price)
    (List.Nodup.of_map _ m'.nodup_price)]
  intro l
  rw [mem_levels, mem_levels, h]

end PriceMap

/-! ## The exchange -/

/-- The full book of the exchange at one update id. -/
structure ExchangeBook where
  bids : PriceMap
  asks : PriceMap
  bids_nonzero : bids.Nonzero
  asks_nonzero : asks.Nonzero

/-- The row with the best five levels of each side. -/
def ExchangeBook.topRow (x : ExchangeBook) (id : Int32) : ObRow :=
  OrderBook.topRow id (ranking Level.price betterBid x.bids.levels)
    (ranking Level.price betterAsk x.asks.levels)

/-- The book at every update id. -/
abbrev Exchange := ℕ → ExchangeBook

/-- A level as a price and a quantity. -/
def Level.pair (l : Level) : Int64 × Int64 := (l.price, l.qty)

namespace Exchange

/-- The bid quantities at every id. -/
def bidQty (H : Exchange) (i : ℕ) : Int64 → Int64 := (H i).bids.qtyAt

/-- The ask quantities at every id. -/
def askQty (H : Exchange) (i : ℕ) : Int64 → Int64 := (H i).asks.qtyAt

/-- The update ids that a diff covers. -/
def Covers (v : Venue) (ev : DepthEvent) (i : ℕ) : Prop :=
  match v with
  | .spot => ev.U.toNat ≤ i ∧ i ≤ ev.u.toNat
  | .usdm => ev.pu.toNat < i ∧ i ≤ ev.u.toNat

/-- The diff carries every price that changed in the range it covers, and each of its prices with
the absolute quantity at its last id.  A USD-M diff starts after the id it names as the previous
one. -/
structure GenuineDiff (H : Exchange) (v : Venue) (ev : DepthEvent) : Prop where
  bids : IsPatch H.bidQty (Covers v ev) ev.u.toNat (ev.bids.map Level.pair)
  asks : IsPatch H.askQty (Covers v ev) ev.u.toNat (ev.asks.map Level.pair)
  pu_lt : v = .usdm → ev.pu < ev.U

/-- The levels are one side of the book, complete. -/
def IsSide (f : Int64 → Int64) (levels : List Level) : Prop :=
  (∀ l ∈ levels, l.qty = f l.price) ∧ ∀ p, f p ≠ 0 → p ∈ levels.map Level.price

/-- The diffs and snapshots that a session is fed with tell the truth. -/
def Genuine (H : Exchange) (v : Venue) : BookSession.Call → Prop
  | .onDiff ev => H.GenuineDiff v ev
  | .onSnapshot bids asks S => IsSide (H.bidQty S.toNat) bids ∧ IsSide (H.askQty S.toNat) asks
  | .requestResync => True

/-- The book is the one of the exchange at its id, and shows its best five levels. -/
structure ShownBy (H : Exchange) (b : OrderBook) : Prop where
  bids : ∀ p, b.bids.lookup p = (H b.lastUpdateId.toNat).bids.lookup p
  asks : ∀ p, b.asks.lookup p = (H b.lastUpdateId.toNat).asks.lookup p
  row : b.fillTop5 {} = (H b.lastUpdateId.toNat).topRow b.id

end Exchange

/-! ## Book operations as overwrites -/

namespace OrderBook

variable {b : OrderBook}

lemma qtyAt_applyLevel (better : Int64 → Int64 → Prop) [DecidableRel better]
    (visit : List Level → List Level) (l : Level) (m : PriceMap) (c : TopCache) :
    (applyLevel better visit l m c).1.qtyAt = Function.update m.qtyAt l.price l.qty := by
  simp only [applyLevel]
  split_ifs with hq hvis
  · rw [PriceMap.qtyAt_erase, hq]
  · rw [PriceMap.qtyAt_erase, hq]
  · exact PriceMap.qtyAt_insert m l.price l.qty

/-- What a diff does to the two maps. -/
lemma qtyAt_applyLevels (t : Traversal) (bids asks : List Level) (b : OrderBook) :
    (b.applyLevels t bids asks).bids.qtyAt = overwrite b.bids.qtyAt (bids.map Level.pair) ∧
      (b.applyLevels t bids asks).asks.qtyAt =
        overwrite b.asks.qtyAt (asks.map Level.pair) := by
  -- each loop writes to the map of its side and leaves the other map alone
  have hbids : ∀ (ls : List (Level × ℕ)) (b : OrderBook),
      let b' := ls.foldl (fun b x => b.applyBidLevel (t.bids x.2) x.1) b
      b'.bids.qtyAt = overwrite b.bids.qtyAt (ls.map fun x => x.1.pair) ∧ b'.asks = b.asks := by
    intro ls b
    constructor
    · exact foldl_eq_overwrite (m := fun b : OrderBook => b.bids.qtyAt)
        (g := fun x : Level × ℕ => x.1.pair) (fun b x => qtyAt_applyLevel _ _ x.1 _ _) ls b
    · exact List.foldlRecOn (motive := fun b' : OrderBook => b'.asks = b.asks) ls _ rfl
        fun _ hb _ _ => hb
  have hasks : ∀ (ls : List (Level × ℕ)) (b : OrderBook),
      let b' := ls.foldl (fun b x => b.applyAskLevel (t.asks x.2) x.1) b
      b'.asks.qtyAt = overwrite b.asks.qtyAt (ls.map fun x => x.1.pair) ∧ b'.bids = b.bids := by
    intro ls b
    constructor
    · exact foldl_eq_overwrite (m := fun b : OrderBook => b.asks.qtyAt)
        (g := fun x : Level × ℕ => x.1.pair) (fun b x => qtyAt_applyLevel _ _ x.1 _ _) ls b
    · exact List.foldlRecOn (motive := fun b' : OrderBook => b'.bids = b.bids) ls _ rfl
        fun _ hb _ _ => hb
  have hpairs : ∀ ls : List Level,
      ls.zipIdx.map (fun x => x.1.pair) = ls.map Level.pair := by
    intro ls
    calc ls.zipIdx.map (fun x => x.1.pair) = (ls.zipIdx.map Prod.fst).map Level.pair := by
          rw [List.map_map]
          rfl
      _ = ls.map Level.pair := by rw [List.zipIdx_map_fst]
  have hb := hbids bids.zipIdx b
  have ha := hasks asks.zipIdx (bids.zipIdx.foldl (fun b x => b.applyBidLevel (t.bids x.2) x.1) b)
  rw [hpairs] at hb ha
  constructor
  · rw [← hb.1]
    exact congrArg PriceMap.qtyAt ha.2
  · rw [← hb.2]
    exact ha.1

lemma qtyAt_seedMap (levels : List Level) :
    (seedMap levels).qtyAt =
      overwrite (fun _ => 0) ((levels.filter (·.qty ≠ 0)).map Level.pair) := by
  have h : ∀ (m : PriceMap), (levels.foldl
      (fun m l => if l.qty ≠ 0 then m.insert l.price l.qty else m) m).qtyAt =
        overwrite m.qtyAt ((levels.filter (·.qty ≠ 0)).map Level.pair) := by
    induction levels with
    | nil => exact fun m => rfl
    | cons l levels ih =>
      intro m
      rw [List.foldl_cons, ih]
      by_cases hq : l.qty = 0
      · simp [hq]
      · simp [hq, PriceMap.qtyAt_insert, Level.pair]
  have hempty := h ∅
  rwa [PriceMap.qtyAt_empty] at hempty

/-- A complete side of the exchange's book seeds exactly that side. -/
lemma qtyAt_seedMap_of_isSide {f : Int64 → Int64} {levels : List Level}
    (h : Exchange.IsSide f levels) : (seedMap levels).qtyAt = f := by
  rw [qtyAt_seedMap]
  refine overwrite_eq_of_forall ?_ ?_
  · intro x hx
    obtain ⟨l, hl, rfl⟩ := List.mem_map.mp hx
    exact h.1 l (List.mem_of_mem_filter hl)
  · intro p hp
    obtain ⟨l, hl, rfl⟩ := List.mem_map.mp (h.2 p (Ne.symm hp))
    refine List.mem_map.mpr ⟨l.pair, List.mem_map_of_mem (List.mem_filter.mpr ⟨hl, ?_⟩), rfl⟩
    rw [h.1 l hl]
    simpa using Ne.symm hp

end OrderBook

namespace Exchange

variable {H : Exchange} {v : Venue} {b : OrderBook} {ev : DepthEvent}

/-- The quantities of a book are those of the exchange at its id. -/
structure Agrees (H : Exchange) (b : OrderBook) : Prop where
  inv : b.Inv
  bids : b.bids.qtyAt = H.bidQty b.lastUpdateId.toNat
  asks : b.asks.qtyAt = H.askQty b.lastUpdateId.toNat

lemma Agrees.shownBy (h : H.Agrees b) : H.ShownBy b := by
  have hbids := PriceMap.Nonzero.lookup_congr h.inv.bids.nonzero
    (H b.lastUpdateId.toNat).bids_nonzero h.bids
  have hasks := PriceMap.Nonzero.lookup_congr h.inv.asks.nonzero
    (H b.lastUpdateId.toNat).asks_nonzero h.asks
  refine ⟨hbids, hasks, ?_⟩
  rw [OrderBook.fillTop5_eq h.inv, ExchangeBook.topRow, OrderBook.bestBids, OrderBook.bestAsks,
    ranking_congr b.bids.nodup_price (PriceMap.levels_perm hbids),
    ranking_congr b.asks.nodup_price (PriceMap.levels_perm hasks)]

lemma agrees_setSnapshot {bids asks : List Level} {S : UInt64}
    (h : H.Genuine v (.onSnapshot bids asks S)) (b : OrderBook) :
    H.Agrees (b.setSnapshot .stored bids asks S) :=
  ⟨OrderBook.inv_setSnapshot .stored bids asks S, OrderBook.qtyAt_seedMap_of_isSide h.1,
    OrderBook.qtyAt_seedMap_of_isSide h.2⟩

/-- A diff that connects to the book covers everything between the book and its own last id. -/
lemma covers_of_bridges (h : H.GenuineDiff v ev) (hb : b.Bridges v ev) (i : ℕ)
    (hi : b.lastUpdateId.toNat < i) (hle : i ≤ ev.u.toNat) : Covers v ev i := by
  cases v with
  | spot =>
    have hU : ev.U.toNat ≤ b.lastUpdateId.toNat + 1 := hb
    exact ⟨by omega, hle⟩
  | usdm =>
    refine ⟨?_, hle⟩
    simp only [OrderBook.Bridges] at hb
    split at hb
    · rwa [hb]
    · -- the first event reaches back to before the snapshot
      have hpu := UInt64.lt_iff_toNat_lt.mp (h.pu_lt rfl)
      have hU := UInt64.le_iff_toNat_le.mp hb
      omega

lemma Agrees.advance (h : H.Agrees b) (hg : H.GenuineDiff v ev)
    (hnew : b.lastUpdateId < ev.u) (hb : b.Bridges v ev) : H.Agrees (b.advance ev) := by
  have hle : b.lastUpdateId.toNat ≤ ev.u.toNat := (UInt64.lt_iff_toNat_lt.mp hnew).le
  have hinv := h.inv.applyLevels .stored ev.bids ev.asks
  obtain ⟨hbids, hasks⟩ := b.qtyAt_applyLevels .stored ev.bids ev.asks
  refine ⟨⟨hinv.bids, hinv.asks⟩, hbids.trans ?_, hasks.trans ?_⟩
  · rw [h.bids]
    exact hg.bids.overwrite_eq hle (covers_of_bridges hg hb)
  · rw [h.asks]
    exact hg.asks.overwrite_eq hle (covers_of_bridges hg hb)

end Exchange

namespace BookSession

/-- What a session that is fed with genuine calls keeps. -/
structure Follows (H : Exchange) (v : Venue) (s : BookSession) : Prop where
  venue : s.venue = v
  buffer : ∀ ev ∈ s.buffer, H.GenuineDiff v ev
  book : s.ob.initialized = true → H.Agrees s.ob

variable {H : Exchange} {v : Venue} {s : BookSession} {ev : DepthEvent}

lemma Follows.bufferEvent (h : s.Follows H v) (hg : H.GenuineDiff v ev) :
    (s.bufferEvent ev).Follows H v := by
  rcases lt_or_ge s.buffer.length kMaxBuffer with hlt | hge
  · rw [bufferEvent_of_lt hlt]
    refine ⟨h.venue, ?_, h.book⟩
    intro e he
    rcases List.mem_append.mp he with he | he
    · exact h.buffer e he
    · rwa [List.mem_singleton.mp he]
  · rw [bufferEvent_of_full hge]
    exact ⟨h.venue, by simpa using hg, by simp [OrderBook.reset]⟩

lemma Follows.onDiff (h : s.Follows H v) (hg : H.GenuineDiff v ev) :
    (s.onDiff ev).2.Follows H v := by
  rcases s.onDiff_cases ev with ⟨-, heq⟩ | ⟨-, -, heq⟩ | ⟨hs, hnew, hb, heq⟩ | ⟨-, -, -, heq⟩
  · rw [heq]
    exact h.bufferEvent hg
  · rwa [heq]
  · rw [heq]
    exact ⟨h.venue, h.buffer, fun _ => (h.book hs.2).advance hg hnew (h.venue ▸ hb)⟩
  · rw [heq]
    exact Follows.bufferEvent (s := { s with resyncPending := true }) ⟨h.venue, h.buffer, h.book⟩ hg

lemma Follows.onSnapshot {bids asks : List Level} {S : UInt64} (h : s.Follows H v)
    (hg : H.Genuine v (.onSnapshot bids asks S)) :
    (s.onSnapshot bids asks S).session.Follows H v ∧
      ∀ x ∈ (s.onSnapshot bids asks S).callbacks, H.Agrees x.2 := by
  obtain ⟨b', cbs, rest, hc, heq⟩ := s.onSnapshot_cases bids asks S
  rw [heq]
  obtain ⟨hb', hcbs⟩ := hc.invariant (P := H.Agrees)
    (fun b ev hev hnew hb hA => hA.advance (h.buffer ev hev) hnew (h.venue ▸ hb))
    (Exchange.agrees_setSnapshot hg s.ob)
  exact ⟨⟨h.venue, fun ev hev => h.buffer ev (hc.suffix.subset hev), fun _ => hb'⟩, hcbs⟩

/-- **The book is the exchange's book** at its update id, in every reached state in which it is
seeded and at every callback. -/
theorem book_eq_exchange (H : Exchange) (id : Int32) (v : Venue) (calls : List Call)
    (h : ∀ c ∈ calls, H.Genuine v c) :
    let r := run step (new id v) calls
    (r.1.ob.initialized = true → H.ShownBy r.1.ob) ∧
      ∀ x ∈ r.2, ∀ n cbs, x.2 = .replayed n cbs → ∀ y ∈ cbs, H.ShownBy y.2 := by
  have hall : Allowed step (fun _ => H.Genuine v) (new id v) calls := allowed_of_forall h
  have hrun := @run_induction_of _ _ _ step _
    (fun hist t => t.Follows H v ∧
      ∀ x ∈ hist, ∀ n cbs, x.2 = .replayed n cbs → ∀ y ∈ cbs, H.Agrees y.2)
    _ _ hall ⟨⟨rfl, by simp [new], by simp [new]⟩, by simp⟩ ?_
  · exact ⟨fun hinit => (hrun.1.book hinit).shownBy,
      fun x hx n cbs hr y hy => (hrun.2 x hx n cbs hr y hy).shownBy⟩
  rintro hist t c hg ⟨hF, hA⟩
  -- only the books of the last reply are new
  have hcons : ∀ o, (∀ n cbs, o = .replayed n cbs → ∀ y ∈ cbs, H.Agrees y.2) →
      ∀ x ∈ hist ++ [(c, o)], ∀ n cbs, x.2 = .replayed n cbs → ∀ y ∈ cbs, H.Agrees y.2 := by
    intro o ho x hx
    rcases List.mem_append.mp hx with hx | hx
    · exact hA x hx
    · rw [List.mem_singleton.mp hx]
      exact ho
  cases c with
  | onDiff ev => exact ⟨hF.onDiff hg, hcons _ (by simp [step])⟩
  | onSnapshot bids asks S =>
    obtain ⟨hF', hcbs⟩ := hF.onSnapshot hg
    refine ⟨hF', hcons _ ?_⟩
    rintro n cbs hr y hy
    cases hr
    exact hcbs y hy
  | requestResync =>
    exact ⟨⟨hF.venue, by simp [step, requestResync],
      by simp [step, requestResync, OrderBook.reset]⟩, hcons _ (by simp [step])⟩

/-- A quantity changes from id 11 to id 12, between the snapshot and the end of the diff. -/
theorem book_eq_exchange_change :
    ∃ H : Exchange, (H 10).bids.lookup 100 = some 1 ∧ (H 12).bids.lookup 100 = some 2 ∧
      H.ShownBy (run step (new 1 .spot) [.onSnapshot [⟨100, 1⟩] [] 10,
        .onDiff { U := 11, u := 12, bids := [⟨100, 2⟩] }]).1.ob := by
  let H : Exchange := fun i =>
    { bids := (∅ : PriceMap).insert 100 (if i < 12 then 1 else 2)
      asks := ∅
      bids_nonzero := by
        intro l hl
        rw [PriceMap.mem_levels_insert (l := ⟨100, if i < 12 then 1 else 2⟩)] at hl
        rcases hl with rfl | ⟨hl, -⟩
        · show (if i < 12 then 1 else 2) ≠ (0 : Int64)
          split <;> decide
        · simp at hl
      asks_nonzero := by simp [PriceMap.Nonzero] }
  have hbid : ∀ i, H.bidQty i = Function.update (fun _ => 0) 100 (if i < 12 then 1 else 2) := by
    intro i
    rw [Exchange.bidQty, PriceMap.qtyAt_insert, PriceMap.qtyAt_empty]
  have hask : ∀ i, H.askQty i = fun _ => 0 := fun i => PriceMap.qtyAt_empty
  refine ⟨H, rfl, rfl, (book_eq_exchange H 1 .spot _ ?_).1 rfl⟩
  intro c hc
  simp only [List.mem_cons, List.not_mem_nil, or_false] at hc
  rcases hc with rfl | rfl
  · refine ⟨⟨by simp [hbid], fun p hp => ?_⟩, ⟨by simp, by simp [hask]⟩⟩
    by_contra hne
    rw [hbid, Function.update_of_ne (by simpa using hne)] at hp
    exact hp rfl
  · refine ⟨⟨by simp [hbid, Level.pair], fun i p _ _ hi => ?_⟩, ⟨by simp, by simp [hask]⟩, by simp⟩
    by_contra hne
    rw [hbid, hbid, Function.update_of_ne (by simpa [Level.pair] using hne),
      Function.update_of_ne (by simpa [Level.pair] using hne)] at hi
    exact hi rfl

end BookSession

end LobCapture
