/-
# The cache shows the best five levels

The 64-level cache of a side is not the best 64 levels of its map: deleting a cached level
behind the fifth leaves a hole, and a later insertion may cache a level that is worse than one
only the map knows.  What every operation does keep is that the cache is a `TopView` of the map
in place 4: it is ranked, holds entries of the map, and everything it leaves out is worse than
its fifth level (`SideInv`).  Rows read the first five places only, so they show the best five
levels of the full map (`OrderBook.fillTop5_eq`).
-/
import LobCapture.Book.CacheList
import LobCapture.Lib.Run
import LobCapture.Lib.TopView

namespace LobCapture

open Lib

/-! ## One side -/

section Side

variable {better : Int64 → Int64 → Prop} [DecidableRel better] [IsStrictTotalOrder Int64 better]

namespace TopCache

/-- Inserting levels of different prices one by one into the empty cache. -/
lemma foldl_upsert {ls : List Level} (hn : (ls.map Level.price).Nodup) :
    (ls.foldl (fun c kv => c.upsert better kv) clear).WF ∧
      (ls.foldl (fun c kv => c.upsert better kv) clear).toList =
        (ranking Level.price better ls).take 64 := by
  induction ls using List.reverseRecOn with
  | nil => exact ⟨wf_clear, rfl⟩
  | append_singleton ls l ih =>
    have hn' := hn
    rw [List.map_append, List.nodup_append] at hn'
    obtain ⟨hwf, hlist⟩ := ih hn'.1
    -- the cache holds the best 64 of the levels so far, and the new price is not among them
    have hr : Ranked Level.price better
        (ls.foldl (fun c kv => c.upsert better kv) clear).toList := by
      rw [hlist]
      exact (ranked_ranking hn'.1).take 64
    have hl : l.price ∉ (ls.foldl (fun c kv => c.upsert better kv) clear).toList.map
        Level.price := by
      rw [hlist]
      intro hmem
      obtain ⟨x, hx, hxl⟩ := List.mem_map.mp hmem
      have hx' := mem_ranking.mp (List.mem_of_mem_take hx)
      exact hn'.2.2 _ (List.mem_map_of_mem hx') _ (by simp) hxl
    rw [List.foldl_append, List.foldl_cons, List.foldl_nil]
    refine ⟨wf_upsert hwf l, ?_⟩
    rw [toList_upsert hwf hr hl, hlist, ← foldl_insertTop hn'.1, ← foldl_insertTop hn,
      List.foldl_append, List.foldl_cons, List.foldl_nil]

/-- A cache is determined by its listing. -/
lemma WF.ext {c c' : TopCache} (h : c.WF) (h' : c'.WF) (hl : c.toList = c'.toList) : c = c' := by
  have hcount : c.count = c'.count := by rw [← h.length_toList, ← h'.length_toList, hl]
  have hlevels : c.levels = c'.levels := by
    apply Vector.ext
    intro i hi
    rw [← getD_eq_getElem _ hi, ← getD_eq_getElem _ hi]
    exact (h.slot_eq_getD i).trans (hl ▸ (h'.slot_eq_getD i).symm)
  cases c
  cases c'
  simp_all

section Rebuild

variable {visit visit' : List Level → List Level} {m : PriceMap}
  (h : (visit m.levels).Perm m.levels)

include h

lemma nodup_visit : ((visit m.levels).map Level.price).Nodup :=
  (h.map _).nodup_iff.mpr m.nodup_price

lemma wf_rebuild : (rebuild better visit m).WF := (foldl_upsert (nodup_visit h)).1

/-- A rebuild is a sort, cut off at the size of the cache. -/
lemma toList_rebuild :
    (rebuild better visit m).toList = (ranking Level.price better m.levels).take 64 := by
  rw [rebuild, (foldl_upsert (nodup_visit h)).2, ranking_congr (nodup_visit h) h]

/-- The result of a rebuild does not depend on the order in which the map is visited. -/
theorem rebuild_visit (h' : (visit' m.levels).Perm m.levels) :
    rebuild better visit m = rebuild better visit' m := by
  refine (wf_rebuild h).ext (wf_rebuild h') ?_
  rw [toList_rebuild h, toList_rebuild h']

/-- The number of levels in use after a rebuild, and what is in the slots. -/
lemma rebuild_spec :
    (rebuild better visit m).count = min 64 m.levels.length ∧
      (rebuild better visit m).levels.toList =
        (ranking Level.price better m.levels).take 64 ++
          List.replicate (64 - m.levels.length) ⟨0, 0⟩ := by
  have hwf : (rebuild better visit m).WF := wf_rebuild h
  have hcount : (rebuild better visit m).count = min 64 m.levels.length := by
    rw [← hwf.length_toList, toList_rebuild h, List.length_take, (ranking_perm _).length_eq]
  refine ⟨hcount, ?_⟩
  rw [hwf.toList_levels, toList_rebuild h, hcount]
  congr 2
  omega

end Rebuild

end TopCache

/-- What holds of a map and its cache between two operations. -/
structure SideInv (better : Int64 → Int64 → Prop) (m : PriceMap) (c : TopCache) : Prop where
  wf : c.WF
  view : TopView Level.price better 4 m.levels c.toList
  nonzero : ∀ l ∈ m.levels, l.qty ≠ 0

namespace SideInv

omit [DecidableRel better] [IsStrictTotalOrder Int64 better] in
lemma empty : SideInv better ∅ .clear :=
  ⟨TopCache.wf_clear, by simpa using TopView.nil, by simp⟩

variable {visit : List Level → List Level} {m : PriceMap} {c : TopCache}

lemma rebuild (hvisit : ∀ l, (visit l).Perm l) (hm : ∀ l ∈ m.levels, l.qty ≠ 0) :
    SideInv better m (.rebuild better visit m) := by
  refine ⟨TopCache.wf_rebuild (hvisit _), ?_, hm⟩
  rw [TopCache.toList_rebuild (hvisit _)]
  exact TopView.of_ranking (by omega) m.nodup_price

omit [DecidableRel better] in
/-- After the removal of a price the listing holds the levels of the other prices. -/
lemma toList_removePrice (h : SideInv better m c) (p : Int64) :
    (c.removePrice p).1.toList = c.toList.filter (·.price ≠ p) := by
  rw [TopCache.toList_removePrice h.wf]
  exact eraseP_eq_filter h.view.ranked.nodup_keys p

omit [DecidableRel better] in
/-- The removal of a price that was not visible leaves the first five places alone. -/
lemma getElem?_removePrice (h : SideInv better m c) {p : Int64}
    (hp : ¬ (c.removePrice p).2 = true) : (c.removePrice p).1.toList[4]? = c.toList[4]? := by
  rw [TopCache.removePrice_snd] at hp
  have hfirst : (c.toList.take 5).filter (·.price ≠ p) = c.toList.take 5 := by
    refine List.filter_eq_self.mpr fun x hx => ?_
    simpa using fun hxp => hp ⟨x, hx, hxp⟩
  rw [h.toList_removePrice]
  conv_lhs => rw [← List.take_append_drop 5 c.toList, List.filter_append, hfirst]
  by_cases hlen : 4 < c.toList.length
  · rw [List.getElem?_append_left (by rw [List.length_take]; omega),
      List.getElem?_take_of_lt (by omega)]
  · rw [List.drop_of_length_le (by omega), List.filter_nil, List.append_nil,
      List.getElem?_take_of_lt (by omega)]

/-- **One level update keeps the view of a side**, although it may leave a hole in the cache or
put a level there that does not belong to the best 64. -/
theorem applyLevel (hvisit : ∀ l, (visit l).Perm l) (h : SideInv better m c) (l : Level) :
    SideInv better (applyLevel better visit l m c).1 (applyLevel better visit l m c).2 := by
  have hwf := TopCache.wf_removePrice h.wf l.price
  have hlist := h.toList_removePrice l.price
  have hsub : (c.removePrice l.price).1.toList.Sublist c.toList := hlist ▸ List.filter_sublist
  have hmem : ∀ x ∈ c.toList, x ∈ (c.removePrice l.price).1.toList ↔ x.price ≠ l.price := by
    intro x hx
    simp [hlist, hx]
  unfold LobCapture.applyLevel
  simp only
  split_ifs with hq hvis
  · -- a visible level is gone: the cache is rebuilt
    refine rebuild hvisit fun x hx => h.nonzero x ?_
    exact (PriceMap.mem_levels_erase.mp hx).1
  · -- nothing visible changes
    rw [not_or] at hvis
    refine ⟨hwf, ?_, fun x hx => h.nonzero x (PriceMap.mem_levels_erase.mp hx).1⟩
    exact h.view.erase (fun x => PriceMap.mem_levels_erase) hsub hmem
      (h.getElem?_removePrice hvis.1)
  · -- the level is put into the cache, wherever it ranks among the levels of the map
    refine ⟨TopCache.wf_upsert hwf l, ?_, fun x hx => ?_⟩
    · rw [TopCache.toList_upsert hwf (h.view.ranked.sublist hsub)]
      · exact h.view.insert (by omega) (fun x => PriceMap.mem_levels_insert) hsub hmem
      · intro hin
        obtain ⟨x, hx, hxl⟩ := List.mem_map.mp hin
        exact (hmem x (hsub.subset hx)).mp hx hxl
    · rcases PriceMap.mem_levels_insert.mp hx with rfl | ⟨hx', -⟩
      · exact hq
      · exact h.nonzero x hx'

/-- The places a row reads are those of the ranking of the map. -/
lemma getElem?_toList (h : SideInv better m c) {i : ℕ} (hi : i < 5) :
    c.toList[i]? = (ranking Level.price better m.levels)[i]? := by
  have htake := congrArg (·[i]?) (h.view.take_eq m.nodup_price)
  simpa [List.getElem?_take_of_lt hi] using htake

end SideInv

/-- The traversal order does not matter to one level update. -/
lemma applyLevel_visit {visit visit' : List Level → List Level}
    (h : ∀ l, (visit l).Perm l) (h' : ∀ l, (visit' l).Perm l) (l : Level) (m : PriceMap)
    (c : TopCache) : applyLevel better visit l m c = applyLevel better visit' l m c := by
  have hrebuild : TopCache.rebuild better visit (m.erase l.price) =
      TopCache.rebuild better visit' (m.erase l.price) := TopCache.rebuild_visit (h _) (h' _)
  unfold applyLevel
  simp only [hrebuild]

end Side

/-! ## The array after a rebuild -/

namespace TopCache

lemma ranking_betterBid (ls : List Level) :
    ranking Level.price betterBid ls = ls.insertionSort fun a b => b.price ≤ a.price := by
  have hnoWorse : NoWorse Level.price betterBid = fun a b => b.price ≤ a.price := by
    ext a b
    exact not_lt
  simp only [ranking, hnoWorse]

lemma ranking_betterAsk (ls : List Level) :
    ranking Level.price betterAsk ls = ls.insertionSort fun a b => a.price ≤ b.price := by
  have hnoWorse : NoWorse Level.price betterAsk = fun a b => a.price ≤ b.price := by
    ext a b
    exact not_lt
  simp only [ranking, hnoWorse]

/-- **A rebuild is a sort**: the bids from the highest price down, the asks from the lowest price
up, the first 64 of them, and then zeros, in whatever order the map is visited. -/
theorem rebuild_eq_sort {visit visit' : List Level → List Level} {m : PriceMap}
    (h : (visit m.levels).Perm m.levels) (h' : (visit' m.levels).Perm m.levels) :
    ((rebuildBid visit m).count = min 64 m.levels.length ∧
      (rebuildBid visit m).levels.toList =
        (m.levels.insertionSort fun a b => b.price ≤ a.price).take 64 ++
          List.replicate (64 - m.levels.length) ⟨0, 0⟩ ∧
      rebuildBid visit' m = rebuildBid visit m) ∧
    (rebuildAsk visit m).count = min 64 m.levels.length ∧
      (rebuildAsk visit m).levels.toList =
        (m.levels.insertionSort fun a b => a.price ≤ b.price).take 64 ++
          List.replicate (64 - m.levels.length) ⟨0, 0⟩ ∧
      rebuildAsk visit' m = rebuildAsk visit m := by
  rw [← ranking_betterBid, ← ranking_betterAsk]
  obtain ⟨hbids, hbidLevels⟩ := @rebuild_spec betterBid _ _ visit m h
  obtain ⟨hasks, haskLevels⟩ := @rebuild_spec betterAsk _ _ visit m h
  exact ⟨⟨hbids, hbidLevels, rebuild_visit h' h⟩, hasks, haskLevels, rebuild_visit h' h⟩

/-- Three levels, visited from the last to the first. -/
theorem rebuild_eq_sort_reverse :
    let m : PriceMap := ((AList.insert 5 50 ∅).insert 9 90).insert 7 70
    (rebuildBid List.reverse m).levels.toList =
        [⟨9, 90⟩, ⟨7, 70⟩, ⟨5, 50⟩] ++ List.replicate 61 ⟨0, 0⟩ ∧
      (rebuildAsk List.reverse m).levels.toList =
        [⟨5, 50⟩, ⟨7, 70⟩, ⟨9, 90⟩] ++ List.replicate 61 ⟨0, 0⟩ := by
  intro m
  have hvisit : (List.reverse m.levels).Perm m.levels := List.reverse_perm m.levels
  obtain ⟨⟨-, hbids, -⟩, -, hasks, -⟩ := rebuild_eq_sort hvisit hvisit
  exact ⟨hbids.trans (by decide), hasks.trans (by decide)⟩

end TopCache

/-! ## The book -/

namespace OrderBook

/-- What holds of a book between two operations. -/
structure Inv (b : OrderBook) : Prop where
  bids : SideInv betterBid b.bids b.bidCache
  asks : SideInv betterAsk b.asks b.askCache

lemma inv_new (id : Int32) : Inv { id := id } := ⟨SideInv.empty, SideInv.empty⟩

lemma seedMap_nonzero (levels : List Level) : ∀ l ∈ (seedMap levels).levels, l.qty ≠ 0 := by
  unfold seedMap
  induction levels using List.reverseRecOn with
  | nil => simp
  | append_singleton levels l ih =>
    rw [List.foldl_append, List.foldl_cons, List.foldl_nil]
    split_ifs with hq
    · intro x hx
      rcases PriceMap.mem_levels_insert.mp hx with rfl | ⟨hx', -⟩
      · exact hq
      · exact ih x hx'
    · exact ih

variable (t : Traversal) {b : OrderBook}

lemma inv_setSnapshot (bids asks : List Level) (S : UInt64) : Inv (b.setSnapshot t bids asks S) :=
  ⟨SideInv.rebuild (t.bids_perm 0) (seedMap_nonzero bids),
    SideInv.rebuild (t.asks_perm 0) (seedMap_nonzero asks)⟩

lemma Inv.applyLevels (h : b.Inv) (bids asks : List Level) : Inv (b.applyLevels t bids asks) := by
  have hbids : ∀ (ls : List (Level × ℕ)) (b : OrderBook), b.Inv →
      (ls.foldl (fun b x => b.applyBidLevel (t.bids x.2) x.1) b).Inv := by
    intro ls
    induction ls with
    | nil => exact fun b hb => hb
    | cons x ls ih => exact fun b hb => ih _ ⟨hb.bids.applyLevel (t.bids_perm x.2) x.1, hb.asks⟩
  have hasks : ∀ (ls : List (Level × ℕ)) (b : OrderBook), b.Inv →
      (ls.foldl (fun b x => b.applyAskLevel (t.asks x.2) x.1) b).Inv := by
    intro ls
    induction ls with
    | nil => exact fun b hb => hb
    | cons x ls ih => exact fun b hb => ih _ ⟨hb.bids, hb.asks.applyLevel (t.asks_perm x.2) x.1⟩
  exact hasks _ _ (hbids _ _ h)

lemma Inv.applyDiffSpot (h : b.Inv) (U u : UInt64) (bids asks : List Level) :
    Inv (b.applyDiffSpot t U u bids asks).2 := by
  have hl := h.applyLevels t bids asks
  unfold OrderBook.applyDiffSpot
  split_ifs
  · exact h
  · exact h
  · exact h
  · exact ⟨hl.bids, hl.asks⟩

lemma Inv.applyDiffUsdm (h : b.Inv) (U u pu : UInt64) (bids asks : List Level) :
    Inv (b.applyDiffUsdm t U u pu bids asks).2 := by
  have hl := h.applyLevels t bids asks
  unfold OrderBook.applyDiffUsdm
  split_ifs
  · exact h
  · exact h
  · exact h
  · exact h
  · exact ⟨hl.bids, hl.asks⟩

lemma inv_reset : Inv b.reset := ⟨SideInv.empty, SideInv.empty⟩

/-- The best levels of the full bid map, best first. -/
def bestBids (b : OrderBook) : List Level := ranking Level.price betterBid b.bids.levels

/-- The best levels of the full ask map, best first. -/
def bestAsks (b : OrderBook) : List Level := ranking Level.price betterAsk b.asks.levels

/-- The row that shows the best five levels of two listings, and zeros where there are fewer. -/
def topRow (id : Int32) (bids asks : List Level) : ObRow where
  id := id
  bid := .ofFn fun i => (bids[(i : ℕ)]?.map Level.price).getD 0
  bidSize := .ofFn fun i => (bids[(i : ℕ)]?.map Level.qty).getD 0
  ask := .ofFn fun i => (asks[(i : ℕ)]?.map Level.price).getD 0
  askSize := .ofFn fun i => (asks[(i : ℕ)]?.map Level.qty).getD 0

/-- **A fresh row shows the best five levels of the full maps.** -/
theorem fillTop5_eq (h : b.Inv) : b.fillTop5 {} = topRow b.id b.bestBids b.bestAsks := by
  have hbid : ∀ i : Fin 5, b.bestBids[(i : ℕ)]? =
      if (i : ℕ) < b.bidCache.count then some (b.bidCache.slot i) else none := fun i => by
    rw [← h.bids.wf.getElem?_toList, h.bids.getElem?_toList i.isLt, bestBids]
  have hask : ∀ i : Fin 5, b.bestAsks[(i : ℕ)]? =
      if (i : ℕ) < b.askCache.count then some (b.askCache.slot i) else none := fun i => by
    rw [← h.asks.wf.getElem?_toList, h.asks.getElem?_toList i.isLt, bestAsks]
  unfold fillTop5 topRow
  congr 2 <;> funext i <;> simp only [hbid, hask] <;> split <;> simp

/-! ### The traversal order -/

lemma applyBidLevel_visit {visit visit' : List Level → List Level} (h : ∀ l, (visit l).Perm l)
    (h' : ∀ l, (visit' l).Perm l) (l : Level) (b : OrderBook) :
    b.applyBidLevel visit l = b.applyBidLevel visit' l := by
  rw [applyBidLevel, applyBidLevel, LobCapture.applyLevel_visit h h']

lemma applyAskLevel_visit {visit visit' : List Level → List Level} (h : ∀ l, (visit l).Perm l)
    (h' : ∀ l, (visit' l).Perm l) (l : Level) (b : OrderBook) :
    b.applyAskLevel visit l = b.applyAskLevel visit' l := by
  rw [applyAskLevel, applyAskLevel, LobCapture.applyLevel_visit h h']

variable (t' : Traversal)

/-- No book operation depends on the order in which the hash maps are traversed. -/
theorem applyLevels_traversal (bids asks : List Level) (b : OrderBook) :
    b.applyLevels t bids asks = b.applyLevels t' bids asks := by
  have hbid : (fun (b : OrderBook) (x : Level × ℕ) => b.applyBidLevel (t.bids x.2) x.1)
      = fun b x => b.applyBidLevel (t'.bids x.2) x.1 := by
    ext b x : 2
    exact applyBidLevel_visit (t.bids_perm x.2) (t'.bids_perm x.2) x.1 b
  have hask : (fun (b : OrderBook) (x : Level × ℕ) => b.applyAskLevel (t.asks x.2) x.1)
      = fun b x => b.applyAskLevel (t'.asks x.2) x.1 := by
    ext b x : 2
    exact applyAskLevel_visit (t.asks_perm x.2) (t'.asks_perm x.2) x.1 b
  rw [OrderBook.applyLevels, OrderBook.applyLevels, hbid, hask]

theorem setSnapshot_traversal (bids asks : List Level) (S : UInt64) (b : OrderBook) :
    b.setSnapshot t bids asks S = b.setSnapshot t' bids asks S := by
  have hbids : TopCache.rebuildBid (t.bids 0) (seedMap bids)
      = TopCache.rebuildBid (t'.bids 0) (seedMap bids) :=
    TopCache.rebuild_visit (t.bids_perm 0 _) (t'.bids_perm 0 _)
  have hasks : TopCache.rebuildAsk (t.asks 0) (seedMap asks)
      = TopCache.rebuildAsk (t'.asks 0) (seedMap asks) :=
    TopCache.rebuild_visit (t.asks_perm 0 _) (t'.asks_perm 0 _)
  rw [setSnapshot, setSnapshot, hbids, hasks]

theorem applyDiffSpot_traversal (U u : UInt64) (bids asks : List Level) (b : OrderBook) :
    b.applyDiffSpot t U u bids asks = b.applyDiffSpot t' U u bids asks := by
  rw [OrderBook.applyDiffSpot, OrderBook.applyDiffSpot, applyLevels_traversal t t']

theorem applyDiffUsdm_traversal (U u pu : UInt64) (bids asks : List Level) (b : OrderBook) :
    b.applyDiffUsdm t U u pu bids asks = b.applyDiffUsdm t' U u pu bids asks := by
  rw [OrderBook.applyDiffUsdm, OrderBook.applyDiffUsdm, applyLevels_traversal t t']

end OrderBook

/-! ## Sequences of book operations -/

/-- A call of one of the mutating operations of a book. -/
inductive BookOp where
  | setSnapshot (bids asks : List Level) (snapshotLastUpdateId : UInt64)
  | applyDiffSpot (U u : UInt64) (bids asks : List Level)
  | applyDiffUsdm (U u pu : UInt64) (bids asks : List Level)
  | reset

/-- One operation, during which the hash maps are traversed in the given orders. -/
def BookOp.step (b : OrderBook) : BookOp × Traversal → OrderBook × Option ApplyResult
  | (.setSnapshot bids asks S, t) => (b.setSnapshot t bids asks S, none)
  | (.applyDiffSpot U u bids asks, t) =>
    let (r, b') := b.applyDiffSpot t U u bids asks
    (b', some r)
  | (.applyDiffUsdm U u pu bids asks, t) =>
    let (r, b') := b.applyDiffUsdm t U u pu bids asks
    (b', some r)
  | (.reset, _) => (b.reset, none)

lemma BookOp.inv_step (b : OrderBook) (x : BookOp × Traversal) (h : b.Inv) :
    (BookOp.step b x).1.Inv := by
  obtain ⟨op, t⟩ := x
  cases op with
  | setSnapshot bids asks S => exact OrderBook.inv_setSnapshot t bids asks S
  | applyDiffSpot U u bids asks => exact h.applyDiffSpot t U u bids asks
  | applyDiffUsdm U u pu bids asks => exact h.applyDiffUsdm t U u pu bids asks
  | reset => exact OrderBook.inv_reset

/-- **After every sequence of book operations**, and whatever the traversal orders were, a fresh
row shows the best five levels of the full maps, and neither the maps nor the caches hold a
zero quantity or a repeated price. -/
theorem BookOp.fillTop5_run (id : Int32) (ops : List (BookOp × Traversal)) :
    let b := (run BookOp.step { id := id } ops).1
    b.fillTop5 {} = OrderBook.topRow b.id b.bestBids b.bestAsks ∧
      (∀ ls ∈ [b.bids.levels, b.asks.levels, b.bidCache.toList, b.askCache.toList],
        (∀ l ∈ ls, l.qty ≠ 0) ∧ (ls.map Level.price).Nodup) := by
  intro b
  have h : b.Inv := run_invariant (OrderBook.inv_new id) BookOp.inv_step ops
  refine ⟨OrderBook.fillTop5_eq h, ?_⟩
  intro ls hls
  simp only [List.mem_cons, List.not_mem_nil, or_false] at hls
  rcases hls with rfl | rfl | rfl | rfl
  · exact ⟨h.bids.nonzero, b.bids.nodup_price⟩
  · exact ⟨h.asks.nonzero, b.asks.nodup_price⟩
  · exact ⟨fun l hl => h.bids.nonzero l (h.bids.view.subset l hl), h.bids.view.ranked.nodup_keys⟩
  · exact ⟨fun l hl => h.asks.nonzero l (h.asks.view.subset l hl), h.asks.view.ranked.nodup_keys⟩

end LobCapture
