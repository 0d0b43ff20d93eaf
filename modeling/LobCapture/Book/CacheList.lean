/-
# The array cache as a bounded listing

The caches shift levels up and down a fixed array.  Read through `toList` they are listings of
at most 64 levels, and the two operations are the removal of one entry (`toList_removePrice`)
and, on a ranked listing without the price of the new level, the bounded insertion of
`Lib.Ranking` (`toList_upsert`).  A rebuild is then a sort, cut off at 64 levels, whatever the
order in which the map hands out its entries (`toList_rebuild`).
-/
import LobCapture.Book.OrderBook
import LobCapture.Lib.Ranking

namespace LobCapture

open Lib

namespace TopCache

/-- The number of levels in use fits the array and the other slots are zero. -/
structure WF (c : TopCache) : Prop where
  count_le : c.count ≤ 64
  zero : ∀ i, c.count ≤ i → c.slot i = ⟨0, 0⟩

lemma wf_clear : WF clear := by
  refine ⟨by simp [clear], fun i _ => ?_⟩
  simp [clear, slot, Vector.getD, Array.getD]

@[simp] lemma toList_clear : clear.toList = [] := rfl

lemma WF.length_toList {c : TopCache} (h : c.WF) : c.toList.length = c.count := by
  simp [toList, h.count_le]

/-- A place of the listing is a slot in use. -/
lemma WF.getElem?_toList {c : TopCache} (h : c.WF) (i : ℕ) :
    c.toList[i]? = if i < c.count then some (c.slot i) else none := by
  have := h.count_le
  rw [toList, List.getElem?_take]
  split
  · rw [List.getElem?_eq_getElem (by simp; omega)]
    simp [slot, Vector.getD, Array.getD, (by omega : i < 64)]
  · rfl

lemma WF.slot_eq_getD {c : TopCache} (h : c.WF) (i : ℕ) :
    c.slot i = c.toList[i]?.getD ⟨0, 0⟩ := by
  rw [h.getElem?_toList]
  split
  · rfl
  · exact h.zero i (by omega)

/-! ## The shifting loops -/

lemma getD_eq_getElem (a : Vector Level 64) {j : ℕ} (hj : j < 64) :
    a.getD j ⟨0, 0⟩ = a[j] := by
  simp [Vector.getD, Array.getD, hj]

/-- The whole array: the listing, and zeroed slots after it. -/
lemma WF.toList_levels {c : TopCache} (h : c.WF) :
    c.levels.toList = c.toList ++ List.replicate (64 - c.count) ⟨0, 0⟩ := by
  have hcount := h.count_le
  apply List.ext_getElem
  · rw [List.length_append, h.length_toList, List.length_replicate, Vector.length_toList]
    omega
  · intro i hi _
    rw [Vector.length_toList] at hi
    have hslot : c.levels.toList[i] = c.slot i := by
      rw [slot, getD_eq_getElem _ hi, Vector.getElem_toList]
    rw [hslot, List.getElem_append]
    split_ifs with hlt
    · have hget := h.getElem?_toList i
      rw [List.getElem?_eq_getElem hlt, if_pos (h.length_toList ▸ hlt)] at hget
      exact (Option.some.inj hget).symm
    · rw [List.getElem_replicate]
      exact h.zero i (h.length_toList ▸ not_lt.mp hlt)

lemma getD_setIfInBounds (a : Vector Level 64) {i : ℕ} (hi : i < 64) (j : ℕ) (x : Level) :
    (a.setIfInBounds i x).getD j ⟨0, 0⟩ = if i = j then x else a.getD j ⟨0, 0⟩ := by
  by_cases hj : j < 64
  · rw [getD_eq_getElem _ hj, getD_eq_getElem _ hj, Vector.getElem_setIfInBounds]
  · have : i ≠ j := by omega
    simp [Vector.getD, Array.getD, hj, this]

lemma getD_shiftDown (a : Vector Level 64) (i : ℕ) {count : ℕ} (hc : count ≤ 64) (j : ℕ) :
    (shiftDown a i count).getD j ⟨0, 0⟩ =
      if i ≤ j ∧ j + 1 < count then a.getD (j + 1) ⟨0, 0⟩ else a.getD j ⟨0, 0⟩ := by
  -- induction on the number `n` of iterations
  suffices h : ∀ n, i + 1 + n ≤ 64 → ∀ j,
      ((List.range' (i + 1) n).foldl
        (fun a j => a.setIfInBounds (j - 1) (a.getD j ⟨0, 0⟩)) a).getD j ⟨0, 0⟩ =
      if i ≤ j ∧ j < i + n then a.getD (j + 1) ⟨0, 0⟩ else a.getD j ⟨0, 0⟩ by
    unfold shiftDown
    by_cases hi : i + 1 ≤ count
    · rw [h _ (by omega)]
      congr 1
      simp only [eq_iff_iff]
      omega
    · rw [Nat.sub_eq_zero_of_le (by omega), List.range'_zero, List.foldl_nil, if_neg (by omega)]
  intro n
  induction n with
  | zero =>
    intro _ j
    rw [if_neg (by omega)]
    simp
  | succ n ih =>
    intro hn j
    rw [List.range'_1_concat, List.foldl_append, List.foldl_cons, List.foldl_nil,
      getD_setIfInBounds _ (by omega), ih (by omega), ih (by omega)]
    by_cases hj : i + 1 + n - 1 = j
    · rw [if_pos hj, if_neg (by omega), if_pos (by omega)]
      congr 1
      omega
    · rw [if_neg hj]
      congr 1
      simp only [eq_iff_iff]
      omega

lemma getD_shiftUp (a : Vector Level 64) (pos : ℕ) {limit : ℕ} (hl : limit < 64) (j : ℕ) :
    (shiftUp a pos limit).getD j ⟨0, 0⟩ =
      if pos < j ∧ j ≤ limit then a.getD (j - 1) ⟨0, 0⟩ else a.getD j ⟨0, 0⟩ := by
  -- induction on the number `n` of iterations, the first of which moves the last level
  suffices h : ∀ n, pos + n < 64 → ∀ (a : Vector Level 64) (j : ℕ),
      ((List.range' (pos + 1) n).reverse.foldl
        (fun a j => a.setIfInBounds j (a.getD (j - 1) ⟨0, 0⟩)) a).getD j ⟨0, 0⟩ =
      if pos < j ∧ j ≤ pos + n then a.getD (j - 1) ⟨0, 0⟩ else a.getD j ⟨0, 0⟩ by
    unfold shiftUp
    by_cases hp : pos ≤ limit
    · rw [h _ (by omega)]
      congr 1
      simp only [eq_iff_iff]
      omega
    · rw [Nat.sub_eq_zero_of_le (by omega), List.range'_zero, List.reverse_nil, List.foldl_nil,
        if_neg (by omega)]
  intro n
  induction n with
  | zero =>
    intro _ a j
    rw [if_neg (by omega)]
    simp
  | succ n ih =>
    intro hn a j
    rw [List.range'_1_concat, List.reverse_append, List.reverse_singleton, List.singleton_append,
      List.foldl_cons, ih (by omega), getD_setIfInBounds _ (by omega),
      getD_setIfInBounds _ (by omega)]
    by_cases hj : pos + 1 + n = j
    · rw [if_neg (by omega), if_pos hj, if_pos (by omega)]
      congr 1
      omega
    · rw [if_neg hj]
      split_ifs <;> first | rfl | omega

/-! ## Removing a level -/

lemma wf_removePrice {c : TopCache} (h : c.WF) (p : Int64) : (c.removePrice p).1.WF := by
  unfold removePrice
  split
  · rename_i i hi
    obtain ⟨hlt, -⟩ := List.findIdx?_eq_some_iff_getElem.mp hi
    rw [h.length_toList] at hlt
    have hc := h.count_le
    refine ⟨by simp only; omega, fun j hj => ?_⟩
    simp only at hj
    change (Vector.setIfInBounds _ _ _).getD j _ = _
    rw [getD_setIfInBounds _ (by omega), getD_shiftDown _ _ hc]
    split
    · rfl
    · rw [if_neg (by omega)]
      exact h.zero j (by omega)
  · exact h

/-- Removing a price erases its entry from the listing. -/
lemma toList_removePrice {c : TopCache} (h : c.WF) (p : Int64) :
    (c.removePrice p).1.toList = c.toList.eraseP (·.price == p) := by
  have hwf := wf_removePrice h p
  rw [List.eraseP_eq_eraseIdx]
  cases hfind : c.toList.findIdx? (·.price == p) with
  | none =>
    rw [removePrice, hfind]
  | some i =>
    obtain ⟨hlt, -⟩ := List.findIdx?_eq_some_iff_getElem.mp hfind
    have hlen := h.length_toList
    have hc := h.count_le
    apply List.ext_getElem?
    intro j
    rw [hwf.getElem?_toList, List.getElem?_eraseIdx, h.getElem?_toList, h.getElem?_toList]
    have hcount : (c.removePrice p).1.count = c.count - 1 := by rw [removePrice, hfind]
    have hslot : ∀ j, (c.removePrice p).1.slot j =
        ((shiftDown c.levels i c.count).setIfInBounds (c.count - 1) ⟨0, 0⟩).getD j ⟨0, 0⟩ := by
      intro j
      rw [removePrice, hfind]
      rfl
    rw [hcount, hslot, getD_setIfInBounds _ (by omega), getD_shiftDown _ _ hc]
    simp only [slot]
    split_ifs <;> first | rfl | omega

/-- The price was visible when it stood in one of the first five places. -/
lemma removePrice_snd (c : TopCache) (p : Int64) :
    (c.removePrice p).2 = true ↔ ∃ x ∈ c.toList.take 5, x.price = p := by
  unfold removePrice
  cases hfind : c.toList.findIdx? (·.price == p) with
  | none =>
    rw [List.findIdx?_eq_none_iff] at hfind
    simp only [Bool.false_eq_true, false_iff, not_exists, not_and]
    intro x hx hxp
    exact absurd hxp (by simpa using hfind x (List.mem_of_mem_take hx))
  | some i =>
    obtain ⟨hlt, hi, hbefore⟩ := List.findIdx?_eq_some_iff_getElem.mp hfind
    simp only [decide_eq_true_eq]
    constructor
    · intro hi5
      refine ⟨c.toList[i], List.mem_take_iff_getElem.mpr ⟨i, by omega, rfl⟩, by simpa using hi⟩
    · rintro ⟨x, hx, hxp⟩
      obtain ⟨j, hj, rfl⟩ := List.mem_take_iff_getElem.mp hx
      by_contra hi5
      exact hbefore j (by omega) (by simpa using hxp)

/-! ## Inserting a level -/

variable {better : Int64 → Int64 → Prop} [DecidableRel better]

/-- What an insertion does when the cache has room or the new level is better than the last. -/
lemma upsert_eq {c : TopCache} (h : c.WF) {l : Level}
    (hroom : ¬ (c.count = kTopCache ∧ ¬ better l.price (c.slot (kTopCache - 1)).price)) :
    c.upsert better l =
      ⟨(shiftUp c.levels (c.toList.findIdx fun x => ¬ better x.price l.price)
          (min c.count 63)).setIfInBounds (c.toList.findIdx fun x => ¬ better x.price l.price) l,
        min (c.count + 1) 64⟩ := by
  have hcount := h.count_le
  rw [upsert, if_neg hroom]
  change TopCache.mk _ (if c.count < 64 then _ else _) = _
  congr 1
  split <;> omega

variable [IsStrictTotalOrder Int64 better]

/-- The new level belongs in the array. -/
lemma findIdx_lt {c : TopCache} (h : c.WF) {l : Level}
    (hroom : ¬ (c.count = kTopCache ∧ ¬ better l.price (c.slot (kTopCache - 1)).price)) :
    (c.toList.findIdx fun x => ¬ better x.price l.price) ≤ min c.count 63 := by
  have hle : (c.toList.findIdx fun x => ¬ better x.price l.price) ≤ c.count := by
    rw [← h.length_toList]
    exact List.findIdx_le_length
  have hcount := h.count_le
  by_cases hfull : c.count = 64
  · have hlast : better l.price (c.slot 63).price := by
      by_contra hn
      exact hroom ⟨hfull, hn⟩
    have hget : c.toList[63]? = some (c.slot 63) := by rw [h.getElem?_toList, if_pos (by omega)]
    obtain ⟨hlen, hget⟩ := List.getElem?_eq_some_iff.mp hget
    by_contra hge
    have hbefore := @List.not_of_lt_findIdx _ (fun x => decide (¬ better x.price l.price))
      c.toList 63 (by omega)
    rw [hget] at hbefore
    exact asymm hlast (by simpa using hbefore)
  · omega

lemma wf_upsert {c : TopCache} (h : c.WF) (l : Level) : (c.upsert better l).WF := by
  by_cases hroom : c.count = kTopCache ∧ ¬ better l.price (c.slot (kTopCache - 1)).price
  · rwa [upsert, if_pos hroom]
  · have hpos := findIdx_lt h hroom
    have hcount := h.count_le
    rw [upsert_eq h hroom]
    refine ⟨by simp, fun i hi => ?_⟩
    simp only [slot] at hi ⊢
    rw [getD_setIfInBounds _ (by omega), if_neg (by omega), getD_shiftUp _ _ (by omega),
      if_neg (by omega)]
    exact h.zero i (by omega)

/-- On a ranked listing without the new price, an insertion is the bounded insertion. -/
theorem toList_upsert {c : TopCache} (h : c.WF) (hr : Ranked Level.price better c.toList)
    {l : Level} (hl : l.price ∉ c.toList.map Level.price) :
    (c.upsert better l).toList = insertTop Level.price better 64 l c.toList := by
  by_cases hroom : c.count = kTopCache ∧ ¬ better l.price (c.slot (kTopCache - 1)).price
  · -- the cache is full and stays as it is
    obtain ⟨hfull, hlast⟩ := hroom
    have hget : c.toList[63]? = some (c.slot 63) := by
      rw [h.getElem?_toList, if_pos (by rw [hfull]; decide)]
    have hne : (c.slot 63).price ≠ l.price := fun heq =>
      hl (heq ▸ List.mem_map_of_mem (List.mem_of_getElem? hget))
    have hbetter : better (c.slot 63).price l.price := by
      rcases trichotomous_of better (c.slot 63).price l.price with h' | h' | h'
      · exact h'
      · exact absurd h' hne
      · exact absurd h' hlast
    rw [upsert, if_pos ⟨hfull, hlast⟩, insertTop_of_full (by rw [h.length_toList, hfull]; rfl)]
    intro z hz
    have hz' : z ∈ c.toList.take (63 + 1) := by
      rwa [List.take_of_length_le (by rw [h.length_toList, hfull]; decide)]
    rcases hr.eq_or_better_of_mem_take hz' hget with rfl | hzl
    · exact hbetter
    · exact trans_of better hzl hbetter
  · have hpos := findIdx_lt h hroom
    have hcount := h.count_le
    have hwf : (c.upsert better l).WF := wf_upsert h l
    rw [insertTop, orderedInsert_eq_insertIdx]
    apply List.ext_getElem?
    intro j
    rw [hwf.getElem?_toList, List.getElem?_take, List.getElem?_insertIdx, h.getElem?_toList,
      h.getElem?_toList, h.length_toList, upsert_eq h hroom]
    simp only [slot]
    rw [getD_setIfInBounds _ (by omega), getD_shiftUp _ _ (by omega)]
    split_ifs <;> first | rfl | omega

end TopCache

end LobCapture
