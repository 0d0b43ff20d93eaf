/-
# A short listing that shows the top of a collection

A cache that keeps some of the entries of a collection, best first, need not hold the best
of them throughout: it is enough that every entry it leaves out is worse than the entry it
shows in place `k`.  `TopView k all view` says this.  It is weak enough to survive the deletion
of an entry behind place `k` without a refill, and it still determines the first `k + 1`
places (`TopView.take_eq`).
-/
import LobCapture.Lib.Ranking

namespace LobCapture.Lib

variable {α κ : Type*} (key : α → κ) (better : κ → κ → Prop)

/-- `view` lists entries of `all`, best first, and what it leaves out is worse than its entry in
place `k`; in particular it leaves nothing out while it has at most `k` entries. -/
structure TopView (k : ℕ) (all view : List α) : Prop where
  ranked : Ranked key better view
  subset : ∀ x ∈ view, x ∈ all
  hidden : ∀ x ∈ all, x ∉ view → ∃ y, view[k]? = some y ∧ better (key y) (key x)

variable {key better} {k : ℕ} {all view : List α}

namespace TopView

lemma nil : TopView key better k [] [] := ⟨List.Pairwise.nil, by simp, by simp⟩

/-- Only membership in the collection matters. -/
lemma congr {all' : List α} (h : TopView key better k all view) (hall : ∀ x, x ∈ all' ↔ x ∈ all) :
    TopView key better k all' view :=
  ⟨h.ranked, fun x hx => (hall x).mpr (h.subset x hx), fun x hx => h.hidden x ((hall x).mp hx)⟩

/-- A short view leaves nothing out. -/
lemma mem_of_length_le (h : TopView key better k all view) (hc : view.length ≤ k) {x : α}
    (hx : x ∈ all) : x ∈ view := by
  by_contra hxc
  obtain ⟨y, hy, -⟩ := h.hidden x hx hxc
  rw [List.getElem?_eq_none hc] at hy
  exact absurd hy (by simp)

/-- Entries of one key can go from the collection and from the view together, as long as
place `k` shows what it showed before. -/
lemma erase {κ' : κ} {all' view' : List α} (h : TopView key better k all view)
    (hall : ∀ x, x ∈ all' ↔ x ∈ all ∧ key x ≠ κ') (hsub : view'.Sublist view)
    (hc : ∀ x ∈ view, x ∈ view' ↔ key x ≠ κ') (hk : view'[k]? = view[k]?) :
    TopView key better k all' view' := by
  refine ⟨h.ranked.sublist hsub, ?_, ?_⟩
  · intro x hx
    have hxc := hsub.subset hx
    exact (hall x).mpr ⟨h.subset x hxc, (hc x hxc).mp hx⟩
  · intro x hx hxc'
    obtain ⟨hxall, hxk⟩ := (hall x).mp hx
    rw [hk]
    exact h.hidden x hxall fun hxc => hxc' ((hc x hxc).mpr hxk)

variable [IsStrictTotalOrder κ better]

variable [DecidableRel better]

/-- The first `k + 1` places of a view are those of the ranking of the whole collection. -/
theorem take_eq (h : TopView key better k all view) (hn : (all.map key).Nodup) :
    view.take (k + 1) = (ranking key better all).take (k + 1) := by
  classical
  set top := view.take (k + 1) with htop
  set rest := all.filter fun x => x ∉ top with hrest
  have hnrest : (rest.map key).Nodup := hn.sublist (List.filter_sublist.map key)
  -- the entries of the collection are those shown in the first places and the others
  have hperm : (top ++ ranking key better rest).Perm all := by
    have hsub : (all.filter fun x => x ∈ top).Perm top := by
      refine (List.perm_ext_iff_of_nodup ((hn.of_map _).filter _) ?_).mpr fun x => ?_
      · exact (h.ranked.take (k + 1)).nodup_keys.of_map
      · simp only [List.mem_filter, decide_eq_true_eq, and_iff_right_iff_imp]
        exact fun hx => h.subset x (List.mem_of_mem_take hx)
    refine ((hsub.symm.append_right _).trans ((ranking_perm rest).append_left _)).trans ?_
    simpa [hrest] using List.filter_append_perm (fun x => decide (x ∈ top)) all
  have hranked : Ranked key better (top ++ ranking key better rest) := by
    refine List.pairwise_append.mpr ⟨h.ranked.take _, ranked_ranking hnrest, ?_⟩
    intro x hx y hy
    obtain ⟨hyall, hytop⟩ : y ∈ all ∧ y ∉ top := by
      simpa [hrest] using mem_ranking.mp hy
    by_cases hyc : y ∈ view
    · -- `y` is shown behind place `k`
      obtain ⟨i, hi⟩ := List.getElem?_of_mem hx
      obtain ⟨j, hj⟩ := List.getElem?_of_mem hyc
      rw [htop, List.getElem?_take] at hi
      split at hi
      · refine h.ranked.rel_of_lt hi hj (lt_of_lt_of_le ‹i < k + 1› (Nat.le_of_not_lt ?_))
        intro hjk
        exact hytop (List.mem_iff_getElem?.mpr ⟨j, by rw [htop, List.getElem?_take_of_lt hjk, hj]⟩)
      · exact absurd hi (by simp)
    · -- `y` is left out, so it is worse than place `k`
      obtain ⟨z, hz, hzy⟩ := h.hidden y hyall hyc
      rcases h.ranked.eq_or_better_of_mem_take hx hz with rfl | hxz
      · exact hzy
      · exact trans_of better hxz hzy
  have heq := hranked.eq_ranking hn hperm
  rw [← heq, List.take_append]
  by_cases hlen : view.length ≤ k
  · -- nothing is left out
    have hnil : rest = [] := by
      refine List.filter_eq_nil_iff.mpr fun x hx => ?_
      have hxc := h.mem_of_length_le hlen hx
      have : x ∈ top := by rwa [htop, List.take_of_length_le (by omega)]
      simpa using this
    simp [hnil, ranking, htop, List.take_take]
  · have hl : top.length = k + 1 := by rw [htop, List.length_take]; omega
    rw [hl, Nat.sub_self, List.take_zero, List.append_nil, List.take_of_length_le hl.le]

/-- The best `cap` entries of a collection are a view of it. -/
lemma of_ranking {cap : ℕ} (hk : k < cap) (hn : (all.map key).Nodup) :
    TopView key better k all ((ranking key better all).take cap) where
  ranked := (ranked_ranking hn).take cap
  subset _ hx := mem_ranking.mp (List.mem_of_mem_take hx)
  hidden _ hx hcut :=
    (ranked_ranking hn).exists_better_of_notMem_take hk (mem_ranking.mpr hx) hcut

/-- Putting an entry at its place keeps a view, whatever entry of its key was there before. -/
lemma insert {cap : ℕ} {a : α} {all' c₁ : List α} (h : TopView key better k all view) (hk : k < cap)
    (hall : ∀ x, x ∈ all' ↔ x = a ∨ x ∈ all ∧ key x ≠ key a) (hsub : c₁.Sublist view)
    (hc : ∀ x ∈ view, x ∈ c₁ ↔ key x ≠ key a) :
    TopView key better k all' (insertTop key better cap a c₁) := by
  set full := c₁.orderedInsert (NoWorse key better) a with hfull
  have hmem : ∀ x, x ∈ full ↔ x = a ∨ x ∈ c₁ := fun x => List.mem_orderedInsert _
  have ha : key a ∉ c₁.map key := by
    intro hmem'
    obtain ⟨x, hx, hxa⟩ := List.mem_map.mp hmem'
    exact (hc x (hsub.subset hx)).mp hx hxa
  have hr : Ranked key better full := ranked_orderedInsert (h.ranked.sublist hsub) ha
  refine ⟨hr.take cap, ?_, ?_⟩
  · intro x hx
    refine (hall x).mpr (((hmem x).mp (List.mem_of_mem_take hx)).imp_right fun hx₁ => ?_)
    have hxc := hsub.subset hx₁
    exact ⟨h.subset x hxc, (hc x hxc).mp hx₁⟩
  · intro x hx hxc
    by_cases hxf : x ∈ full
    · -- `x` was pushed out at the end
      exact hr.exists_better_of_notMem_take hk hxf hxc
    · -- `x` was left out before, behind the entry `y` that place `k` showed then
      rw [hmem, not_or] at hxf
      obtain ⟨hxall, hxk⟩ := ((hall x).mp hx).resolve_left hxf.1
      obtain ⟨y, hy, hyx⟩ := h.hidden x hxall fun hxc' => hxf.2 ((hc x hxc').mpr hxk)
      -- the keys shown in the first `k + 1` places are all still there
      have hkeys : ∀ x' ∈ view.take (k + 1), ∃ w ∈ full, key w = key x' := by
        intro x' hx'
        have hxc' := List.mem_of_mem_take hx'
        by_cases hka : key x' = key a
        · exact ⟨a, (hmem a).mpr (Or.inl rfl), hka.symm⟩
        · exact ⟨x', (hmem x').mpr (Or.inr ((hc x' hxc').mpr hka)), rfl⟩
      obtain ⟨z, hz, hyz⟩ := hr.place_of_keys h.ranked hy hkeys
      refine ⟨z, (List.getElem?_take_of_lt hk).trans hz, ?_⟩
      rcases trichotomous_of better (key y) (key z) with hlt | heq | hgt
      · exact absurd hlt hyz
      · exact heq ▸ hyx
      · exact trans_of better hgt hyx

end TopView

end LobCapture.Lib
