/-
# Rankings of keyed entries

A finite collection of entries with pairwise different keys, together with a strict total
order that says which of two keys is better, has exactly one listing from best to worst.
This file sets up that listing (`ranking`), the insertion of one entry into a listing of
bounded length (`insertTop`), and the fact that inserting the entries one after the other,
in any order, leaves the best `cap` of them (`foldl_insertTop`).
-/
import Mathlib.Data.List.Induction
import Mathlib.Data.List.Sort
import Mathlib.Order.RelClasses

namespace LobCapture.Lib

variable {α κ : Type*} (key : α → κ) (better : κ → κ → Prop)

/-- Every entry is better than all the entries after it. -/
def Ranked (l : List α) : Prop := l.Pairwise fun a b => better (key a) (key b)

/-- The first entry does not rank below the second. -/
def NoWorse (a b : α) : Prop := ¬ better (key b) (key a)

instance [DecidableRel better] : DecidableRel (NoWorse key better) :=
  fun a b => inferInstanceAs (Decidable (¬ better (key b) (key a)))

/-- The entries of a collection, best first. -/
def ranking [DecidableRel better] (l : List α) : List α := l.insertionSort (NoWorse key better)

/-- Put an entry at its place in a listing and keep at most `cap` entries. -/
def insertTop [DecidableRel better] (cap : ℕ) (a : α) (l : List α) : List α :=
  (l.orderedInsert (NoWorse key better) a).take cap

variable {key better}

namespace Ranked

lemma sublist {l l' : List α} (h : Ranked key better l) (hs : l'.Sublist l) :
    Ranked key better l' := List.Pairwise.sublist hs h

lemma take {l : List α} (h : Ranked key better l) (n : ℕ) : Ranked key better (l.take n) :=
  h.sublist (List.take_sublist n l)

lemma rel_of_lt {l : List α} (h : Ranked key better l) {i j : ℕ} {x y : α}
    (hi : l[i]? = some x) (hj : l[j]? = some y) (hij : i < j) :
    better (key x) (key y) := by
  obtain ⟨hi', rfl⟩ := List.getElem?_eq_some_iff.mp hi
  obtain ⟨hj', rfl⟩ := List.getElem?_eq_some_iff.mp hj
  exact List.pairwise_iff_getElem.mp h i j hi' hj' hij

/-- An entry of the first `n + 1` places is the one in place `n` or better. -/
lemma eq_or_better_of_mem_take {l : List α} (h : Ranked key better l) {x y : α} {n : ℕ}
    (hx : x ∈ l.take (n + 1)) (hy : l[n]? = some y) : x = y ∨ better (key x) (key y) := by
  obtain ⟨i, hi⟩ := List.getElem?_of_mem hx
  rw [List.getElem?_take] at hi
  split at hi
  · rename_i hin
    rcases Nat.lt_or_eq_of_le (Nat.le_of_lt_succ hin) with hlt | rfl
    · exact Or.inr (h.rel_of_lt hi hy hlt)
    · rw [hy] at hi
      exact Or.inl (by simpa using hi.symm)
  · exact absurd hi (by simp)

/-- What a bounded listing cuts off ranks behind each of its places. -/
lemma exists_better_of_notMem_take {l : List α} (h : Ranked key better l) {k cap : ℕ}
    (hk : k < cap) {x : α} (hx : x ∈ l) (hcut : x ∉ l.take cap) :
    ∃ y, (l.take cap)[k]? = some y ∧ better (key y) (key x) := by
  obtain ⟨i, hi⟩ := List.getElem?_of_mem hx
  have hcap : cap ≤ i := by
    by_contra hlt
    exact hcut (List.mem_iff_getElem?.mpr
      ⟨i, by rw [List.getElem?_take_of_lt (Nat.lt_of_not_le hlt), hi]⟩)
  obtain ⟨hi', -⟩ := List.getElem?_eq_some_iff.mp hi
  have hkl : k < l.length := by omega
  refine ⟨l[k], ?_, h.rel_of_lt (List.getElem?_eq_getElem hkl) hi (by omega)⟩
  rw [List.getElem?_take_of_lt hk, List.getElem?_eq_getElem hkl]

end Ranked

/-- Entries with different keys, all of whose keys occur in `l'`. -/
lemma length_le_of_keys {l l' : List α} (hn : (l.map key).Nodup)
    (h : ∀ x ∈ l, ∃ w ∈ l', key w = key x) : l.length ≤ l'.length := by
  have hsubset : l.map key ⊆ l'.map key := by
    intro q hq
    obtain ⟨x, hx, rfl⟩ := List.mem_map.mp hq
    obtain ⟨w, hw, hwx⟩ := h x hx
    exact List.mem_map.mpr ⟨w, hw, hwx⟩
  simpa using (List.subperm_of_subset hn hsubset).length_le

/-- Erasing the entry of a key keeps exactly the entries of the other keys. -/
lemma eraseP_eq_filter [DecidableEq κ] {l : List α} (hn : (l.map key).Nodup) (q : κ) :
    l.eraseP (key · == q) = l.filter (key · ≠ q) := by
  induction l with
  | nil => rfl
  | cons a l ih =>
    rw [List.map_cons, List.nodup_cons] at hn
    by_cases ha : key a = q
    · have hall : ∀ x ∈ l, key x ≠ q := fun x hx hxq =>
        hn.1 (ha ▸ hxq ▸ List.mem_map_of_mem hx)
      rw [List.eraseP_cons_of_pos (by simpa using ha), List.filter_cons_of_neg (by simpa using ha)]
      exact (List.filter_eq_self.mpr fun x hx => by simpa using hall x hx).symm
    · rw [List.eraseP_cons_of_neg (by simpa using ha), List.filter_cons_of_pos (by simpa using ha),
        ih hn.2]

section Listing

variable [DecidableRel better]

lemma ranking_perm (l : List α) : (ranking key better l).Perm l := List.perm_insertionSort _ l

lemma mem_ranking {l : List α} {x : α} : x ∈ ranking key better l ↔ x ∈ l :=
  (ranking_perm l).mem_iff

/-- The place of a new entry is the first one whose entry is not better. -/
lemma orderedInsert_eq_insertIdx (a : α) (l : List α) :
    l.orderedInsert (NoWorse key better) a =
      l.insertIdx (l.findIdx fun x => ¬ better (key x) (key a)) a := by
  induction l with
  | nil => rfl
  | cons b l ih =>
    rw [List.orderedInsert_cons, List.findIdx_cons]
    by_cases hb : better (key b) (key a)
    · rw [if_neg fun h : NoWorse key better a b => h hb, ih]
      simp [hb]
    · rw [if_pos (show NoWorse key better a b from hb)]
      simp [hb]

/-- Dropping what lies beyond the bound before or after an insertion makes no difference. -/
lemma insertTop_take (cap : ℕ) (a : α) (l : List α) :
    insertTop key better cap a (l.take cap) = insertTop key better cap a l := by
  unfold insertTop
  induction l generalizing cap with
  | nil => simp
  | cons b l ih =>
    cases cap with
    | zero => simp
    | succ n =>
      simp only [List.take_succ_cons, List.orderedInsert_cons]
      split
      · cases n with
        | zero => simp
        | succ m => simp [List.take_take]
      · simp only [List.take_succ_cons, ih n]

/-- A full listing whose last entry is better than the new one stays as it is. -/
lemma insertTop_of_full {cap : ℕ} {a : α} {l : List α}
    (hl : l.length = cap) (hz : ∀ z ∈ l, better (key z) (key a)) :
    insertTop key better cap a l = l := by
  have happend : l.orderedInsert (NoWorse key better) a = l ++ [a] := by
    clear hl
    induction l with
    | nil => rfl
    | cons b l ih =>
      have hb : ¬ NoWorse key better a b := fun hab => hab (hz b (by simp))
      rw [List.orderedInsert_cons, if_neg hb, ih fun z hz' => hz z (by simp [hz'])]
      rfl
  rw [insertTop, happend, ← hl, List.take_left]

end Listing

variable [IsStrictTotalOrder κ better]

instance : Std.Total (NoWorse key better) where
  total a b := by
    by_contra h
    simp only [NoWorse, not_or, not_not] at h
    exact asymm h.1 h.2

instance : IsTrans α (NoWorse key better) where
  trans a b c hab hbc hca := by
    rcases trichotomous_of better (key a) (key b) with h | h | h
    · exact hbc (trans_of better hca h)
    · exact hbc (h ▸ hca)
    · exact hab h

lemma NoWorse.better_of_ne {a b : α} (h : NoWorse key better a b) (hne : key a ≠ key b) :
    better (key a) (key b) := by
  rcases trichotomous_of better (key a) (key b) with h' | h' | h'
  · exact h'
  · exact absurd h' hne
  · exact absurd h' h

lemma noWorse_of_better {a b : α} (h : better (key a) (key b)) : NoWorse key better a b :=
  fun h' => asymm h h'

/-- An entry better than the one in place `n` stands before place `n`. -/
lemma Ranked.mem_take_of_better {l : List α} (h : Ranked key better l) {w z : α} {n : ℕ}
    (hw : w ∈ l) (hz : l[n]? = some z) (hwz : better (key w) (key z)) : w ∈ l.take n := by
  obtain ⟨i, hi⟩ := List.getElem?_of_mem hw
  have hin : i < n := by
    by_contra hge
    rcases Nat.lt_or_eq_of_le (Nat.le_of_not_lt hge) with hlt | rfl
    · exact asymm (h.rel_of_lt hz hi hlt) hwz
    · rw [hz] at hi
      obtain rfl : z = w := by simpa using hi
      exact irrefl_of better _ hwz
  exact List.mem_iff_getElem?.mpr ⟨i, by rw [List.getElem?_take_of_lt hin, hi]⟩

lemma Ranked.nodup_keys {l : List α} (h : Ranked key better l) : (l.map key).Nodup := by
  refine List.pairwise_map.mpr (List.Pairwise.imp ?_ h)
  intro a b hab heq
  exact irrefl_of better (key b) (heq ▸ hab)

/-- A ranked list that has all the keys shown in the first `k + 1` places of another shows nothing
worse in place `k`. -/
lemma Ranked.place_of_keys {l view : List α} (h : Ranked key better l)
    (hview : Ranked key better view) {k : ℕ} {y : α} (hy : view[k]? = some y)
    (hkeys : ∀ x ∈ view.take (k + 1), ∃ w ∈ l, key w = key x) :
    ∃ z, l[k]? = some z ∧ ¬ better (key y) (key z) := by
  obtain ⟨hklen, -⟩ := List.getElem?_eq_some_iff.mp hy
  have hnodup : ((view.take (k + 1)).map key).Nodup := (hview.take (k + 1)).nodup_keys
  have hcount : (view.take (k + 1)).length = k + 1 := by
    rw [List.length_take]
    omega
  have hlen : k < l.length := by
    have hle := length_le_of_keys hnodup hkeys
    omega
  refine ⟨l[k], List.getElem?_eq_getElem hlen, fun hyk => ?_⟩
  -- if place `k` ranked below `y`, all those keys would fit in front of it
  have hfront : ∀ x ∈ view.take (k + 1), ∃ w ∈ l.take k, key w = key x := by
    intro x hx
    obtain ⟨w, hw, hwx⟩ := hkeys x hx
    refine ⟨w, h.mem_take_of_better hw (List.getElem?_eq_getElem hlen) ?_, hwx⟩
    rw [hwx]
    rcases hview.eq_or_better_of_mem_take hx hy with rfl | hxy
    · exact hyk
    · exact trans_of better hxy hyk
  have hle := length_le_of_keys hnodup hfront
  rw [hcount, List.length_take] at hle
  omega

lemma Ranked.sorted {l : List α} (h : Ranked key better l) : l.Pairwise (NoWorse key better) :=
  List.Pairwise.imp noWorse_of_better h

/-- A sorted listing without repeated keys is strictly ranked. -/
lemma ranked_of_sorted {l : List α} (hs : l.Pairwise (NoWorse key better))
    (hn : (l.map key).Nodup) : Ranked key better l :=
  hs.imp₂ (fun _ _ h hne => h.better_of_ne hne) (List.pairwise_map.mp hn)

/-- There is only one ranked listing of a collection. -/
lemma Ranked.eq_of_perm {l l' : List α} (h : Ranked key better l) (h' : Ranked key better l')
    (hp : l.Perm l') : l = l' :=
  List.Perm.eq_of_pairwise (fun _ _ _ _ hab hba => absurd hba (asymm hab)) h h' hp

variable [DecidableRel better]

/-! ## The ranking of a collection -/

lemma ranked_ranking {l : List α} (hn : (l.map key).Nodup) :
    Ranked key better (ranking key better l) :=
  ranked_of_sorted (List.pairwise_insertionSort _ l) (((ranking_perm l).map key).nodup_iff.mpr hn)

/-- A ranked listing of the collection is its ranking. -/
lemma Ranked.eq_ranking {l l' : List α} (h : Ranked key better l') (hn : (l.map key).Nodup)
    (hp : l'.Perm l) : l' = ranking key better l :=
  h.eq_of_perm (ranked_ranking hn) (hp.trans (ranking_perm l).symm)

/-- The ranking does not depend on the order in which the entries are given. -/
lemma ranking_congr {l l' : List α} (hn : (l.map key).Nodup) (hp : l.Perm l') :
    ranking key better l = ranking key better l' :=
  (ranked_ranking hn).eq_ranking ((hp.map key).nodup_iff.mp hn) ((ranking_perm l).trans hp)

/-! ## Bounded insertion -/

lemma ranked_orderedInsert {a : α} {l : List α} (h : Ranked key better l)
    (ha : key a ∉ l.map key) : Ranked key better (l.orderedInsert (NoWorse key better) a) := by
  refine ranked_of_sorted (h.sorted.orderedInsert a l) ?_
  rw [((List.perm_orderedInsert (NoWorse key better) a l).map key).nodup_iff, List.map_cons,
    List.nodup_cons]
  exact ⟨ha, h.nodup_keys⟩

/-- Inserting the entries one by one, in whatever order, leaves the best `cap` of them. -/
theorem foldl_insertTop {cap : ℕ} {l : List α} (hn : (l.map key).Nodup) :
    l.foldl (fun acc a => insertTop key better cap a acc) [] = (ranking key better l).take cap := by
  induction l using List.reverseRecOn with
  | nil => simp [ranking]
  | append_singleton l a ih =>
    rw [List.map_append, List.nodup_append] at hn
    have ha : key a ∉ (ranking key better l).map key := by
      rw [((ranking_perm l).map key).mem_iff]
      exact fun hmem => hn.2.2 _ hmem _ (by simp) rfl
    have hins : (ranking key better l).orderedInsert (NoWorse key better) a
        = ranking key better (l ++ [a]) := by
      refine (ranked_orderedInsert (ranked_ranking hn.1) ha).eq_ranking ?_ ?_
      · rw [List.map_append, List.nodup_append]
        exact hn
      · exact (List.perm_orderedInsert _ a _).trans
          (((ranking_perm l).cons a).trans (List.perm_append_singleton a l).symm)
    rw [List.foldl_append, List.foldl_cons, List.foldl_nil, ih hn.1, insertTop_take]
    rw [insertTop, hins]

end LobCapture.Lib
