/-
# Reading at a position

The scanners of `json_min.cpp` go through a text by positions, but what they find at a position
depends only on the text from there on.  The lemmas here say what the primitives of the scanners
do at a position `p`, given the rest of the text `s.drop p`.
-/
import LobCapture.Capture.Json

namespace LobCapture

open Lib

variable {s a rest : Bytes} {c : UInt8} {p : ℕ} {f : UInt8 → Bool}

lemma drop_add_of_drop (h : s.drop p = a ++ rest) : s.drop (p + a.length) = rest := by
  rw [← List.drop_drop, h, List.drop_left]

lemma drop_succ_of_drop (h : s.drop p = c :: rest) : s.drop (p + 1) = rest := by
  rw [← List.drop_drop, h]
  rfl

lemma lt_length_of_drop (h : s.drop p = c :: rest) : p < s.length := by
  have hlen := congrArg List.length h
  rw [List.length_drop, List.length_cons] at hlen
  omega

/-- How much of the text is left at a position. -/
lemma length_of_drop (h : s.drop p = rest) (hp : p ≤ s.length) : s.length = p + rest.length := by
  have hlen := congrArg List.length h
  rw [List.length_drop] at hlen
  omega

lemma charAt_of_drop (h : s.drop p = c :: rest) : charAt s p = c := by
  have hget : (s.drop p)[0]? = some c := by rw [h]; rfl
  rw [List.getElem?_drop, Nat.add_zero] at hget
  rw [charAt, List.getD_eq_getElem?_getD, hget, Option.getD_some]

/-- A character other than the one that stands for the end of the text. -/
lemma drop_of_charAt (h : charAt s p = c) (hc : c ≠ 0) : s.drop p = c :: s.drop (p + 1) := by
  rw [charAt, List.getD_eq_getElem?_getD] at h
  cases hget : s[p]? with
  | none =>
    rw [hget] at h
    exact absurd h.symm hc
  | some d =>
    rw [hget, Option.getD_some] at h
    obtain ⟨hp, hd⟩ := List.getElem?_eq_some_iff.mp hget
    rw [List.drop_eq_getElem_cons hp, hd, h]

lemma slice_of_drop (h : s.drop p = a ++ rest) : slice s p (p + a.length) = a := by
  rw [slice, h, Nat.add_sub_cancel_left, List.take_left]

/-- The scan passes over `a` and stops at the next character, or at the end of the text. -/
lemma skipWhile_of_drop (h : s.drop p = a ++ rest) (ha : ∀ c ∈ a, f c = true)
    (hrest : ∀ c ∈ rest.head?, f c = false) : skipWhile s f p = p + a.length := by
  rw [skipWhile, h, List.takeWhile_append_of_pos ha]
  cases rest with
  | nil => simp
  | cons c rest =>
    rw [List.takeWhile_cons_of_neg (by simp [hrest c rfl]), List.append_nil]

/-- A scan that stops at once. -/
lemma skipWhile_of_head (h : s.drop p = c :: rest) (hc : f c = false) : skipWhile s f p = p :=
  skipWhile_of_drop (a := []) h (by simp) (by simpa using hc)

/-! ## Searching -/

/-- The next `c` is behind `a`. -/
lemma find_of_drop (h : s.drop p = a ++ c :: rest) (ha : c ∉ a) :
    find s [c] p = some (p + a.length) := by
  have hlen := lt_length_of_drop (drop_add_of_drop h)
  rw [find, List.find?_range'_eq_some]
  refine ⟨?_, List.mem_range'_1.mpr ⟨by omega, by omega⟩, ?_⟩
  · rw [drop_add_of_drop h]
    simp
  · intro j hpj hj
    -- a character of `a`
    obtain ⟨i, rfl⟩ := Nat.exists_eq_add_of_le hpj
    have hi : i < a.length := by omega
    have hget : s.drop (p + i) = a[i] :: (a.drop (i + 1) ++ c :: rest) := by
      rw [← List.drop_drop, h, List.drop_append_of_le_length hi.le, List.drop_eq_getElem_cons hi,
        List.cons_append]
    have hne : a[i] ≠ c := fun heq => ha (heq ▸ List.getElem_mem hi)
    simp [hget, List.isPrefixOf, hne.symm]

/-- There is no `c` any more. -/
lemma find_eq_none_of_drop (h : c ∉ s.drop p) : find s [c] p = none := by
  rw [find, List.find?_eq_none]
  intro j hj hpat
  obtain ⟨hpj, -⟩ := List.mem_range'_1.mp hj
  obtain ⟨t, ht⟩ := List.isPrefixOf_iff_prefix.mp hpat
  have hmem : c ∈ s.drop j := by
    rw [← ht]
    exact List.mem_cons_self
  exact h (List.drop_subset_drop_left s hpj hmem)

/-- A pattern that the text begins with behind `a`, and nowhere before. -/
lemma find_zero_of_append {pat : Bytes}
    (ha : ∀ i < a.length, ¬ pat <+: (a ++ (pat ++ rest)).drop i) :
    find (a ++ (pat ++ rest)) pat 0 = some a.length := by
  rw [find, List.find?_range'_eq_some]
  refine ⟨?_, List.mem_range'_1.mpr ⟨Nat.zero_le _, ?_⟩, ?_⟩
  · rw [List.drop_left]
    exact List.isPrefixOf_iff_prefix.mpr (List.prefix_append pat rest)
  · simp only [List.length_append]
    omega
  · intro j _ hj
    rw [Bool.not_eq_true', Bool.eq_false_iff]
    exact mt List.isPrefixOf_iff_prefix.mp (ha j hj)

end LobCapture
