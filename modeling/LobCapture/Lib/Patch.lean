/-
# Absolute patches of a versioned map

The state of a map is known at every version.  A patch lists keys with their values at the
version it leads to, and covers some of the versions before it: it lists every key that changed
at one of them.  Because the values are absolute, a patch may start before the version it is
applied to (`overwrite_eq`).
-/
import Mathlib.Data.Nat.Init
import Mathlib.Logic.Function.Basic

namespace LobCapture.Lib

variable {κ ν : Type*}

/-- `l` holds values of version `u`, and every key that changed at a version in `C`. -/
structure IsPatch (H : ℕ → κ → ν) (C : ℕ → Prop) (u : ℕ) (l : List (κ × ν)) : Prop where
  absolute : ∀ x ∈ l, x.2 = H u x.1
  covers : ∀ i k, C i → 0 < i → H i k ≠ H (i - 1) k → k ∈ l.map Prod.fst

/-- A key whose value differs between two versions changed at some version in between. -/
lemma exists_change {H : ℕ → κ → ν} {k : κ} {a u : ℕ} (hau : a ≤ u) (h : H a k ≠ H u k) :
    ∃ i, a < i ∧ i ≤ u ∧ H i k ≠ H (i - 1) k := by
  induction u, hau using Nat.le_induction with
  | base => exact absurd rfl h
  | succ u hau ih =>
    by_cases hlast : H (u + 1) k = H u k
    · obtain ⟨i, hai, hiu, hi⟩ := ih (hlast ▸ h)
      exact ⟨i, hai, Nat.le_trans hiu (Nat.le_succ u), hi⟩
    · exact ⟨u + 1, Nat.lt_succ_of_le hau, Nat.le_refl _, hlast⟩

variable [DecidableEq κ]

/-- Write the listed values, one after the other. -/
def overwrite (f : κ → ν) (l : List (κ × ν)) : κ → ν :=
  l.foldl (fun f x => Function.update f x.1 x.2) f

@[simp] lemma overwrite_nil (f : κ → ν) : overwrite f [] = f := rfl

@[simp] lemma overwrite_cons (f : κ → ν) (x : κ × ν) (l : List (κ × ν)) :
    overwrite f (x :: l) = overwrite (Function.update f x.1 x.2) l := rfl

/-- A loop that writes to a map of its state. -/
lemma foldl_eq_overwrite {σ ι : Type*} {f : σ → ι → σ} {m : σ → κ → ν} {g : ι → κ × ν}
    (h : ∀ s i, m (f s i) = Function.update (m s) (g i).1 (g i).2) (l : List ι) (s : σ) :
    m (l.foldl f s) = overwrite (m s) (l.map g) := by
  induction l generalizing s with
  | nil => rfl
  | cons i l ih =>
    rw [List.foldl_cons, ih, h, List.map_cons, overwrite_cons]

/-- Writing values of `g` to a map gives `g` when no difference is left out. -/
lemma overwrite_eq_of_forall {f g : κ → ν} {l : List (κ × ν)} (hval : ∀ x ∈ l, x.2 = g x.1)
    (hcov : ∀ k, f k ≠ g k → k ∈ l.map Prod.fst) : overwrite f l = g := by
  induction l generalizing f with
  | nil =>
    ext k
    by_contra hk
    simpa using hcov k hk
  | cons x l ih =>
    refine @ih (Function.update f x.1 x.2) (fun y hy => hval y (List.mem_cons_of_mem _ hy)) ?_
    intro k hk
    rcases eq_or_ne k x.1 with rfl | hne
    · rw [Function.update_self] at hk
      exact absurd (hval x List.mem_cons_self) hk
    · rw [Function.update_of_ne hne] at hk
      simpa [hne] using hcov k hk

/-- **Applying a patch** to any version behind which it covers everything gives the version it
leads to. -/
theorem IsPatch.overwrite_eq {H : ℕ → κ → ν} {C : ℕ → Prop} {a u : ℕ} {l : List (κ × ν)}
    (h : IsPatch H C u l) (hau : a ≤ u) (hC : ∀ i, a < i → i ≤ u → C i) :
    overwrite (H a) l = H u := by
  refine overwrite_eq_of_forall h.absolute ?_
  intro k hk
  obtain ⟨i, hai, hiu, hi⟩ := exists_change hau hk
  exact h.covers i k (hC i hai hiu) (by omega) hi

end LobCapture.Lib
