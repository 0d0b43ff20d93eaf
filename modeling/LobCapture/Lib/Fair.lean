/-
# Endless runs

A component that is never done takes one input after the other for ever.  Some of the inputs are
steps of parties that are not kept waiting for ever: a thread that is ready to go on goes on at
some time, a timer that is armed expires at some time.  Under this assumption, and whatever else
happens in between, a state with some property leads to one with another property as soon as a
rank can be given that no step raises and that the step of one party lowers (`Fair.leadsTo`).
-/
import LobCapture.Lib.Run
import Mathlib.Order.WellFounded

namespace LobCapture.Lib

variable {σ ι ω κ ρ : Type*} (step : σ → ι → σ × ω)

/-- The states of an endless run. -/
def states (s : σ) (e : ℕ → ι) : ℕ → σ
  | 0 => s
  | n + 1 => (step (states s e n) (e n)).1

/-- A party that is ready from some time on takes a step at some later time. -/
def Fair (party : ι → Option κ) (ready : κ → σ → Prop) (s : σ) (e : ℕ → ι) : Prop :=
  ∀ k n, (∀ m, n ≤ m → ready k (states step s e m)) → ∃ m, n ≤ m ∧ party (e m) = some k

variable {step} {s : σ} {e : ℕ → ι} {party : ι → Option κ} {ready : κ → σ → Prop}

/-- Up to any time, an endless run is a run. -/
lemma states_eq_run (n : ℕ) :
    states step s e n = (run step s ((List.range n).map e)).1 := by
  induction n with
  | zero => rfl
  | succ n ih =>
    rw [List.range_succ, List.map_append, run_append, ← ih]
    rfl

lemma states_invariant {P : σ → Prop} (init : P s) (h : ∀ s i, P s → P (step s i).1) (n : ℕ) :
    P (states step s e n) := by
  induction n with
  | zero => exact init
  | succ n ih => exact h _ _ ih

/-- What the inputs of an endless run keep, from some time on. -/
lemma states_stays {P : σ → Prop} {n : ℕ} (hn : P (states step s e n))
    (h : ∀ m, n ≤ m → P (states step s e m) → P (step (states step s e m) (e m)).1) :
    ∀ m, n ≤ m → P (states step s e m) := by
  intro m hm
  induction m, hm using Nat.le_induction with
  | base => exact hn
  | succ m hm ih => exact h m hm ih

/-- **A rank for a leads-to.** From some time on, in the states with `P` the helper `k` is ready,
its steps lower the rank `r` or reach `Q`, and no other step raises the rank or changes the
helper at the same rank. -/
theorem Fair.leadsTo [Preorder ρ] [WellFoundedLT ρ] (hfair : Fair step party ready s e)
    {P Q : σ → Prop} {r : σ → ρ} {k : σ → κ} {n : ℕ}
    (hready : ∀ s, P s → ¬ Q s → ready (k s) s)
    (hstep : ∀ m, n ≤ m → P (states step s e m) → ¬ Q (states step s e m) →
      let t := (step (states step s e m) (e m)).1
      Q t ∨ P t ∧ (r t < r (states step s e m) ∨
        r t = r (states step s e m) ∧ k t = k (states step s e m) ∧
          party (e m) ≠ some (k (states step s e m))))
    (hn : P (states step s e n)) : ∃ m, n ≤ m ∧ Q (states step s e m) := by
  by_contra hnever
  push Not at hnever
  have hnone : ∀ a l, n ≤ l → P (states step s e l) → r (states step s e l) = a → False := by
    intro a
    induction a using WellFoundedLT.induction with
    | ind a ih =>
      intro l hl hP ha
      -- the rank stays, and so does the helper, which never takes a step
      have hkeep : ∀ m, l ≤ m → P (states step s e m) ∧ r (states step s e m) = a ∧
          k (states step s e m) = k (states step s e l) := by
        refine states_stays (P := fun t => P t ∧ r t = a ∧ k t = k (states step s e l))
          ⟨hP, ha, rfl⟩ ?_
        rintro m hm ⟨hP, hrank, hhelper⟩
        rcases hstep m (hl.trans hm) hP (hnever m (hl.trans hm)) with hQ | ⟨hP', h⟩
        · exact absurd hQ (hnever (m + 1) (by omega))
        rcases h with hlt | ⟨heq, hsame, -⟩
        · exact (ih _ (hrank ▸ hlt) (m + 1) (by omega) hP' rfl).elim
        · exact ⟨hP', heq.trans hrank, hsame.trans hhelper⟩
      obtain ⟨m, hm, hparty⟩ := hfair (k (states step s e l)) l fun m hm =>
        (hkeep m hm).2.2 ▸ hready _ (hkeep m hm).1 (hnever m (hl.trans hm))
      obtain ⟨hP, hrank, hhelper⟩ := hkeep m hm
      rcases hstep m (hl.trans hm) hP (hnever m (hl.trans hm)) with hQ | ⟨hP', h⟩
      · exact absurd hQ (hnever (m + 1) (by omega))
      rcases h with hlt | ⟨-, -, hother⟩
      · exact ih _ (hrank ▸ hlt) (m + 1) (by omega) hP' rfl
      · exact hother (hhelper ▸ hparty)
  exact hnone _ n le_rfl hn rfl

end LobCapture.Lib
