/-
# Guarded reads and loops

A program that goes through a text by indices can read outside of the text, and it can go round
without an end.  Here both are outcomes of a run: reads are checked against the size of the text,
and a loop gets a number of rounds that it may not exceed.  A loop with an invariant and a measure
that goes down in every round ends without a fault, with as many rounds as the measure says and one
more (`loop_spec`).
-/
import LobCapture.Lib.Text

namespace LobCapture.Lib

/-- What can go wrong. -/
inductive Fault where
  | outOfBounds (i : ℕ)
  | badRange (start stop : ℕ)
  | outOfRounds
deriving DecidableEq

/-- The outcome of a checked run. -/
abbrev Guarded (α : Type) := Except Fault α

@[simp]
lemma ok_bind {α β : Type} (x : α) (f : α → Guarded β) : (Except.ok x : Guarded α) >>= f = f x :=
  rfl

/-! ## Reads -/

/-- `s[i]`, for an index below the size. -/
def readAt (s : Bytes) (i : ℕ) : Guarded UInt8 :=
  if i < s.length then .ok (s.getD i 0) else .error (.outOfBounds i)

/-- `s[i]`, for an index up to the size, where a string has a zero. -/
def peekAt (s : Bytes) (i : ℕ) : Guarded UInt8 :=
  if i ≤ s.length then .ok (s.getD i 0) else .error (.outOfBounds i)

/-- The characters from `start` up to `stop`. -/
def range (s : Bytes) (start stop : ℕ) : Guarded Bytes :=
  if start ≤ stop ∧ stop ≤ s.length then .ok ((s.drop start).take (stop - start))
  else .error (.badRange start stop)

section Reads

variable {s : Bytes} {i start stop : ℕ}

lemma readAt_eq (h : i < s.length) : readAt s i = .ok (s.getD i 0) := if_pos h

lemma peekAt_eq (h : i ≤ s.length) : peekAt s i = .ok (s.getD i 0) := if_pos h

lemma range_eq (h : start ≤ stop) (hstop : stop ≤ s.length) :
    range s start stop = .ok ((s.drop start).take (stop - start)) := if_pos ⟨h, hstop⟩

end Reads

/-! ## Loops -/

section Loops

variable {σ ρ : Type}

/-- A loop: its body goes on with a state, or leaves with a result. -/
def loop (body : σ → Guarded (σ ⊕ ρ)) : ℕ → σ → Guarded ρ
  | 0, _ => .error .outOfRounds
  | rounds + 1, x => do
    match ← body x with
    | .inl x => loop body rounds x
    | .inr r => .ok r

variable {body : σ → Guarded (σ ⊕ ρ)}

/-- **The rule for loops**: every round keeps the invariant and makes the measure smaller, or
leaves the loop. -/
theorem loop_spec {inv : σ → Prop} {measure : σ → ℕ} {post : ρ → Prop}
    (hbody : ∀ x, inv x → (∃ x', body x = .ok (.inl x') ∧ inv x' ∧ measure x' < measure x) ∨
      ∃ r, body x = .ok (.inr r) ∧ post r)
    {rounds : ℕ} {x : σ} (hx : inv x) (hrounds : measure x < rounds) :
    ∃ r, loop body rounds x = .ok r ∧ post r := by
  induction rounds generalizing x with
  | zero => exact absurd hrounds (Nat.not_lt_zero _)
  | succ rounds ih =>
    rcases hbody x hx with ⟨x', heq, hinv, hlt⟩ | ⟨r, heq, hpost⟩
    · rw [loop, heq, ok_bind]
      exact ih hinv (by omega)
    · exact ⟨r, by rw [loop, heq, ok_bind], hpost⟩

/-- A loop whose rounds do not change what it computes. -/
theorem loop_eq {f : σ → ρ} {inv : σ → Prop} {measure : σ → ℕ}
    (hbody : ∀ x, inv x →
      (∃ x', body x = .ok (.inl x') ∧ inv x' ∧ measure x' < measure x ∧ f x' = f x) ∨
        body x = .ok (.inr (f x)))
    {rounds : ℕ} {x : σ} (hx : inv x) (hrounds : measure x < rounds) :
    loop body rounds x = .ok (f x) := by
  have hstep : ∀ y, inv y ∧ f y = f x →
      (∃ y', body y = .ok (.inl y') ∧ (inv y' ∧ f y' = f x) ∧ measure y' < measure y) ∨
        ∃ r, body y = .ok (.inr r) ∧ r = f x := by
    rintro y ⟨hy, hfy⟩
    rcases hbody y hy with ⟨y', heq, hinv, hlt, hf⟩ | heq
    · exact .inl ⟨y', heq, ⟨hinv, hf.trans hfy⟩, hlt⟩
    · exact .inr ⟨_, heq, hfy⟩
  obtain ⟨r, heq, rfl⟩ := loop_spec hstep ⟨hx, rfl⟩ hrounds
  exact heq

end Loops

end LobCapture.Lib
