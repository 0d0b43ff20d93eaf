/-
# Two runs that share a queue

A producer makes attempts to obtain something, and the results are put into a queue.  Later a
consumer goes through the same inputs and takes the next element of the queue wherever the
producer made an attempt: the queue does not tell which of the attempts failed.  The two stay in
step exactly when nothing is obtained after a failure (`InStep.placed_iff`).
-/
import LobCapture.Lib.Run

namespace LobCapture.Lib

/-- What became of the attempt of a step, if it made one. -/
inductive Attempt (α : Type*) where
  | none
  | failed
  | ok (a : α)
deriving DecidableEq

variable {α σ τ ι ω υ : Type*}

def Attempt.result : Attempt α → Option α
  | .ok a => some a
  | _ => Option.none

/-- The queue that a sequence of attempts leaves. -/
def results (l : List (Attempt α)) : List α := l.filterMap Attempt.result

lemma results_eq_nil {l : List (Attempt α)} : results l = [] ↔ ∀ b ∈ l, b.result = none :=
  List.filterMap_eq_nil_iff

/-- Nothing is obtained after a failure. -/
def NoneAfterFailure (l : List (Attempt α)) : Prop :=
  l.Pairwise fun a b => a = .failed → b.result = none

instance noneAfterFailureDecidable [DecidableEq α] (l : List (Attempt α)) :
    Decidable (NoneAfterFailure l) :=
  inferInstanceAs (Decidable (List.Pairwise _ _))

lemma noneAfterFailure_cons {a : Attempt α} {l : List (Attempt α)} :
    NoneAfterFailure (a :: l) ↔ (a = .failed → results l = []) ∧ NoneAfterFailure l := by
  rw [NoneAfterFailure, List.pairwise_cons, results_eq_nil]
  constructor
  · rintro ⟨hhead, hrest⟩
    exact ⟨fun ha b hb => hhead b hb ha, hrest⟩
  · rintro ⟨hhead, hrest⟩
    exact ⟨fun b hb ha => hhead ha b hb, hrest⟩

lemma noneAfterFailure_of_results_eq_nil {l : List (Attempt α)} (h : results l = []) :
    NoneAfterFailure l :=
  List.pairwise_of_forall_mem_list fun _ _ b hb _ => results_eq_nil.mp h b hb

lemma noneAfterFailure_of_ne_failed {l : List (Attempt α)} (h : ∀ a ∈ l, a ≠ .failed) :
    NoneAfterFailure l :=
  List.pairwise_of_forall_mem_list fun a ha _ _ hf => absurd hf (h a ha)

/-! ## Places -/

/-- What the steps from the `n`-th on used, with the number of the step. -/
def placedFrom (n : ℕ) : List (Option α) → List (ℕ × α)
  | [] => []
  | none :: l => placedFrom (n + 1) l
  | some a :: l => (n, a) :: placedFrom (n + 1) l

/-- What the steps used, in order, with the number of the step. -/
def placed (l : List (Option α)) : List (ℕ × α) := placedFrom 0 l

lemma le_of_mem_placedFrom {l : List (Option α)} {n : ℕ} {x : ℕ × α} (h : x ∈ placedFrom n l) :
    n ≤ x.1 := by
  induction l generalizing n with
  | nil => simp [placedFrom] at h
  | cons a l ih =>
    cases a with
    | none =>
      have hle := ih h
      omega
    | some a =>
      rcases List.mem_cons.mp h with rfl | h
      · exact Nat.le_refl n
      · have hle := ih h
        omega

lemma placedFrom_eq_nil {l : List (Attempt α)} {n : ℕ} :
    placedFrom n (l.map Attempt.result) = [] ↔ results l = [] := by
  induction l generalizing n with
  | nil => exact ⟨fun _ => rfl, fun _ => rfl⟩
  | cons a l ih =>
    cases a with
    | none => exact ih
    | failed => exact ih
    | ok a => simp [placedFrom, results, Attempt.result]

/-- A step that used the same on both sides can be left out. -/
lemma placedFrom_prefix_cons {n : ℕ} {u : Option α} {l m : List (Option α)} :
    placedFrom n (u :: l) <+: placedFrom n (u :: m) ↔
      placedFrom (n + 1) l <+: placedFrom (n + 1) m := by
  cases u with
  | none => exact Iff.rfl
  | some a => exact List.prefix_cons_inj _

/-- What one side uses now the other side cannot use later. -/
lemma not_placedFrom_prefix_cons {n : ℕ} {a : α} {l m : List (Option α)}
    (h : placedFrom (n + 1) l ≠ []) :
    ¬ placedFrom (n + 1) l <+: placedFrom n (some a :: m) := by
  obtain ⟨x, l', hx⟩ := List.exists_cons_of_ne_nil h
  have hle : n + 1 ≤ x.1 := le_of_mem_placedFrom (hx ▸ List.mem_cons_self)
  intro hpre
  rw [hx, placedFrom] at hpre
  have hxa : x = (n, a) := (List.cons_prefix_cons.mp hpre).1
  rw [hxa] at hle
  omega

/-- A sequence is the beginning of another when each of its members stands at the same place in
the other. -/
lemma prefix_iff_forall {l m : List α} :
    l <+: m ↔ ∀ (k : ℕ) (x : α), l[k]? = some x → m[k]? = some x := by
  rw [List.prefix_iff_getElem?]
  constructor
  · intro h k x hx
    obtain ⟨hk, rfl⟩ := List.getElem?_eq_some_iff.mp hx
    exact h k hk
  · intro h k hk
    exact h k _ (List.getElem?_eq_getElem hk)

/-! ## Staying in step -/

/-- The attempts of a history. -/
def attempts (obtained : ω → Attempt α) (h : List (ι × ω)) : List (Attempt α) :=
  h.map fun x => obtained x.2

/-- The elements that the steps of a history used. -/
def uses (used : υ → Option α) (h : List (ι × υ)) : List (Option α) := h.map fun x => used x.2

/-- The consumer takes the next element where there was an attempt. -/
def Answers (a : Attempt α) (q : List α) (u : Option α) (q' : List α) : Prop :=
  match a with
  | .none => u = none ∧ q' = q
  | _ => u = q.head? ∧ q' = q.tail

lemma Answers.in_step {a : Attempt α} {l : List (Attempt α)} {u : Option α} {q' : List α}
    (h : Answers a (results (a :: l)) u q') (hl : a = .failed → results l = []) :
    u = a.result ∧ q' = results l := by
  cases a with
  | none => exact h
  | ok a => exact h
  | failed =>
    have hnil : results (.failed :: l) = [] := hl rfl
    obtain ⟨hu, hq'⟩ := h
    rw [hnil] at hu hq'
    exact ⟨hu, hq'.trans (hl rfl).symm⟩

/-- `R`, which may depend on the inputs that are left, holds of producer and consumer as long as
the consumer uses what the producer obtained. -/
structure InStep (p : σ → ι → σ × ω) (q : τ → ι → τ × υ) (obtained : ω → Attempt α)
    (used : υ → Option α) (queue : τ → List α) (R : List ι → σ → τ → Prop) : Prop where
  answers : ∀ s t i is, R (i :: is) s t →
    Answers (obtained (p s i).2) (queue t) (used (q t i).2) (queue (q t i).1)
  next : ∀ s t i is, R (i :: is) s t → used (q t i).2 = (obtained (p s i).2).result →
    R is (p s i).1 (q t i).1

namespace InStep

variable {p : σ → ι → σ × ω} {q : τ → ι → τ × υ} {obtained : ω → Attempt α}
  {used : υ → Option α} {queue : τ → List α} {R : List ι → σ → τ → Prop}

/-- When nothing is obtained after a failure, the consumer uses on every input what the producer
obtained on it. -/
theorem run_eq (h : InStep p q obtained used queue R) {is : List ι} {s : σ} {t : τ}
    (hR : R is s t) (hq : queue t = results (attempts obtained (run p s is).2))
    (hnone : NoneAfterFailure (attempts obtained (run p s is).2)) :
    uses used (run q t is).2 = (attempts obtained (run p s is).2).map Attempt.result ∧
      R [] (run p s is).1 (run q t is).1 := by
  induction is generalizing s t with
  | nil => exact ⟨rfl, hR⟩
  | cons i is ih =>
    obtain ⟨hhead, hnone⟩ := noneAfterFailure_cons.mp hnone
    have hans := h.answers s t i is hR
    rw [hq] at hans
    obtain ⟨hused, hqueue⟩ := hans.in_step hhead
    obtain ⟨huses, hend⟩ := ih (h.next s t i is hR hused) hqueue hnone
    exact ⟨congrArg₂ List.cons hused huses, hend⟩

/-- After a failure the consumer is ahead: it uses on that input what was obtained later. -/
lemma not_placedFrom_prefix (h : InStep p q obtained used queue R) {is : List ι} {s : σ} {t : τ}
    (hR : R is s t) (hq : queue t = results (attempts obtained (run p s is).2))
    (hnone : ¬ NoneAfterFailure (attempts obtained (run p s is).2)) (n : ℕ) :
    ¬ placedFrom n ((attempts obtained (run p s is).2).map Attempt.result) <+:
      placedFrom n (uses used (run q t is).2) := by
  induction is generalizing s t n with
  | nil => exact absurd List.Pairwise.nil hnone
  | cons i is ih =>
    have hans := h.answers s t i is hR
    rw [hq] at hans
    show ¬ placedFrom n ((obtained (p s i).2).result ::
          (attempts obtained (run p (p s i).1 is).2).map Attempt.result) <+:
        placedFrom n (used (q t i).2 :: uses used (run q (q t i).1 is).2)
    by_cases hhead : obtained (p s i).2 = .failed →
        results (attempts obtained (run p (p s i).1 is).2) = []
    · -- this step stays in step, and the failure is in the rest of the run
      obtain ⟨hused, hqueue⟩ := hans.in_step hhead
      rw [hused, placedFrom_prefix_cons]
      refine ih (h.next s t i is hR hused) hqueue (fun hrest => hnone ?_) (n + 1)
      exact noneAfterFailure_cons.mpr ⟨hhead, hrest⟩
    · -- this step fails, and the consumer takes what is obtained later
      obtain ⟨hfailed, hres⟩ := Classical.not_imp.mp hhead
      obtain ⟨a, l, hal⟩ := List.exists_cons_of_ne_nil hres
      have hused : used (q t i).2 = some a := by
        have hres' : results (attempts obtained (run p s (i :: is)).2) = a :: l := by
          rw [← hal]
          show results (obtained (p s i).2 :: _) = _
          rw [hfailed]
          rfl
        rw [hfailed] at hans
        exact hans.1.trans (congrArg List.head? hres')
      rw [hfailed, hused]
      exact not_placedFrom_prefix_cons fun hnil => hres (placedFrom_eq_nil.mp hnil)

/-- **In step, exactly when nothing is obtained after a failure.** -/
theorem placed_iff (h : InStep p q obtained used queue R) {is : List ι} {s : σ} {t : τ}
    (hR : R is s t) (hq : queue t = results (attempts obtained (run p s is).2)) :
    (∀ (k : ℕ) (x : ℕ × α),
        (placed ((attempts obtained (run p s is).2).map Attempt.result))[k]? = some x →
          (placed (uses used (run q t is).2))[k]? = some x) ↔
      NoneAfterFailure (attempts obtained (run p s is).2) := by
  rw [← prefix_iff_forall]
  constructor
  · intro hpre
    by_contra hnone
    exact h.not_placedFrom_prefix hR hq hnone 0 hpre
  · intro hnone
    have huses := (h.run_eq hR hq hnone).1
    exact huses ▸ List.prefix_rfl

end InStep

end LobCapture.Lib
