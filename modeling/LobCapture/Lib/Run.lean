/-
# Runs of a step function

A component that is called again and again is a step function: it takes a state and an input
and gives the next state and a reply.  `run` feeds it a list of inputs and keeps the history,
the list of the inputs with the replies they got.  The rules of this file are the inductions
over runs: a property of history and state that every step preserves holds after every run
(`run_induction`), also when only some inputs are allowed in a state (`run_induction_of`).
-/
import Mathlib.Data.List.Induction

namespace LobCapture.Lib

variable {σ ι ω γ : Type*} (step : σ → ι → σ × ω)

/-- Feed the inputs one after the other. -/
def run : σ → List ι → σ × List (ι × ω)
  | s, [] => (s, [])
  | s, i :: is =>
    let (s', o) := step s i
    let (t, h) := run s' is
    (t, (i, o) :: h)

@[simp] lemma run_nil (s : σ) : run step s [] = (s, []) := rfl

@[simp] lemma run_cons (s : σ) (i : ι) (is : List ι) :
    run step s (i :: is) =
      ((run step (step s i).1 is).1, (i, (step s i).2) :: (run step (step s i).1 is).2) := rfl

lemma run_append (s : σ) (is js : List ι) :
    run step s (is ++ js) =
      ((run step (run step s is).1 js).1,
        (run step s is).2 ++ (run step (run step s is).1 js).2) := by
  induction is generalizing s with
  | nil => simp
  | cons i is ih => simp [ih]

lemma run_concat (s : σ) (is : List ι) (i : ι) :
    run step s (is ++ [i]) =
      ((step (run step s is).1 i).1, (run step s is).2 ++ [(i, (step (run step s is).1 i).2)]) := by
  simp [run_append]

/-- The history lists the inputs in the order in which they were fed. -/
lemma run_inputs (s : σ) (is : List ι) : (run step s is).2.map Prod.fst = is := by
  induction is generalizing s with
  | nil => rfl
  | cons i is ih => simp [ih]

/-- Every input of the run is allowed in the state that receives it. -/
def Allowed (ok : σ → ι → Prop) : σ → List ι → Prop
  | _, [] => True
  | s, i :: is => ok s i ∧ Allowed ok (step s i).1 is

variable {step}

instance allowedDecidable {ok : σ → ι → Prop} [∀ s i, Decidable (ok s i)] :
    (s : σ) → (is : List ι) → Decidable (Allowed step ok s is)
  | _, [] => .isTrue trivial
  | s, i :: is =>
    have : Decidable (Allowed step ok (step s i).1 is) := allowedDecidable _ is
    inferInstanceAs (Decidable (_ ∧ _))

lemma allowed_concat {ok : σ → ι → Prop} {s : σ} {is : List ι} {i : ι} :
    Allowed step ok s (is ++ [i]) ↔ Allowed step ok s is ∧ ok (run step s is).1 i := by
  induction is generalizing s with
  | nil => simp [Allowed]
  | cons j is ih => simp [Allowed, ih, and_assoc]

lemma allowed_of_forall {ok : ι → Prop} {s : σ} {is : List ι} (h : ∀ i ∈ is, ok i) :
    Allowed step (fun _ => ok) s is := by
  induction is generalizing s with
  | nil => trivial
  | cons i is ih => exact ⟨h i List.mem_cons_self, ih fun j hj => h j (List.mem_cons_of_mem _ hj)⟩

/-- What holds of the empty history and the first state and survives every allowed step holds
after every run of allowed inputs. -/
theorem run_induction_of {ok : σ → ι → Prop} {P : List (ι × ω) → σ → Prop} {s : σ} {is : List ι}
    (hall : Allowed step ok s is) (init : P [] s)
    (next : ∀ h t i, ok t i → P h t → P (h ++ [(i, (step t i).2)]) (step t i).1) :
    P (run step s is).2 (run step s is).1 := by
  induction is using List.reverseRecOn with
  | nil => exact init
  | append_singleton is i ih =>
    obtain ⟨hall, hi⟩ := allowed_concat.mp hall
    rw [run_concat]
    exact next _ _ _ hi (ih hall)

/-- What holds of the empty history and the first state and survives every step holds after
every run. -/
theorem run_induction {P : List (ι × ω) → σ → Prop} {s : σ} (init : P [] s)
    (next : ∀ h t i, P h t → P (h ++ [(i, (step t i).2)]) (step t i).1) (is : List ι) :
    P (run step s is).2 (run step s is).1 := by
  induction is using List.reverseRecOn with
  | nil => exact init
  | append_singleton is i ih =>
    rw [run_concat]
    exact next _ _ _ ih

/-- An invariant of the states alone. -/
theorem run_invariant {P : σ → Prop} {s : σ} (init : P s) (next : ∀ t i, P t → P (step t i).1)
    (is : List ι) : P (run step s is).1 :=
  run_induction (P := fun _ t => P t) init (fun _ t i => next t i) is

/-- What holds of every reply a step can give holds of the replies in the history. -/
lemma reply_of_mem_run {P : ι → ω → Prop} {is : List ι}
    (h : ∀ i ∈ is, ∀ s, P i (step s i).2) (s : σ) : ∀ x ∈ (run step s is).2, P x.1 x.2 := by
  induction is generalizing s with
  | nil => simp
  | cons i is ih =>
    rw [run_cons]
    intro x hx
    rcases List.mem_cons.mp hx with rfl | hx
    · exact h i List.mem_cons_self s
    · exact ih (fun j hj => h j (List.mem_cons_of_mem _ hj)) _ x hx

/-! ## Inputs that are translated first -/

variable {κ : Type*}

lemma run_map (f : κ → ι) (s : σ) (ks : List κ) :
    (run step s (ks.map f)).1 = (run (fun s k => step s (f k)) s ks).1 ∧
      (run step s (ks.map f)).2.map Prod.snd =
        (run (fun s k => step s (f k)) s ks).2.map Prod.snd := by
  induction ks generalizing s with
  | nil => exact ⟨rfl, rfl⟩
  | cons k ks ih =>
    obtain ⟨hstate, hreplies⟩ := ih (step s (f k)).1
    exact ⟨hstate, congrArg _ hreplies⟩

/-- Inputs that a step cannot tell apart lead to the same states and replies. -/
lemma run_congr {f : ι → κ} (hstep : ∀ s i j, f i = f j → step s i = step s j) (s : σ)
    {is js : List ι} (h : is.map f = js.map f) :
    (run step s is).1 = (run step s js).1 ∧
      (run step s is).2.map Prod.snd = (run step s js).2.map Prod.snd := by
  induction is generalizing s js with
  | nil =>
    rw [List.map_nil, eq_comm, List.map_eq_nil_iff] at h
    rw [h]
    exact ⟨rfl, rfl⟩
  | cons i is ih =>
    obtain ⟨j, js, rfl, hj, hjs⟩ := List.map_eq_cons_iff.mp h.symm
    obtain ⟨hstate, hreplies⟩ := ih (step s j).1 hjs.symm
    rw [run_cons, run_cons, hstep s i j hj.symm, List.map_cons, List.map_cons]
    exact ⟨hstate, congrArg _ hreplies⟩

variable (step) in
/-- The step function on inputs of another type, those without a translation being skipped. -/
def skipping (f : κ → Option ι) (s : σ) (k : κ) : σ × Option ω :=
  match f k with
  | none => (s, none)
  | some i => ((step s i).1, some (step s i).2)

/-- Leaving the skipped inputs out gives the run of the step function itself. -/
lemma run_skipping (f : κ → Option ι) (s : σ) (ks : List κ) :
    (run (skipping step f) s ks).1 = (run step s (ks.filterMap f)).1 ∧
      (run (skipping step f) s ks).2.filterMap Prod.snd =
        (run step s (ks.filterMap f)).2.map Prod.snd := by
  induction ks generalizing s with
  | nil => exact ⟨rfl, rfl⟩
  | cons k ks ih =>
    cases hf : f k with
    | none =>
      have hstep : skipping step f s k = (s, none) := by simp only [skipping, hf]
      rw [List.filterMap_cons_none hf, run_cons, hstep]
      exact ih s
    | some i =>
      have hstep : skipping step f s k = ((step s i).1, some (step s i).2) := by
        simp only [skipping, hf]
      rw [List.filterMap_cons_some hf, run_cons, run_cons, hstep]
      obtain ⟨hstate, hreplies⟩ := ih (step s i).1
      exact ⟨hstate, congrArg _ hreplies⟩

/-! ## A part of the state -/

section Part

variable {τ κ ρ : Type*} (step' : τ → κ → τ × ρ)

/-- A part of the state that only some inputs touch, and that goes through steps of its own on
them. -/
structure Part (step : σ → ι → σ × ω) (step' : τ → κ → τ × ρ) (part : σ → τ)
    (pick : ι → Option κ) : Prop where
  frame : ∀ s i, pick i = none → part (step s i).1 = part s
  own : ∀ s i k, pick i = some k → part (step s i).1 = (step' (part s) k).1

variable {step'}

/-- A part of a part. -/
lemma Part.trans {υ μ χ : Type*} {step'' : υ → μ → υ × χ} {part : σ → τ} {part' : τ → υ}
    {pick : ι → Option κ} {pick' : κ → Option μ} (h : Part step step' part pick)
    (h' : Part step' step'' part' pick') :
    Part step step'' (fun s => part' (part s)) fun i => (pick i).bind pick' where
  frame s i hi := by
    cases hk : pick i with
    | none => rw [h.frame s i hk]
    | some k =>
      rw [hk] at hi
      rw [h.own s i k hk]
      exact h'.frame _ k hi
  own s i m hi := by
    obtain ⟨k, hk, hm⟩ := Option.bind_eq_some_iff.mp hi
    rw [h.own s i k hk]
    exact h'.own _ k m hm

/-- The part depends on the inputs that touch it and on nothing else. -/
lemma Part.run_eq {part : σ → τ} {pick : ι → Option κ} (h : Part step step' part pick) (s : σ)
    (is : List ι) : part (run step s is).1 = (run step' (part s) (is.filterMap pick)).1 := by
  induction is generalizing s with
  | nil => rfl
  | cons i is ih =>
    rw [run_cons, ih]
    cases hk : pick i with
    | none => rw [h.frame s i hk, List.filterMap_cons_none hk]
    | some k => rw [h.own s i k hk, List.filterMap_cons_some hk, run_cons]

/-- The replies on the inputs that touch the part are those of its own run. -/
lemma Part.history {part : σ → τ} {pick : ι → Option κ} (h : Part step step' part pick)
    {g : ω → ρ} (hg : ∀ s i k, pick i = some k → g (step s i).2 = (step' (part s) k).2)
    (s : σ) (is : List ι) :
    ((run step s is).2.filterMap fun x => (pick x.1).map fun k => (k, g x.2)) =
      (run step' (part s) (is.filterMap pick)).2 := by
  induction is generalizing s with
  | nil => rfl
  | cons i is ih =>
    rw [run_cons]
    cases hk : pick i with
    | none =>
      rw [List.filterMap_cons_none (by simp [hk]), List.filterMap_cons_none hk, ih,
        h.frame s i hk]
    | some k =>
      rw [List.filterMap_cons_some (by rw [hk]; rfl), List.filterMap_cons_some hk, ih, run_cons,
        h.own s i k hk, hg s i k hk]

end Part

/-! ## Steps made of smaller steps -/

section Outputs

variable {α : Type*}

variable (step) in
/-- What the steps of a run give out, one after the other. -/
def outputs (out : σ → ι → List α) : σ → List ι → List α
  | _, [] => []
  | s, i :: is => out s i ++ outputs out (step s i).1 is

@[simp] lemma outputs_nil (out : σ → ι → List α) (s : σ) : outputs step out s [] = [] := rfl

@[simp] lemma outputs_cons (out : σ → ι → List α) (s : σ) (i : ι) (is : List ι) :
    outputs step out s (i :: is) = out s i ++ outputs step out (step s i).1 is := rfl

lemma outputs_append (out : σ → ι → List α) (s : σ) (is js : List ι) :
    outputs step out s (is ++ js) =
      outputs step out s is ++ outputs step out (run step s is).1 js := by
  induction is generalizing s with
  | nil => rfl
  | cons i is ih => simp [ih]

/-- What is made of the outputs, when it does not depend on the states. -/
lemma flatMap_outputs {β : Type*} {out : σ → ι → List α} {f : α → List β} {g : ι → List β}
    {is : List ι} (h : ∀ i ∈ is, ∀ s, (out s i).flatMap f = g i) (s : σ) :
    (outputs step out s is).flatMap f = is.flatMap g := by
  induction is generalizing s with
  | nil => rfl
  | cons i is ih =>
    rw [outputs_cons, List.flatMap_append, h i List.mem_cons_self s, List.flatMap_cons,
      ih fun j hj => h j (List.mem_cons_of_mem _ hj)]

lemma mem_outputs {out : σ → ι → List α} {a : α} {is : List ι} {s : σ}
    (h : a ∈ outputs step out s is) : ∃ i ∈ is, ∃ t, a ∈ out t i := by
  induction is generalizing s with
  | nil => exact absurd h List.not_mem_nil
  | cons i is ih =>
    rcases List.mem_append.mp h with h | h
    · exact ⟨i, List.mem_cons_self, s, h⟩
    · obtain ⟨j, hj, t, ht⟩ := ih h
      exact ⟨j, List.mem_cons_of_mem _ hj, t, ht⟩

/-- An output comes from a state that has what every step keeps. -/
lemma mem_outputs_of {P : σ → Prop} (hstep : ∀ s i, P s → P (step s i).1) {out : σ → ι → List α}
    {a : α} {is : List ι} {s : σ} (hs : P s) (h : a ∈ outputs step out s is) :
    ∃ i ∈ is, ∃ t, P t ∧ a ∈ out t i := by
  induction is generalizing s with
  | nil => exact absurd h List.not_mem_nil
  | cons i is ih =>
    rcases List.mem_append.mp h with h | h
    · exact ⟨i, List.mem_cons_self, s, hs, h⟩
    · obtain ⟨j, hj, t, ht⟩ := ih (hstep s i hs) h
      exact ⟨j, List.mem_cons_of_mem _ hj, t, ht⟩

/-- What relates a state to a run of smaller steps, given what is still to come, relates them
after the run; and each smaller step is what it should be. -/
lemma outputs_induction {τ κ ρ : Type*} {small : τ → κ → τ × ρ} {out : σ → ι → List κ}
    {R : List ι → σ → τ → Prop} {Q : κ × ρ → Prop}
    (next : ∀ i is s t, R (i :: is) s t → R is (step s i).1 (run small t (out s i)).1 ∧
      ∀ z ∈ (run small t (out s i)).2, Q z)
    {is : List ι} {s : σ} {t : τ} (init : R is s t) :
    R [] (run step s is).1 (run small t (outputs step out s is)).1 ∧
      ∀ z ∈ (run small t (outputs step out s is)).2, Q z := by
  induction is generalizing s t with
  | nil => exact ⟨init, by simp⟩
  | cons i is ih =>
    obtain ⟨hR, hQ⟩ := next i is s t init
    obtain ⟨hend, hrest⟩ := ih hR
    rw [run_cons, outputs_cons, run_append]
    refine ⟨hend, fun z hz => ?_⟩
    rcases List.mem_append.mp hz with hz | hz
    · exact hQ z hz
    · exact hrest z hz

end Outputs

/-! ## Inputs that have no effect on the others -/

section Silent

/-- A relation between a state of a run and a state of the run without some of the inputs, given
the inputs that are left: the silent ones keep it, and on the others both states reply the same. -/
structure Silences (step : σ → ι → σ × ω) (loud : ι → Prop) (R : List ι → σ → σ → Prop) : Prop where
  silent : ∀ i is s t, ¬ loud i → R (i :: is) s t → R is (step s i).1 t
  loud : ∀ i is s t, loud i → R (i :: is) s t →
    (step s i).2 = (step t i).2 ∧ R is (step s i).1 (step t i).1

/-- The replies to the loud inputs are those of a run without the silent ones. -/
lemma Silences.run_filter {loud : ι → Prop} [DecidablePred loud] {R : List ι → σ → σ → Prop}
    (h : Silences step loud R) {is : List ι} {s t : σ} (hR : R is s t) :
    ((run step s is).2.filter fun x => loud x.1) =
        (run step t (is.filter fun i => loud i)).2 ∧
      R [] (run step s is).1 (run step t (is.filter fun i => loud i)).1 := by
  induction is generalizing s t with
  | nil => exact ⟨rfl, hR⟩
  | cons i is ih =>
    by_cases hi : loud i
    · obtain ⟨hreply, hnext⟩ := h.loud i is s t hi hR
      obtain ⟨hrest, hend⟩ := ih hnext
      rw [run_cons, List.filter_cons_of_pos (by simpa using hi),
        List.filter_cons_of_pos (by simpa using hi), run_cons, hrest, hreply]
      exact ⟨rfl, hend⟩
    · obtain ⟨hrest, hend⟩ := ih (h.silent i is s t hi hR)
      rw [run_cons, List.filter_cons_of_neg (by simpa using hi),
        List.filter_cons_of_neg (by simpa using hi)]
      exact ⟨hrest, hend⟩

end Silent

/-! ## Auxiliary state -/

variable (step) in
/-- The step function with a second state beside the first, which is updated from what the step
sees and has no influence on it. -/
def besides (aux : γ → σ → ι → γ) (x : σ × γ) (i : ι) : (σ × γ) × ω :=
  (((step x.1 i).1, aux x.2 x.1 i), (step x.1 i).2)

/-- Forgetting the second state gives the run of the step function itself. -/
lemma run_besides (aux : γ → σ → ι → γ) (s : σ) (g : γ) (is : List ι) :
    (run (besides step aux) (s, g) is).1.1 = (run step s is).1 ∧
      (run (besides step aux) (s, g) is).2 = (run step s is).2 := by
  induction is generalizing s g with
  | nil => simp
  | cons i is ih => simp [besides, ih]

end LobCapture.Lib
