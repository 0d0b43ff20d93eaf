/-
# Release and acquire

Threads that share atomic variables and plain cells.  A load of an atomic variable returns any of
its stores that is not older than one the thread knows of, so it may be out of date.  What makes
this bearable is that knowledge is handed over: a release store carries the view of its thread, and
an acquire load that returns it takes this view over.  A view says which stores are known of each
variable, and how many accesses to cells of each thread.

There is no meaning for an access to a cell while an access of another thread is not known, a data
race, and none here for a store by a thread that does not know the newest one, as it might come
before that one.  The memory records such a step (`Memory.undefined`).

The rules are about memories that are coherent (`Memory.Coherent`): who knows of a store knows what
it carries.  Acquire loads, release stores and accesses to cells keep this, and so do relaxed loads
of a variable whose newest store the thread knows.
-/
import Mathlib.Data.Fintype.Basic
import Mathlib.Order.Lattice
import Mathlib.Order.Basic
import Mathlib.Logic.Function.Basic

namespace LobCapture.Lib

set_option linter.unusedSectionVars false

/-! ## Views -/

/-- What a thread knows: the newest store of each variable, and the accesses of each thread. -/
structure View (α τ : Type*) where
  seen : α → ℕ := fun _ => 0
  known : τ → ℕ := fun _ => 0

namespace View

variable {α τ : Type*} {v w x : View α τ}

instance : Max (View α τ) := ⟨fun v w => ⟨v.seen ⊔ w.seen, v.known ⊔ w.known⟩⟩

instance : LE (View α τ) := ⟨fun v w => v.seen ≤ w.seen ∧ v.known ≤ w.known⟩

lemma seen_max (v w : View α τ) (a : α) : (max v w).seen a = max (v.seen a) (w.seen a) := rfl

lemma le_refl (v : View α τ) : v ≤ v := ⟨le_rfl, le_rfl⟩

lemma le_trans (h : v ≤ w) (h' : w ≤ x) : v ≤ x := ⟨h.1.trans h'.1, h.2.trans h'.2⟩

lemma le_max_left (v w : View α τ) : v ≤ max v w := ⟨le_sup_left, le_sup_left⟩

lemma le_max_right (v w : View α τ) : w ≤ max v w := ⟨le_sup_right, le_sup_right⟩

/-- The view after a store of the variable has become known. -/
def see [DecidableEq α] (v : View α τ) (a : α) (j : ℕ) : View α τ :=
  { v with seen := Function.update v.seen a (max (v.seen a) j) }

/-- The view after one more access of the thread. -/
def tick [DecidableEq τ] (v : View α τ) (t : τ) : View α τ :=
  { v with known := Function.update v.known t (v.known t + 1) }

section See

variable [DecidableEq α]

@[simp] lemma seen_see_self (v : View α τ) (a : α) (j : ℕ) :
    (v.see a j).seen a = max (v.seen a) j := by
  simp [see]

lemma seen_see_of_ne {a b : α} (h : b ≠ a) (v : View α τ) (j : ℕ) :
    (v.see a j).seen b = v.seen b := by
  simp [see, h]

lemma le_see (v : View α τ) (a : α) (j : ℕ) : v ≤ v.see a j := by
  refine ⟨fun b => ?_, le_rfl⟩
  by_cases hb : b = a
  · subst hb
    rw [seen_see_self]
    exact le_sup_left
  · rw [seen_see_of_ne hb]

end See

section Tick

variable [DecidableEq τ]

@[simp] lemma known_tick_self (v : View α τ) (t : τ) : (v.tick t).known t = v.known t + 1 := by
  simp [tick]

lemma le_tick (v : View α τ) (t : τ) : v ≤ v.tick t := by
  refine ⟨le_rfl, fun u => ?_⟩
  by_cases hu : u = t
  · subst hu
    rw [known_tick_self]
    exact Nat.le_succ _
  · simp [tick, hu]

end Tick

end View

/-! ## Variables, cells and the memory -/

/-- An atomic variable: its stores, the oldest first, each with the view that it carries. -/
structure Atomic (α τ ν : Type*) where
  store : ℕ → ν × View α τ
  last : ℕ := 0

/-- A plain cell, with the last accesses of each thread. -/
structure Cell (τ μ : Type*) where
  value : μ
  written : τ → ℕ := fun _ => 0
  read : τ → ℕ := fun _ => 0

/-- The memory that the threads share, and their views of it. -/
structure Memory (τ : Type*) {α κ : Type*} (ν : α → Type*) (μ : κ → Type*) where
  atomic : (a : α) → Atomic α τ (ν a)
  cell : (k : κ) → Cell τ (μ k)
  view : τ → View α τ := fun _ => {}
  /-- There was a step that has no meaning. -/
  undefined : Bool := false

section Plain

variable {α τ ν μ : Type*}

/-- A variable before the first store. -/
def Atomic.new (x : ν) : Atomic α τ ν where
  store _ := (x, {})

/-- The store that is loaded, when the `i`-th one is asked for. -/
def Atomic.pick (a : Atomic α τ ν) (seen i : ℕ) : ℕ := max seen (min i a.last)

/-- The variable after a store. -/
def Atomic.push (a : Atomic α τ ν) (x : ν) (v : View α τ) : Atomic α τ ν where
  store := Function.update a.store (a.last + 1) (x, v)
  last := a.last + 1

/-- All writes to the cell are known. -/
def Cell.ReadOk (c : Cell τ μ) (known : τ → ℕ) : Prop := ∀ t, c.written t ≤ known t

/-- All accesses to the cell are known. -/
def Cell.WriteOk (c : Cell τ μ) (known : τ → ℕ) : Prop :=
  ∀ t, c.written t ≤ known t ∧ c.read t ≤ known t

instance [Fintype τ] (c : Cell τ μ) (known : τ → ℕ) : Decidable (c.ReadOk known) :=
  inferInstanceAs (Decidable (∀ _, _))

instance [Fintype τ] (c : Cell τ μ) (known : τ → ℕ) : Decidable (c.WriteOk known) :=
  inferInstanceAs (Decidable (∀ _, _))

lemma Atomic.le_pick (a : Atomic α τ ν) (seen i : ℕ) : seen ≤ a.pick seen i := le_max_left _ _

lemma Atomic.pick_le {a : Atomic α τ ν} {seen : ℕ} (h : seen ≤ a.last) (i : ℕ) :
    a.pick seen i ≤ a.last := max_le h (min_le_right _ _)

lemma Atomic.pick_last (a : Atomic α τ ν) (i : ℕ) : a.pick a.last i = a.last :=
  max_eq_left (min_le_right _ _)

lemma Atomic.pick_eq_last {a : Atomic α τ ν} {seen i : ℕ} (h : seen ≤ a.last) (hi : a.last ≤ i) :
    a.pick seen i = a.last := by
  rw [pick, min_eq_right hi, max_eq_right h]

@[simp] lemma Atomic.last_push (a : Atomic α τ ν) (x : ν) (v : View α τ) :
    (a.push x v).last = a.last + 1 := rfl

@[simp] lemma Atomic.store_push_last (a : Atomic α τ ν) (x : ν) (v : View α τ) :
    (a.push x v).store (a.last + 1) = (x, v) := Function.update_self ..

/-- The stores before stay as they are. -/
lemma Atomic.store_push (a : Atomic α τ ν) (x : ν) (v : View α τ) {i : ℕ} (h : i ≤ a.last) :
    (a.push x v).store i = a.store i := Function.update_of_ne (by omega) ..

end Plain

namespace Memory

variable {τ α κ : Type*} {ν : α → Type*} {μ : κ → Type*}
variable [DecidableEq τ] [DecidableEq α] [DecidableEq κ]

section Operations

variable (m : Memory τ ν μ)

/-- The condition is required. -/
def check (ok : Prop) [Decidable ok] : Memory τ ν μ :=
  { m with undefined := m.undefined || !decide ok }

/-- A load that takes nothing over. -/
def loadRelaxed (t : τ) (a : α) (i : ℕ) : Memory τ ν μ × ν a :=
  let j := (m.atomic a).pick ((m.view t).seen a) i
  ({ m with view := Function.update m.view t ((m.view t).see a j) }, ((m.atomic a).store j).1)

/-- A load that takes over the view of the store. -/
def loadAcquire (t : τ) (a : α) (i : ℕ) : Memory τ ν μ × ν a :=
  let j := (m.atomic a).pick ((m.view t).seen a) i
  ({ m with
      view := Function.update m.view t ((max (m.view t) ((m.atomic a).store j).2).see a j) },
    ((m.atomic a).store j).1)

/-- A store that carries the view of its thread. -/
def storeRelease (t : τ) (a : α) (x : ν a) : Memory τ ν μ :=
  let v := (m.view t).see a ((m.atomic a).last + 1)
  { m.check ((m.view t).seen a = (m.atomic a).last) with
    atomic := Function.update m.atomic a ((m.atomic a).push x v)
    view := Function.update m.view t v }

def read [Fintype τ] (t : τ) (k : κ) : Memory τ ν μ × μ k :=
  let c := m.cell k
  let v := (m.view t).tick t
  ({ m.check (c.ReadOk (m.view t).known) with
      cell := Function.update m.cell k { c with read := Function.update c.read t (v.known t) }
      view := Function.update m.view t v },
    c.value)

/-- The cell gets a value that may depend on the one before. -/
def modify [Fintype τ] (t : τ) (k : κ) (f : μ k → μ k) : Memory τ ν μ :=
  let c := m.cell k
  let v := (m.view t).tick t
  { m.check (c.WriteOk (m.view t).known) with
    cell := Function.update m.cell k
      { c with
        value := f c.value
        written := Function.update c.written t (v.known t) }
    view := Function.update m.view t v }

/-- A thread waits for the end of another one. -/
def join (t u : τ) : Memory τ ν μ :=
  { m with view := Function.update m.view t (max (m.view t) (m.view u)) }

end Operations

/-! ## What an operation leaves alone -/

section Frame

variable {m : Memory τ ν μ} {t : τ} {a b : α} {k l : κ} {i : ℕ} {x : ν a} {f : μ k → μ k}

@[simp] lemma atomic_check {ok : Prop} [Decidable ok] : (m.check ok).atomic = m.atomic := rfl

@[simp] lemma cell_check {ok : Prop} [Decidable ok] : (m.check ok).cell = m.cell := rfl

@[simp] lemma view_check {ok : Prop} [Decidable ok] : (m.check ok).view = m.view := rfl

@[simp] lemma atomic_loadRelaxed : (m.loadRelaxed t a i).1.atomic = m.atomic := rfl

@[simp] lemma cell_loadRelaxed : (m.loadRelaxed t a i).1.cell = m.cell := rfl

@[simp] lemma undefined_loadRelaxed : (m.loadRelaxed t a i).1.undefined = m.undefined := rfl

@[simp] lemma atomic_loadAcquire : (m.loadAcquire t a i).1.atomic = m.atomic := rfl

@[simp] lemma cell_loadAcquire : (m.loadAcquire t a i).1.cell = m.cell := rfl

@[simp] lemma undefined_loadAcquire : (m.loadAcquire t a i).1.undefined = m.undefined := rfl

@[simp] lemma cell_storeRelease : (m.storeRelease t a x).cell = m.cell := rfl

@[simp] lemma atomic_join {u : τ} : (m.join t u).atomic = m.atomic := rfl

@[simp] lemma cell_join {u : τ} : (m.join t u).cell = m.cell := rfl

@[simp] lemma undefined_join {u : τ} : (m.join t u).undefined = m.undefined := rfl

lemma atomic_storeRelease_of_ne (h : b ≠ a) :
    (m.storeRelease t a x).atomic b = m.atomic b := Function.update_of_ne h ..

@[simp] lemma last_storeRelease :
    ((m.storeRelease t a x).atomic a).last = (m.atomic a).last + 1 := by
  simp [storeRelease]

lemma store_storeRelease (h : i ≤ (m.atomic a).last) :
    ((m.storeRelease t a x).atomic a).store i = (m.atomic a).store i := by
  simp [storeRelease, Atomic.store_push _ _ _ h]

/-- The new store carries the view of its thread. -/
@[simp] lemma store_storeRelease_last :
    ((m.storeRelease t a x).atomic a).store ((m.atomic a).last + 1) =
      (x, (m.storeRelease t a x).view t) := by
  simp [storeRelease]

section Cells

variable [Fintype τ]

@[simp] lemma atomic_read : (m.read t k).1.atomic = m.atomic := rfl

@[simp] lemma atomic_modify : (m.modify t k f).atomic = m.atomic := rfl

lemma cell_read_of_ne (h : l ≠ k) : (m.read t k).1.cell l = m.cell l := Function.update_of_ne h ..

lemma cell_modify_of_ne (h : l ≠ k) : (m.modify t k f).cell l = m.cell l :=
  Function.update_of_ne h ..

@[simp] lemma value_read : ((m.read t k).1.cell l).value = (m.cell l).value := by
  by_cases h : l = k
  · subst h
    simp [read]
  · rw [cell_read_of_ne h]

@[simp] lemma written_read : ((m.read t k).1.cell l).written = (m.cell l).written := by
  by_cases h : l = k
  · subst h
    simp [read]
  · rw [cell_read_of_ne h]

@[simp] lemma value_modify : ((m.modify t k f).cell k).value = f (m.cell k).value := by
  simp [modify]

@[simp] lemma read_modify : ((m.modify t k f).cell l).read = (m.cell l).read := by
  by_cases h : l = k
  · subst h
    simp [modify]
  · rw [cell_modify_of_ne h]

lemma read_read_of_ne {u : τ} (h : u ≠ t) :
    ((m.read t k).1.cell l).read u = (m.cell l).read u := by
  by_cases hl : l = k
  · subst hl
    simp [read, h]
  · rw [cell_read_of_ne hl]

lemma written_modify_of_ne {u : τ} (h : u ≠ t) :
    ((m.modify t k f).cell l).written u = (m.cell l).written u := by
  by_cases hl : l = k
  · subst hl
    simp [modify, h]
  · rw [cell_modify_of_ne hl]

end Cells

end Frame

/-! ## Steps that have a meaning -/

section Defined

variable {m : Memory τ ν μ} {t : τ} {a : α} {k : κ} {x : ν a} {f : μ k → μ k}

lemma undefined_check {ok : Prop} [Decidable ok] (h : m.undefined = false) (hok : ok) :
    (m.check ok).undefined = false := by
  simp [check, h, hok]

lemma undefined_storeRelease (h : m.undefined = false)
    (hnewest : (m.view t).seen a = (m.atomic a).last) :
    (m.storeRelease t a x).undefined = false := undefined_check h hnewest

lemma undefined_read [Fintype τ] (h : m.undefined = false)
    (hok : (m.cell k).ReadOk (m.view t).known) : (m.read t k).1.undefined = false :=
  undefined_check h hok

lemma undefined_modify [Fintype τ] (h : m.undefined = false)
    (hok : (m.cell k).WriteOk (m.view t).known) : (m.modify t k f).undefined = false :=
  undefined_check h hok

end Defined

/-! ## Knowledge grows -/

section Grows

variable {m : Memory τ ν μ} {t u : τ} {a : α} {i : ℕ} {x : ν a}

lemma view_le_update {v : View α τ} (h : m.view t ≤ v) (u : τ) :
    m.view u ≤ Function.update m.view t v u := by
  by_cases hu : u = t
  · subst hu
    rwa [Function.update_self]
  · rw [Function.update_of_ne hu]
    exact View.le_refl _

lemma view_le_loadRelaxed (u : τ) : m.view u ≤ (m.loadRelaxed t a i).1.view u :=
  view_le_update (View.le_see ..) u

lemma view_le_loadAcquire (u : τ) : m.view u ≤ (m.loadAcquire t a i).1.view u :=
  view_le_update (View.le_trans (View.le_max_left ..) (View.le_see ..)) u

lemma view_le_storeRelease (u : τ) : m.view u ≤ (m.storeRelease t a x).view u :=
  view_le_update (View.le_see ..) u

lemma view_le_join {t' : τ} (u : τ) : m.view u ≤ (m.join t t').view u :=
  view_le_update (View.le_max_left ..) u

lemma view_le_read [Fintype τ] {k : κ} (u : τ) : m.view u ≤ (m.read t k).1.view u :=
  view_le_update (View.le_tick ..) u

lemma view_le_modify [Fintype τ] {k : κ} {f : μ k → μ k} (u : τ) :
    m.view u ≤ (m.modify t k f).view u :=
  view_le_update (View.le_tick ..) u

/-- Who knows the newest store loads it. -/
lemma loadRelaxed_of_newest (h : (m.view t).seen a = (m.atomic a).last) :
    (m.loadRelaxed t a i).2 = ((m.atomic a).store (m.atomic a).last).1 := by
  simp only [loadRelaxed, h, Atomic.pick_last]

lemma loadAcquire_of_newest (h : (m.view t).seen a = (m.atomic a).last) :
    (m.loadAcquire t a i).2 = ((m.atomic a).store (m.atomic a).last).1 := by
  simp only [loadAcquire, h, Atomic.pick_last]

/-- The newest store is loaded if it is asked for. -/
lemma loadRelaxed_of_le (h : (m.view t).seen a ≤ (m.atomic a).last) (hi : (m.atomic a).last ≤ i) :
    (m.loadRelaxed t a i).2 = ((m.atomic a).store (m.atomic a).last).1 := by
  simp only [loadRelaxed, Atomic.pick_eq_last h hi]

lemma loadAcquire_of_le (h : (m.view t).seen a ≤ (m.atomic a).last) (hi : (m.atomic a).last ≤ i) :
    (m.loadAcquire t a i).2 = ((m.atomic a).store (m.atomic a).last).1 := by
  simp only [loadAcquire, Atomic.pick_eq_last h hi]

/-- What the other thread knew is known after it has been waited for. -/
lemma le_view_join : m.view u ≤ (m.join t u).view t := by
  simp only [join, Function.update_self]
  exact View.le_max_right ..

end Grows

/-! ## Coherent memories -/

/-- The newest store that is known of the variable is there, and what it carries is known. -/
def Within (m : Memory τ ν μ) (v : View α τ) : Prop :=
  ∀ a, v.seen a ≤ (m.atomic a).last ∧ ((m.atomic a).store (v.seen a)).2 ≤ v

/-- Who knows of a store knows what it carries, and a thread knows of its accesses. -/
structure Coherent (m : Memory τ ν μ) : Prop where
  view : ∀ t, m.Within (m.view t)
  store : ∀ a, ∀ i ≤ (m.atomic a).last, m.Within ((m.atomic a).store i).2
  written_le : ∀ t k, (m.cell k).written t ≤ (m.view t).known t
  read_le : ∀ t k, (m.cell k).read t ≤ (m.view t).known t

section Coherent

variable {m : Memory τ ν μ} {t u : τ} {a : α} {i : ℕ} {x : ν a} {v w : View α τ}

lemma Within.max (hv : m.Within v) (hw : m.Within w) : m.Within (max v w) := by
  intro a
  rw [View.seen_max]
  rcases le_total (v.seen a) (w.seen a) with h | h
  · rw [max_eq_right h]
    exact ⟨(hw a).1, View.le_trans (hw a).2 (View.le_max_right ..)⟩
  · rw [max_eq_left h]
    exact ⟨(hv a).1, View.le_trans (hv a).2 (View.le_max_left ..)⟩

lemma Within.see (hv : m.Within v) {j : ℕ} (hj : j ≤ (m.atomic a).last)
    (hstore : ((m.atomic a).store j).2 ≤ v) : m.Within (v.see a j) := by
  have hle := View.le_see v a j
  intro b
  by_cases hb : b = a
  · subst hb
    rw [View.seen_see_self]
    rcases le_total (v.seen b) j with h | h
    · rw [max_eq_right h]
      exact ⟨hj, View.le_trans hstore hle⟩
    · rw [max_eq_left h]
      exact ⟨(hv b).1, View.le_trans (hv b).2 hle⟩
  · rw [View.seen_see_of_ne hb]
    exact ⟨(hv b).1, View.le_trans (hv b).2 hle⟩

lemma Within.tick (hv : m.Within v) (t : τ) : m.Within (v.tick t) := fun a =>
  ⟨(hv a).1, View.le_trans (hv a).2 (View.le_tick v t)⟩

/-- Another store does not matter to those who do not know of it. -/
lemma Within.storeRelease (hv : m.Within v) : (m.storeRelease t a x).Within v := by
  intro b
  by_cases hb : b = a
  · subst hb
    rw [last_storeRelease, store_storeRelease (hv b).1]
    exact ⟨(hv b).1.trans (Nat.le_succ _), (hv b).2⟩
  · rw [atomic_storeRelease_of_ne hb]
    exact hv b

/-- The memory before any store and any access. -/
lemma Coherent.new {m : Memory τ ν μ} (hstore : ∀ a, (m.atomic a).last = 0)
    (hview : ∀ a, ((m.atomic a).store 0).2 = {}) (ht : ∀ t, m.view t = {})
    (hcell : ∀ k, (m.cell k).written = fun _ => 0) (hread : ∀ k, (m.cell k).read = fun _ => 0) :
    m.Coherent := by
  have hempty : m.Within {} := fun a => ⟨Nat.zero_le _, by rw [hview a]; exact View.le_refl _⟩
  refine ⟨fun t => by rw [ht]; exact hempty, fun a i hi => ?_, fun t k => ?_, fun t k => ?_⟩
  · rw [hstore a, Nat.le_zero] at hi
    subst hi
    rw [hview]
    exact hempty
  · rw [hcell]
    exact Nat.zero_le _
  · rw [hread]
    exact Nat.zero_le _

/-- A thread gets to know more. -/
lemma Coherent.update_view (h : m.Coherent) (hle : m.view t ≤ v) (hv : m.Within v) :
    Coherent { m with view := Function.update m.view t v } where
  view u := by
    by_cases hu : u = t
    · subst hu
      simp only [Function.update_self]
      exact hv
    · simp only [Function.update_of_ne hu]
      exact h.view u
  store := h.store
  written_le u k := (h.written_le u k).trans ((view_le_update hle u).2 u)
  read_le u k := (h.read_le u k).trans ((view_le_update hle u).2 u)

lemma Coherent.check (h : m.Coherent) {ok : Prop} [Decidable ok] : (m.check ok).Coherent :=
  ⟨h.view, h.store, h.written_le, h.read_le⟩

/-- A relaxed load of a variable whose newest store is known. -/
lemma Coherent.loadRelaxed (h : m.Coherent) (hnewest : (m.view t).seen a = (m.atomic a).last) :
    (m.loadRelaxed t a i).1.Coherent := by
  refine h.update_view (View.le_see ..) ((h.view t).see (Atomic.pick_le (h.view t a).1 i) ?_)
  have hstore := (h.view t a).2
  rw [hnewest] at hstore ⊢
  rwa [Atomic.pick_last]

lemma Coherent.loadAcquire (h : m.Coherent) : (m.loadAcquire t a i).1.Coherent := by
  have hpick := Atomic.pick_le (h.view t a).1 i
  refine h.update_view (View.le_trans (View.le_max_left ..) (View.le_see ..)) ?_
  exact ((h.view t).max (h.store a _ hpick)).see hpick (View.le_max_right ..)

/-- The store that is loaded: it is not older than those that the thread knows of, and the thread
takes its view over. -/
lemma Coherent.exists_loaded (h : m.Coherent) (t : τ) (a : α) (i : ℕ) :
    ∃ j ≤ (m.atomic a).last, (m.view t).seen a ≤ j ∧
      (m.loadAcquire t a i).2 = ((m.atomic a).store j).1 ∧
      ((m.atomic a).store j).2 ≤ (m.loadAcquire t a i).1.view t ∧
      j ≤ ((m.loadAcquire t a i).1.view t).seen a := by
  refine ⟨_, Atomic.pick_le (h.view t a).1 i, Atomic.le_pick .., rfl, ?_, ?_⟩
  · simp only [Memory.loadAcquire, Function.update_self]
    exact View.le_trans (View.le_max_right ..) (View.le_see ..)
  · simp only [Memory.loadAcquire, Function.update_self, View.seen_see_self]
    exact Nat.le_max_right _ _

lemma Coherent.join (h : m.Coherent) : (m.join t u).Coherent :=
  h.update_view (View.le_max_left ..) ((h.view t).max (h.view u))

lemma Coherent.storeRelease (h : m.Coherent) : (m.storeRelease t a x).Coherent := by
  -- the thread itself knows of the store
  have hself : (m.storeRelease t a x).Within ((m.storeRelease t a x).view t) := by
    have hview : (m.storeRelease t a x).view t = (m.view t).see a ((m.atomic a).last + 1) :=
      Function.update_self ..
    intro b
    by_cases hb : b = a
    · subst hb
      have hseen : ((m.storeRelease t b x).view t).seen b = (m.atomic b).last + 1 := by
        rw [hview, View.seen_see_self]
        exact max_eq_right ((h.view t b).1.trans (Nat.le_succ _))
      rw [hseen, store_storeRelease_last, last_storeRelease]
      exact ⟨le_rfl, View.le_refl _⟩
    · rw [atomic_storeRelease_of_ne hb, hview, View.seen_see_of_ne hb]
      exact ⟨(h.view t b).1, View.le_trans (h.view t b).2 (View.le_see ..)⟩
  refine ⟨fun u => ?_, fun b j hj => ?_, fun u k => ?_, fun u k => ?_⟩
  · by_cases hu : u = t
    · subst hu
      exact hself
    · have hview : (m.storeRelease t a x).view u = m.view u := Function.update_of_ne hu ..
      rw [hview]
      exact (h.view u).storeRelease
  · by_cases hb : b = a
    · subst hb
      rw [last_storeRelease] at hj
      rcases Nat.le_succ_iff.mp hj with hj | rfl
      · rw [store_storeRelease hj]
        exact (h.store b j hj).storeRelease
      · rw [store_storeRelease_last]
        exact hself
    · rw [atomic_storeRelease_of_ne hb] at hj ⊢
      exact (h.store b j hj).storeRelease
  · exact (h.written_le u k).trans ((view_le_storeRelease u).2 u)
  · exact (h.read_le u k).trans ((view_le_storeRelease u).2 u)

lemma seen_storeRelease (h : m.Coherent) :
    ((m.storeRelease t a x).view t).seen a = (m.atomic a).last + 1 := by
  simp only [Memory.storeRelease, Function.update_self, View.seen_see_self]
  exact max_eq_right ((h.view t a).1.trans (Nat.le_succ _))

section Cells

variable [Fintype τ] {k : κ} {f : μ k → μ k}

lemma Coherent.read (h : m.Coherent) : (m.read t k).1.Coherent where
  view u := by
    by_cases hu : u = t
    · subst hu
      have hview : (m.read u k).1.view u = (m.view u).tick u := Function.update_self ..
      rw [hview]
      exact (h.view u).tick u
    · have hview : (m.read t k).1.view u = m.view u := Function.update_of_ne hu ..
      rw [hview]
      exact h.view u
  store := h.store
  written_le u l := by
    rw [written_read]
    exact (h.written_le u l).trans ((view_le_read u).2 u)
  read_le u l := by
    by_cases hu : u = t
    · subst hu
      by_cases hl : l = k
      · subst hl
        simp [Memory.read]
      · rw [cell_read_of_ne hl]
        exact (h.read_le u l).trans ((view_le_read u).2 u)
    · rw [read_read_of_ne hu]
      exact (h.read_le u l).trans ((view_le_read u).2 u)

lemma Coherent.modify (h : m.Coherent) : (m.modify t k f).Coherent where
  view u := by
    by_cases hu : u = t
    · subst hu
      have hview : (m.modify u k f).view u = (m.view u).tick u := Function.update_self ..
      rw [hview]
      exact (h.view u).tick u
    · have hview : (m.modify t k f).view u = m.view u := Function.update_of_ne hu ..
      rw [hview]
      exact h.view u
  store := h.store
  written_le u l := by
    by_cases hu : u = t
    · subst hu
      by_cases hl : l = k
      · subst hl
        simp [Memory.modify]
      · rw [cell_modify_of_ne hl]
        exact (h.written_le u l).trans ((view_le_modify u).2 u)
    · rw [written_modify_of_ne hu]
      exact (h.written_le u l).trans ((view_le_modify u).2 u)
  read_le u l := by
    rw [read_modify]
    exact (h.read_le u l).trans ((view_le_modify u).2 u)

/-- What is newest stays newest, as long as there is no other store. -/
lemma seen_eq_last {m' : Memory τ ν μ} (hm' : m'.Coherent)
    (hnewest : (m.view t).seen a = (m.atomic a).last)
    (hlast : (m'.atomic a).last = (m.atomic a).last) (hle : m.view t ≤ m'.view t) :
    (m'.view t).seen a = (m'.atomic a).last := by
  refine Nat.le_antisymm (hm'.view t a).1 ?_
  rw [hlast, ← hnewest]
  exact hle.1 a

end Cells

end Coherent

end Memory

end LobCapture.Lib
