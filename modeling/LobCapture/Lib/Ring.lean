/-
# Circular buffers

A circular buffer of `n` slots with a read and a write index shows a window of the sequence of
all elements that were ever put into it: element `j` is in slot `j % n`, and the indices are the
ends of the window modulo `n`.  One slot is left unused, so that equal indices mean that the
window is empty (`Window.empty_iff`) and not that it is full (`Window.full_iff`).

The operations are split into the steps that a reader and a writer at work at the same time take:
filling a slot, publishing it, and freeing the slots that have been read.
-/
import Mathlib.Data.Nat.ModEq

namespace LobCapture.Lib

/-- Numbers less than `n` apart have distinct remainders. -/
lemma mod_eq_mod_iff {n i j : ℕ} (hle : i ≤ j) (hlt : j < i + n) : i % n = j % n ↔ i = j := by
  constructor
  · intro h
    have hdvd : n ∣ j - i := (Nat.modEq_iff_dvd' hle).mp h
    have hzero := Nat.eq_zero_of_dvd_of_lt hdvd (by omega)
    omega
  · rintro rfl
    rfl

variable {α : Type*}

/-- The slots hold the elements of `all` from the `freed`-th on. -/
structure Window (n : ℕ) (slots : List α) (head tail : ℕ) (all : List α) (freed : ℕ) : Prop where
  length_slots : slots.length = n
  head_eq : head = freed % n
  tail_eq : tail = all.length % n
  freed_le : freed ≤ all.length
  length_lt : all.length < freed + n
  slot : ∀ j, freed ≤ j → j < all.length → slots[j % n]? = all[j]?

namespace Window

variable {n : ℕ} {slots : List α} {head tail : ℕ} {all : List α} {freed : ℕ}

lemma new (hn : 0 < n) (x : α) : Window n (List.replicate n x) 0 0 [] 0 where
  length_slots := List.length_replicate
  head_eq := (Nat.zero_mod n).symm
  tail_eq := (Nat.zero_mod n).symm
  freed_le := le_rfl
  length_lt := by simpa using hn
  slot j _ hj := absurd hj (Nat.not_lt_zero j)

lemma pos (h : Window n slots head tail all freed) : 0 < n := by
  have := h.freed_le
  have := h.length_lt
  omega

lemma empty_iff (h : Window n slots head tail all freed) : head = tail ↔ freed = all.length := by
  rw [h.head_eq, h.tail_eq]
  exact mod_eq_mod_iff h.freed_le h.length_lt

lemma succ_tail (h : Window n slots head tail all freed) :
    (tail + 1) % n = (all.length + 1) % n := by
  rw [h.tail_eq, Nat.mod_add_mod]

/-- One slot stays empty. -/
lemma full_iff (h : Window n slots head tail all freed) :
    (tail + 1) % n = head ↔ all.length + 1 = freed + n := by
  have hlt := h.length_lt
  have hle := h.freed_le
  rw [h.succ_tail, h.head_eq]
  constructor
  · intro heq
    by_contra hne
    have := (mod_eq_mod_iff (show freed ≤ all.length + 1 by omega) (by omega)).mp heq.symm
    omega
  · intro heq
    rw [heq, Nat.add_mod_right]

lemma tail_lt (h : Window n slots head tail all freed) : tail < slots.length := by
  rw [h.tail_eq, h.length_slots]
  exact Nat.mod_lt _ h.pos

/-- The slot that is filled next is none of those in the window. -/
lemma slot_ne_tail (h : Window n slots head tail all freed) {j : ℕ} (hle : freed ≤ j)
    (hlt : j < all.length) : j % n ≠ tail := by
  have := h.length_lt
  rw [h.tail_eq]
  intro heq
  have := (mod_eq_mod_iff (show j ≤ all.length by omega) (by omega)).mp heq
  omega

lemma assign (h : Window n slots head tail all freed) (x : α) :
    Window n (slots.set tail x) head tail all freed :=
  { h with
    length_slots := by rw [List.length_set, h.length_slots]
    slot := fun j hle hlt => by
      rw [List.getElem?_set_ne (h.slot_ne_tail hle hlt).symm, h.slot j hle hlt] }

lemma publish (h : Window n slots head tail all freed) {x : α} (hx : slots[tail]? = some x)
    (hroom : all.length + 1 < freed + n) :
    Window n slots head ((tail + 1) % n) (all ++ [x]) freed where
  length_slots := h.length_slots
  head_eq := h.head_eq
  tail_eq := by rw [h.succ_tail, List.length_append, List.length_singleton]
  freed_le := by
    have := h.freed_le
    simp only [List.length_append, List.length_singleton]
    omega
  length_lt := by simpa using hroom
  slot j hle hlt := by
    rw [List.length_append, List.length_singleton] at hlt
    rcases Nat.lt_succ_iff_lt_or_eq.mp hlt with hlt | rfl
    · rw [h.slot j hle hlt, List.getElem?_append_left hlt]
    · -- the new element
      rw [← h.tail_eq, hx, List.getElem?_concat_length]

lemma free (h : Window n slots head tail all freed) {m : ℕ} (hle : freed ≤ m)
    (hm : m ≤ all.length) : Window n slots (m % n) tail all m :=
  { h with
    head_eq := rfl
    freed_le := hm
    length_lt := by
      have := h.length_lt
      omega
    slot := fun j hj => h.slot j (hle.trans hj) }

/-- A reader that stops at an earlier end of the window has read up to it. -/
lemma index_eq_iff (h : Window n slots head tail all freed) {i j : ℕ} (hi : freed ≤ i)
    (hij : i ≤ j) (hj : j ≤ all.length) : i % n = j % n ↔ i = j := by
  have := h.length_lt
  exact mod_eq_mod_iff hij (by omega)

end Window

end LobCapture.Lib
