/-
# The ring between the producer and the writer thread

`SpscByteRing`, with `try_write`, `drain` and `empty` cut into their loads, stores and copies: a
step of a call takes the place in the call to the next place, or to the result.  The two threads
take such steps in any order.

Of the two indices `head` is stored by the consumer alone, and `empty` is called by the consumer
alone.  So the order in which `empty` loads them does not matter, and it loads `head` first.
-/
import LobCapture.Lib.Ring
import LobCapture.Lib.Text

namespace LobCapture

open Lib

structure SpscByteRing where
  mask : ℕ
  slots : List Bytes
  head : ℕ
  tail : ℕ
deriving DecidableEq, Repr

/-- A place in `try_write`. -/
inductive TryWrite
  | loadTail
  | loadHead (t : ℕ)
  | assign (t : ℕ)
  | storeTail (t : ℕ)
deriving DecidableEq, Repr

/-- A place in `drain`. -/
inductive Drain
  | loadHead
  | loadTail (h : ℕ)
  | loop (h t count : ℕ)
deriving DecidableEq, Repr

/-- What a step of `drain` leads to. -/
inductive DrainStep
  | next (d : Drain)
  /-- `fn` is called on a record. -/
  | record (p : Bytes) (d : Drain)
  | done (count : ℕ)
deriving DecidableEq, Repr

/-- A place in `empty`. -/
inductive EmptyCheck
  | loadHead
  | loadTail (h : ℕ)
deriving DecidableEq, Repr

namespace SpscByteRing

def new (capacityPow2 : ℕ) : SpscByteRing :=
  ⟨capacityPow2 - 1, List.replicate capacityPow2 [], 0, 0⟩

def next (r : SpscByteRing) (i : ℕ) : ℕ := (i + 1) &&& r.mask

def tryWrite (r : SpscByteRing) (p : Bytes) : TryWrite → SpscByteRing × (TryWrite ⊕ Bool)
  | .loadTail => (r, .inl (.loadHead r.tail))
  | .loadHead t => if r.next t = r.head then (r, .inr false) else (r, .inl (.assign t))
  | .assign t => ({ r with slots := r.slots.set t p }, .inl (.storeTail t))
  | .storeTail t => ({ r with tail := r.next t }, .inr true)

def drain (r : SpscByteRing) : Drain → SpscByteRing × DrainStep
  | .loadHead => (r, .next (.loadTail r.head))
  | .loadTail h => (r, .next (.loop h r.tail 0))
  | .loop h t count =>
    if h ≠ t then (r, .record (r.slots.getD h []) (.loop (r.next h) t (count + 1)))
    else if count ≠ 0 then ({ r with head := h }, .done count)
    else (r, .done count)

def empty (r : SpscByteRing) : EmptyCheck → EmptyCheck ⊕ Bool
  | .loadHead => .inl (.loadTail r.head)
  | .loadTail h => .inr (h = r.tail)

end SpscByteRing

/-! ## The two sides -/

/-- The ring shows a window of the records that were ever published. -/
structure SpscByteRing.Holds (r : SpscByteRing) (k : ℕ) (all : List Bytes) (freed : ℕ) :
    Prop where
  mask_eq : r.mask = 2 ^ k - 1
  window : Window (2 ^ k) r.slots r.head r.tail all freed

/-- The producer is at a place of `try_write` for the record `p`. -/
def TryWrite.At (r : SpscByteRing) (k : ℕ) (len freed : ℕ) (p : Bytes) : TryWrite → Prop
  | .loadTail => True
  | .loadHead t => t = r.tail
  | .assign t => t = r.tail ∧ len + 1 < freed + 2 ^ k
  | .storeTail t => t = r.tail ∧ len + 1 < freed + 2 ^ k ∧ r.slots[t]? = some p

/-- The consumer is at a place of `drain`, having handed out the first `drained` records. -/
def Drain.At (k : ℕ) (len freed drained : ℕ) : Drain → Prop
  | .loadHead => drained = freed
  | .loadTail h => h = freed % 2 ^ k ∧ drained = freed
  | .loop h t count => h = drained % 2 ^ k ∧ drained = freed + count ∧
      ∃ e, t = e % 2 ^ k ∧ drained ≤ e ∧ e ≤ len

/-- The consumer is at a place of `empty`. -/
def EmptyCheck.At (r : SpscByteRing) : EmptyCheck → Prop
  | .loadHead => True
  | .loadTail h => h = r.head

/-! ### What the other side does -/

section Mono

variable {r : SpscByteRing} {k len freed drained : ℕ}

lemma Drain.At.mono {d : Drain} (h : d.At k len freed drained) {len' : ℕ} (hle : len ≤ len') :
    d.At k len' freed drained := by
  cases d with
  | loadHead => exact h
  | loadTail h' => exact h
  | loop h' t count =>
    obtain ⟨hh, hcount, e, ht, hdrained, he⟩ := h
    exact ⟨hh, hcount, e, ht, hdrained, he.trans hle⟩

lemma Drain.At.drained_le {d : Drain} (h : d.At k len freed drained) (hfreed : freed ≤ len) :
    drained ≤ len := by
  cases d with
  | loadHead => exact h.le.trans hfreed
  | loadTail h' => exact h.2.le.trans hfreed
  | loop h' t count =>
    obtain ⟨-, -, e, -, hdrained, he⟩ := h
    exact hdrained.trans he

lemma Drain.At.freed_le {d : Drain} (h : d.At k len freed drained) : freed ≤ drained := by
  cases d with
  | loadHead => exact h.ge
  | loadTail h' => exact h.2.ge
  | loop h' t count =>
    obtain ⟨-, hcount, -⟩ := h
    exact hcount ▸ Nat.le_add_right freed count

lemma TryWrite.At.mono {w : TryWrite} {p : Bytes} (h : w.At r k len freed p) {freed' : ℕ}
    (hle : freed ≤ freed') {r' : SpscByteRing} (hslots : r'.slots = r.slots)
    (htail : r'.tail = r.tail) : w.At r' k len freed' p := by
  cases w with
  | loadTail => trivial
  | loadHead t => exact h.trans htail.symm
  | assign t => exact ⟨h.1.trans htail.symm, by have := h.2; omega⟩
  | storeTail t =>
    obtain ⟨ht, hroom, hp⟩ := h
    exact ⟨ht.trans htail.symm, by omega, by rw [hslots]; exact hp⟩

end Mono

section Holds

variable {r : SpscByteRing} {k freed drained : ℕ} {all : List Bytes} {p : Bytes}

lemma SpscByteRing.holds_new (k : ℕ) : (SpscByteRing.new (2 ^ k)).Holds k [] 0 where
  mask_eq := rfl
  window := Window.new (Nat.two_pow_pos k) []

namespace SpscByteRing.Holds

lemma next_eq (h : r.Holds k all freed) (i : ℕ) : r.next i = (i + 1) % 2 ^ k := by
  rw [SpscByteRing.next, h.mask_eq, Nat.and_two_pow_sub_one_eq_mod]

/-- **A step of `try_write`**: a slot is filled only if there is room for one more record, and the
record is published when the call returns `true`. -/
lemma tryWrite (h : r.Holds k all freed) {w : TryWrite} (hw : w.At r k all.length freed p) :
    match r.tryWrite p w with
    | (r', .inl w') => r'.Holds k all freed ∧ w'.At r' k all.length freed p ∧
        r'.head = r.head ∧ r'.tail = r.tail
    | (r', .inr false) => r' = r ∧ all.length + 1 = freed + 2 ^ k
    | (r', .inr true) => r'.Holds k (all ++ [p]) freed ∧ r'.head = r.head := by
  cases w with
  | loadTail => exact ⟨h, rfl, rfl, rfl⟩
  | loadHead t =>
    have ht : t = r.tail := hw
    subst ht
    simp only [SpscByteRing.tryWrite, h.next_eq]
    by_cases hfull : (r.tail + 1) % 2 ^ k = r.head
    · rw [if_pos hfull]
      exact ⟨rfl, h.window.full_iff.mp hfull⟩
    · rw [if_neg hfull]
      have hlt := h.window.length_lt
      have hne := mt h.window.full_iff.mpr hfull
      exact ⟨h, ⟨rfl, by omega⟩, rfl, rfl⟩
  | assign t =>
    obtain ⟨rfl, hroom⟩ := hw
    refine ⟨⟨h.mask_eq, h.window.assign p⟩, ⟨rfl, hroom, ?_⟩, rfl, rfl⟩
    exact List.getElem?_set_self h.window.tail_lt
  | storeTail t =>
    obtain ⟨rfl, hroom, hp⟩ := hw
    simp only [SpscByteRing.tryWrite, h.next_eq]
    exact ⟨⟨h.mask_eq, h.window.publish hp hroom⟩, trivial⟩

/-- **A step of `drain`**: the record that is handed out is the next one. -/
lemma drain (h : r.Holds k all freed) {d : Drain} (hd : d.At k all.length freed drained) :
    match r.drain d with
    | (r', .next d') => r' = r ∧ d'.At k all.length freed drained
    | (r', .record p d') => r' = r ∧ all[drained]? = some p ∧
        d'.At k all.length freed (drained + 1)
    | (r', .done count) => r'.Holds k all drained ∧ r'.slots = r.slots ∧ r'.tail = r.tail ∧
        drained = freed + count := by
  cases d with
  | loadHead => exact ⟨rfl, h.window.head_eq, hd⟩
  | loadTail h' =>
    obtain ⟨rfl, rfl⟩ := hd
    exact ⟨rfl, rfl, rfl, _, h.window.tail_eq, h.window.freed_le, le_rfl⟩
  | loop h' t count =>
    obtain ⟨rfl, hcount, e, rfl, hle, hlen⟩ := hd
    have hindex := h.window.index_eq_iff (show freed ≤ drained by omega) hle hlen
    simp only [SpscByteRing.drain, ne_eq, ite_not, hindex]
    split_ifs with he hzero
    · -- nothing was read
      subst he
      obtain rfl : drained = freed := by omega
      exact ⟨h, rfl, rfl, hcount⟩
    · subst he
      exact ⟨⟨h.mask_eq, h.window.free (by omega) hlen⟩, rfl, rfl, hcount⟩
    · have hslot := h.window.slot drained (by omega) (by omega)
      refine ⟨rfl, ?_, ?_, by omega, e, rfl, by omega, hlen⟩
      · rw [List.getD_eq_getElem?_getD, hslot, List.getElem?_eq_getElem (by omega),
          Option.getD_some]
      · rw [h.next_eq, Nat.mod_add_mod]

/-- **`empty` is right** about the moment in which it loads `tail`. -/
lemma empty (h : r.Holds k all freed) {e : EmptyCheck} (he : e.At r) :
    match r.empty e with
    | .inl e' => e'.At r
    | .inr b => b = true ↔ freed = all.length := by
  cases e with
  | loadHead => rfl
  | loadTail h' =>
    have hh : h' = r.head := he
    subst hh
    simpa [SpscByteRing.empty] using h.window.empty_iff

end SpscByteRing.Holds

end Holds

end LobCapture
