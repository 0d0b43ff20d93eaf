/-
# Buffered files

A `FILE` is a buffer in front of a device.  `fwrite` puts bytes into the buffer, and bytes go from
the buffer to the device when stdio likes to; an error of the device shows in the result of the
call that meets it, which may be a later `fwrite`, or `fflush`.  What has been passed to `fwrite`
is recorded, whatever became of it.
-/
import LobCapture.Lib.Text

namespace LobCapture

open Lib

/-- How the device behaves in a call. -/
structure IoOutcome where
  ok : Bool := true
  /-- How many bytes a failing `fwrite` takes, unless it is all of them. -/
  accepted : ℕ := 0
  /-- How many bytes go to the device. -/
  moved : ℕ := 0
  /-- How many of the others are still in the buffer after an error. -/
  kept : ℕ := 0
deriving DecidableEq, Repr

structure File where
  /-- What was passed to `fwrite`. -/
  passed : Bytes := []
  buffer : Bytes := []
  device : Bytes := []
deriving DecidableEq, Repr

namespace File

/-- `fwrite`, with the number of bytes it returns. -/
def fwrite (f : File) (p : Bytes) (o : IoOutcome) : File × ℕ :=
  if p = [] then (f, 0)
  else
    let n := if o.ok then p.length else min o.accepted (p.length - 1)
    let pending := f.buffer ++ p.take n
    let rest := pending.drop o.moved
    ({ passed := f.passed ++ p
       buffer := if o.ok then rest else rest.take o.kept
       device := f.device ++ pending.take o.moved }, n)

/-- `fflush`, with the result that it was successful.  An error leaves some byte of the buffer
behind. -/
def fflush (f : File) (o : IoOutcome) : File × Bool :=
  if f.buffer = [] ∨ o.ok then ({ f with buffer := [], device := f.device ++ f.buffer }, true)
  else
    let n := min o.moved (f.buffer.length - 1)
    ({ f with
       buffer := (f.buffer.drop n).take o.kept
       device := f.device ++ f.buffer.take n }, false)

def Intact (f : File) : Prop := f.device ++ f.buffer = f.passed

variable {f : File} {p : Bytes} {o : IoOutcome}

@[simp] lemma passed_fwrite : (f.fwrite p o).1.passed = f.passed ++ p := by
  by_cases hp : p = [] <;> simp [fwrite, hp]

@[simp] lemma passed_fflush : (f.fflush o).1.passed = f.passed := by
  rw [fflush]
  split_ifs <;> rfl

/-- Only an `fwrite` that comes short loses bytes. -/
lemma Intact.fwrite (h : f.Intact) (hn : (f.fwrite p o).2 = p.length) :
    (f.fwrite p o).1.Intact := by
  by_cases hp : p = []
  · simpa [File.fwrite, hp] using h
  · have hpos : 0 < p.length := List.length_pos_iff.mpr hp
    cases hok : o.ok with
    | false =>
      simp only [File.fwrite, if_neg hp, hok, Bool.false_eq_true, if_false] at hn
      omega
    | true =>
      rw [Intact] at h
      simp only [File.fwrite, if_neg hp, hok, if_true, List.take_length, Intact,
        List.append_assoc, List.take_append_drop]
      rw [← h, List.append_assoc]

/-- After a successful `fflush` everything is on the device. -/
lemma Intact.fflush (h : f.Intact) (hok : (f.fflush o).2 = true) :
    (f.fflush o).1.device = (f.fflush o).1.passed ∧ (f.fflush o).1.buffer = [] := by
  rw [File.fflush] at hok ⊢
  split_ifs at hok ⊢
  exact ⟨h, rfl⟩

lemma intact_of_flushed (h : f.device = f.passed ∧ f.buffer = []) : f.Intact := by
  rw [Intact, h.1, h.2, List.append_nil]

/-- After a failed one something is not. -/
lemma Intact.fflush_failed (h : f.Intact) (hfail : (f.fflush o).2 = false) :
    (f.fflush o).1.device ≠ (f.fflush o).1.passed := by
  rw [File.fflush] at hfail ⊢
  split_ifs at hfail ⊢ with hcond
  have hpos : 0 < f.buffer.length := List.length_pos_iff.mpr (not_or.mp hcond).1
  intro heq
  have := congrArg List.length (heq.trans h.symm)
  simp only [List.length_append, List.length_take] at this
  omega

end File

end LobCapture
