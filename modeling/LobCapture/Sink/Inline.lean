/-
# Synchronous writing

In synchronous mode the producer calls stdio itself, and nothing is between a record and the file:
whenever the producer is between two calls, what it has written has been passed to `fwrite`
(`passed_inline`).  A call takes at most four steps, so that a run of the producer alone makes all
its calls (`returnedCalls_inlineRun`).
-/
import LobCapture.Sink.CsvSink

namespace LobCapture

open Lib

/-- The producer does what it does in synchronous mode. -/
def Producer.Inline : Producer → Prop
  | .idle | .fwrite _ | .loadWerr _ | .storeWerr _ | .fflush | .lastFlush | .fclose => True
  | _ => False

/-- The record that has been passed to `fwrite` in a call that has not returned. -/
def Producer.passing : Producer → List Bytes
  | .loadWerr p | .storeWerr p => [p]
  | _ => []

/-- The number of steps until the call returns, at most. -/
def Producer.left : Producer → ℕ
  | .fwrite _ => 3
  | .loadWerr _ | .lastFlush => 2
  | .storeWerr _ | .fflush | .fclose => 1
  | _ => 0

/-- What holds in synchronous mode after the records `all` have been written. -/
structure CsvSink.Inline (all : List Bytes) (s : CsvSink) : Prop where
  async : s.async = false
  writer : s.writer = .exited
  passed : s.file.passed = (all ++ s.producer.passing).flatten
  producer : s.producer.Inline
  closed : s.isOpen = false → s.producer = .idle

namespace CsvSink.Inline

variable {all : List Bytes} {s : CsvSink}

lemma opened (n : ℕ) (calls : List SinkCall) : (CsvSink.opened false n calls).Inline [] where
  async := rfl
  writer := rfl
  passed := rfl
  producer := trivial
  closed h := absurd h.symm Bool.false_ne_true

/-- Between two calls there is no record on the way. -/
lemma passed_idle (h : s.Inline all) (hidle : s.producer = .idle) :
    s.file.passed = all.flatten := by
  simpa [hidle, Producer.passing] using h.passed

lemma isOpen (h : s.Inline all) (hidle : s.producer ≠ .idle) : s.isOpen = true :=
  Bool.eq_true_of_not_eq_false fun hclosed => hidle (h.closed hclosed)

/-- The next call begins. -/
lemma begin (h : s.Inline all) (hidle : s.producer = .idle) :
    s.begin.1.Inline (s.grown all s.begin.2) := by
  rw [CsvSink.begin]
  have hpassed := h.passed_idle hidle
  cases htodo : s.todo with
  | nil =>
    rw [grown_none]
    exact h
  | cons call rest =>
    by_cases hopen : s.isOpen = true
    · simp only [hopen, Bool.true_eq_false, if_false, h.async, grown_none]
      cases call with
      | write p | flush | close =>
        exact ⟨rfl, h.writer, by simpa [Producer.passing] using hpassed, trivial,
          fun hc => absurd hc (by simp)⟩
    · -- the sink is closed, and the call does nothing
      have hclosed : s.isOpen = false := Bool.eq_false_iff.mpr hopen
      simp only [hclosed, if_true, CsvSink.returned, grown, Bool.false_eq_true, if_false,
        List.append_nil]
      exact ⟨h.async, h.writer, by simpa [Producer.passing] using hpassed, trivial, fun _ => rfl⟩

/-- A step of the producer. -/
lemma produce (h : s.Inline all) (io : IoOutcome) :
    (s.produce io).1.Inline (s.grown all (s.produce io).2) := by
  have hpassed := h.passed
  cases hplace : s.producer with
  | idle =>
    simp only [CsvSink.produce, hplace]
    exact h.begin hplace
  | fwrite p =>
    have hopen := h.isOpen (by simp [hplace])
    simp only [hplace, Producer.passing, List.append_nil] at hpassed
    simp only [CsvSink.produce, hplace]
    split_ifs
    · rw [grown_none]
      refine ⟨h.async, h.writer, ?_, trivial, fun hc => absurd (hopen.symm.trans hc) (by simp)⟩
      simp [Producer.passing, hpassed]
    · -- all of it was taken
      simp only [CsvSink.returned]
      rw [grown, hopen, if_pos rfl]
      refine ⟨h.async, h.writer, ?_, trivial, fun _ => rfl⟩
      simp [Producer.passing, writtenRecords, hpassed]
  | loadWerr p =>
    have hopen := h.isOpen (by simp [hplace])
    rw [hplace, Producer.passing] at hpassed
    simp only [CsvSink.produce, hplace]
    split_ifs
    · simp only [CsvSink.returned]
      rw [grown, hopen, if_pos rfl]
      refine ⟨h.async, h.writer, ?_, trivial, fun _ => rfl⟩
      simp [Producer.passing, writtenRecords, hpassed]
    · rw [grown_none]
      exact ⟨h.async, h.writer, hpassed, trivial, fun hc => absurd (hopen.symm.trans hc) (by simp)⟩
  | storeWerr p =>
    have hopen := h.isOpen (by simp [hplace])
    rw [hplace, Producer.passing] at hpassed
    simp only [CsvSink.produce, hplace, CsvSink.returned]
    rw [grown, hopen, if_pos rfl]
    refine ⟨h.async, h.writer, ?_, trivial, fun _ => rfl⟩
    simp [Producer.passing, writtenRecords, hpassed]
  | fflush =>
    rw [hplace] at hpassed
    simp only [CsvSink.produce, hplace, CsvSink.returned]
    rw [grown_of_ne _ _ (by simp)]
    exact ⟨h.async, h.writer, by rw [File.passed_fflush]; exact hpassed, trivial, fun _ => rfl⟩
  | lastFlush =>
    have hopen := h.isOpen (by simp [hplace])
    rw [hplace] at hpassed
    simp only [CsvSink.produce, hplace]
    rw [grown_none]
    exact ⟨h.async, h.writer, by rw [File.passed_fflush]; exact hpassed, trivial,
      fun hc => absurd (hopen.symm.trans hc) (by simp)⟩
  | fclose =>
    rw [hplace] at hpassed
    simp only [CsvSink.produce, hplace, CsvSink.returned]
    rw [grown_of_ne _ _ (by simp)]
    exact ⟨h.async, h.writer, by rw [File.passed_fflush]; exact hpassed, trivial, fun _ => rfl⟩
  | tryWrite p w | storeFlushReq | loadFlushReq | storeStop | join =>
    have := h.producer
    rw [hplace] at this
    exact False.elim this

lemma consume (h : s.Inline all) (io : IoOutcome) : (s.consume io).Inline all := by
  rw [CsvSink.consume, h.writer]
  exact h

lemma run (n : ℕ) (calls : List SinkCall) (schedule : List Move) :
    (run CsvSink.step (.opened false n calls) schedule).1.Inline
      (writtenRecords (returnedCalls
        (Lib.run CsvSink.step (.opened false n calls) schedule).2)) :=
  records_induction (P := fun all s => s.Inline all) (opened n calls) rfl
    (fun _ _ io h => h.produce io) (fun _ _ io h => h.consume io) schedule

end CsvSink.Inline

/-! ## The producer alone -/

/-- The producer makes its calls in synchronous mode. -/
def inlineRun (calls : List SinkCall) : CsvSink × List (Move × Option SinkCall) :=
  run CsvSink.step (.opened false 1 calls)
    (List.replicate (4 * calls.length) { thread := .producer })

/-- What the calls pass to `fwrite` in synchronous mode. -/
def inlineBytes (calls : List SinkCall) : Bytes := (inlineRun calls).1.file.passed

namespace CsvSink

/-- The number of steps until all calls have returned, at most. -/
def left (s : CsvSink) : ℕ := 4 * s.todo.length + s.producer.left

variable {all : List Bytes} {s : CsvSink}

lemma Inline.left_produce (h : s.Inline all) (io : IoOutcome) :
    (s.produce io).1.left ≤ s.left - 1 := by
  rw [left, left]
  cases hplace : s.producer with
  | idle =>
    simp only [CsvSink.produce, hplace, CsvSink.begin]
    cases htodo : s.todo with
    | nil => simp [htodo, hplace, Producer.left]
    | cons call rest =>
      cases hopen : s.isOpen with
      | false =>
        simp only [if_true, returned, Producer.left, List.length_cons]
        omega
      | true =>
        simp only [Bool.true_eq_false, if_false, h.async, Bool.false_eq_true]
        cases call <;> simp only [Producer.left, List.length_cons] <;> omega
  | fwrite p | loadWerr p =>
    simp only [CsvSink.produce, hplace]
    split_ifs <;> simp only [returned, Producer.left] <;> omega
  | storeWerr p | fflush | lastFlush | fclose =>
    simp only [CsvSink.produce, hplace, returned, Producer.left]
    omega
  | tryWrite p w | storeFlushReq | loadFlushReq | storeStop | join =>
    have := h.producer
    rw [hplace] at this
    exact False.elim this

lemma Inline.left_run (h : s.Inline all) (n : ℕ) :
    (Lib.run step s (List.replicate n { thread := .producer })).1.left ≤ s.left - n := by
  induction n generalizing s all with
  | zero => exact le_rfl
  | succ n ih =>
    have hstep := h.left_produce {}
    have hrest := ih (h.produce {})
    rw [List.replicate_succ, run_cons]
    simp only [step] at hrest ⊢
    omega

end CsvSink

/-- **In synchronous mode every call returns.** -/
lemma returnedCalls_inlineRun (calls : List SinkCall) :
    returnedCalls (inlineRun calls).2 = calls ∧ (inlineRun calls).1.producer = .idle := by
  have hleft := (CsvSink.Inline.opened 1 calls).left_run (4 * calls.length)
  have hcalls := CsvSink.calls_run false 1 calls
    (List.replicate (4 * calls.length) { thread := .producer })
  have hplace := (CsvSink.Inline.run 1 calls
    (List.replicate (4 * calls.length) { thread := .producer })).producer
  simp only [inlineRun]
  generalize run CsvSink.step (.opened false 1 calls)
    (List.replicate (4 * calls.length) { thread := .producer }) = r at *
  have hzero : r.1.left = 0 := by
    simpa [CsvSink.left, CsvSink.opened, Producer.left] using hleft
  rw [CsvSink.left] at hzero
  have htodo : r.1.todo = [] := List.length_eq_zero_iff.mp (by omega)
  have hidle : r.1.producer = .idle := by
    cases hproducer : r.1.producer <;>
      simp_all [Producer.left, Producer.Inline]
  refine ⟨?_, hidle⟩
  rw [htodo, hidle] at hcalls
  simpa [Producer.call] using hcalls

/-- What synchronous mode writes is the records, one after the other. -/
lemma inlineBytes_eq (calls : List SinkCall) : inlineBytes calls = writtenBytes calls := by
  obtain ⟨hcalls, hidle⟩ := returnedCalls_inlineRun calls
  have h := (CsvSink.Inline.run 1 calls
    (List.replicate (4 * calls.length) { thread := .producer })).passed_idle hidle
  rwa [show run CsvSink.step (.opened false 1 calls)
    (List.replicate (4 * calls.length) { thread := .producer }) = inlineRun calls from rfl,
    hcalls] at h

end LobCapture
