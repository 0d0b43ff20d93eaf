/-
# The two threads of a sink

`CsvSink` in `csv_writer.cpp`.  The producer makes a sequence of calls of `write`, `flush` and
`close`, and in asynchronous mode the writer thread is in its loop, `run`.  Every atomic load and
store, every copy into a slot and every call of stdio is a step of its own, and the two threads
take their steps in any order.  A thread that waits takes steps that change nothing, so sleeping
is left out.
-/
import LobCapture.Sink.SpscByteRing
import LobCapture.Sink.Stdio
import LobCapture.Lib.Run

namespace LobCapture

open Lib

/-- A call of the producer. -/
inductive SinkCall
  | write (p : Bytes)
  | flush
  | close
deriving DecidableEq, Repr

/-- Where the producer is. -/
inductive Producer
  /-- Between two calls. -/
  | idle
  | tryWrite (p : Bytes) (w : TryWrite)
  | fwrite (p : Bytes)
  /-- After an `fwrite` that came short. -/
  | loadWerr (p : Bytes)
  | storeWerr (p : Bytes)
  | storeFlushReq
  | loadFlushReq
  | fflush
  | storeStop
  | join
  /-- `fflush`, in `close`. -/
  | lastFlush
  | fclose
deriving DecidableEq, Repr

/-- Where the writer thread is, in `run`.  `n` is what `drain` has returned. -/
inductive Writer
  | drain (d : Drain)
  /-- After an `fwrite` that came short. -/
  | loadWerr (d : Drain)
  | storeWerr (d : Drain)
  | loadFlushReq (n : ℕ)
  | flushEmpty (n : ℕ) (e : EmptyCheck)
  | fflush (n : ℕ)
  | clearFlushReq (n : ℕ)
  | loadStop
  | stopEmpty (e : EmptyCheck)
  | exited
deriving DecidableEq, Repr

/-- The sink and its threads. -/
structure CsvSink where
  file : File := {}
  /-- `f_` is not null. -/
  isOpen : Bool := true
  async : Bool
  /-- The ring, which is not used in synchronous mode. -/
  ring : SpscByteRing
  stop : Bool := false
  flushReq : Bool := false
  werr : Bool := false
  producer : Producer := .idle
  writer : Writer
  /-- The calls the producer has still to make. -/
  todo : List SinkCall
deriving DecidableEq, Repr

inductive Thread
  | producer
  | writer
deriving DecidableEq, Repr

/-- A step: the thread that takes it, and how the device behaves if stdio is called. -/
structure Move where
  thread : Thread
  io : IoOutcome := {}
deriving DecidableEq, Repr

namespace CsvSink

/-- The sink after `open`. -/
def opened (async : Bool) (ringPow2 : ℕ) (calls : List SinkCall) : CsvSink where
  async := async
  ring := .new ringPow2
  writer := if async then .drain .loadHead else .exited
  todo := calls

/-! ## The producer -/

/-- The call of the producer returns. -/
def returned (s : CsvSink) (call : SinkCall) : CsvSink × Option SinkCall :=
  ({ s with producer := .idle }, some call)

/-- The next call begins. -/
def begin (s : CsvSink) : CsvSink × Option SinkCall :=
  match s.todo with
  | [] => (s, none)
  | call :: rest =>
    let s := { s with todo := rest }
    if s.isOpen = false then s.returned call
    else
      let place : Producer :=
        match call with
        | .write p => if s.async then .tryWrite p .loadTail else .fwrite p
        | .flush => if s.async then .storeFlushReq else .fflush
        | .close => if s.async then .storeStop else .lastFlush
      ({ s with producer := place }, none)

/-- A step of the producer, with the call that returns. -/
def produce (s : CsvSink) (io : IoOutcome) : CsvSink × Option SinkCall :=
  match s.producer with
  | .idle => s.begin
  | .tryWrite p w =>
    match s.ring.tryWrite p w with
    | (ring, .inl w) => ({ s with ring := ring, producer := .tryWrite p w }, none)
    | (ring, .inr false) => ({ s with ring := ring, producer := .tryWrite p .loadTail }, none)
    | (ring, .inr true) => { s with ring := ring }.returned (.write p)
  | .fwrite p =>
    let (file, n) := s.file.fwrite p io
    if n ≠ p.length then ({ s with file := file, producer := .loadWerr p }, none)
    else { s with file := file }.returned (.write p)
  | .loadWerr p =>
    if s.werr then s.returned (.write p) else ({ s with producer := .storeWerr p }, none)
  | .storeWerr p => { s with werr := true }.returned (.write p)
  | .storeFlushReq => ({ s with flushReq := true, producer := .loadFlushReq }, none)
  | .loadFlushReq => if s.flushReq then (s, none) else s.returned .flush
  | .fflush => { s with file := (s.file.fflush io).1 }.returned .flush
  | .storeStop => ({ s with stop := true, producer := .join }, none)
  | .join => if s.writer = .exited then ({ s with producer := .lastFlush }, none) else (s, none)
  | .lastFlush => ({ s with file := (s.file.fflush io).1, producer := .fclose }, none)
  | .fclose => { s with file := (s.file.fflush io).1, isOpen := false }.returned .close

/-! ## The writer thread -/

/-- Where the loop goes on after the part about `flush_req_`. -/
def afterFlush (n : ℕ) : Writer := if n = 0 then .loadStop else .drain .loadHead

/-- A step of the writer thread. -/
def consume (s : CsvSink) (io : IoOutcome) : CsvSink :=
  match s.writer with
  | .drain d =>
    match s.ring.drain d with
    | (ring, .next d) => { s with ring := ring, writer := .drain d }
    | (ring, .record p d) =>
      let (file, n) := s.file.fwrite p io
      { s with
        ring := ring
        file := file
        writer := if n ≠ p.length then .loadWerr d else .drain d }
    | (ring, .done n) => { s with ring := ring, writer := .loadFlushReq n }
  | .loadWerr d => { s with writer := if s.werr then .drain d else .storeWerr d }
  | .storeWerr d => { s with werr := true, writer := .drain d }
  | .loadFlushReq n =>
    { s with writer := if s.flushReq then .flushEmpty n .loadHead else afterFlush n }
  | .flushEmpty n e =>
    match s.ring.empty e with
    | .inl e => { s with writer := .flushEmpty n e }
    | .inr b => { s with writer := if b then .fflush n else afterFlush n }
  | .fflush n => { s with file := (s.file.fflush io).1, writer := .clearFlushReq n }
  | .clearFlushReq n => { s with flushReq := false, writer := afterFlush n }
  | .loadStop => { s with writer := if s.stop then .stopEmpty .loadHead else .drain .loadHead }
  | .stopEmpty e =>
    match s.ring.empty e with
    | .inl e => { s with writer := .stopEmpty e }
    | .inr b => { s with writer := if b then .exited else .drain .loadHead }
  | .exited => s

/-- A step of one of the threads. -/
def step (s : CsvSink) (m : Move) : CsvSink × Option SinkCall :=
  match m.thread with
  | .producer => s.produce m.io
  | .writer => (s.consume m.io, none)

/-- `failed`. -/
def failed (s : CsvSink) : Bool := s.werr

end CsvSink

/-- The calls that have returned, in a history. -/
def returnedCalls (history : List (Move × Option SinkCall)) : List SinkCall :=
  history.filterMap Prod.snd

/-- The records of a sequence of calls.  After `close` there is no file, and `write` does
nothing. -/
def writtenRecords : List SinkCall → List Bytes
  | [] => []
  | .write p :: calls => p :: writtenRecords calls
  | .flush :: calls => writtenRecords calls
  | .close :: _ => []

/-- What the calls write, one record after the other. -/
def writtenBytes (calls : List SinkCall) : Bytes := (writtenRecords calls).flatten

section Returned

variable {calls : List SinkCall}

lemma writtenRecords_append (h : .close ∉ calls) (rest : List SinkCall) :
    writtenRecords (calls ++ rest) = writtenRecords calls ++ writtenRecords rest := by
  induction calls with
  | nil => rfl
  | cons call calls ih =>
    rw [List.mem_cons, not_or] at h
    cases call with
    | write p => simp [writtenRecords, ih h.2]
    | flush => simp [writtenRecords, ih h.2]
    | close => exact absurd rfl h.1

/-- Nothing is written after `close`. -/
lemma writtenRecords_append_of_closed (h : .close ∈ calls) (rest : List SinkCall) :
    writtenRecords (calls ++ rest) = writtenRecords calls := by
  induction calls with
  | nil => exact absurd h List.not_mem_nil
  | cons call calls ih =>
    cases call with
    | write p => simp [writtenRecords, ih (by simpa using h)]
    | flush => simp [writtenRecords, ih (by simpa using h)]
    | close => rfl

lemma writtenRecords_concat_of_ne {call : SinkCall} (h : ∀ p, call ≠ .write p) :
    writtenRecords (calls ++ [call]) = writtenRecords calls := by
  by_cases hclosed : .close ∈ calls
  · exact writtenRecords_append_of_closed hclosed _
  · rw [writtenRecords_append hclosed]
    cases call with
    | write p => exact absurd rfl (h p)
    | flush => simp [writtenRecords]
    | close => simp [writtenRecords]

end Returned

lemma returnedCalls_concat (history : List (Move × Option SinkCall)) (m : Move)
    (call : Option SinkCall) :
    returnedCalls (history ++ [(m, call)]) = returnedCalls history ++ call.toList := by
  cases call <;> simp [returnedCalls]

/-! ## The sequence of the calls -/

/-- The call the producer is in. -/
def Producer.call : Producer → Option SinkCall
  | .idle => none
  | .tryWrite p _ | .fwrite p | .loadWerr p | .storeWerr p => some (.write p)
  | .storeFlushReq | .loadFlushReq | .fflush => some .flush
  | .storeStop | .join | .lastFlush | .fclose => some .close

namespace CsvSink

/-- No call is left out, and none is made twice. -/
lemma calls_produce (s : CsvSink) (io : IoOutcome) :
    (s.produce io).2.toList ++ (s.produce io).1.producer.call.toList ++ (s.produce io).1.todo =
      s.producer.call.toList ++ s.todo := by
  cases hplace : s.producer with
  | idle =>
    simp only [produce, hplace, begin]
    cases htodo : s.todo with
    | nil => simp [hplace, htodo]
    | cons call rest =>
      by_cases hopen : s.isOpen = false
      · simp [hopen, returned, Producer.call]
      · cases call <;> cases hasync : s.async <;> simp [hopen, Producer.call]
  | tryWrite p w =>
    simp only [produce, hplace]
    rcases s.ring.tryWrite p w with ⟨ring, w' | b⟩
    · simp [Producer.call]
    · cases b <;> simp [returned, Producer.call]
  | fwrite p =>
    simp only [produce, hplace]
    split_ifs <;> simp [returned, Producer.call]
  | loadWerr p =>
    simp only [produce, hplace]
    split_ifs <;> simp [returned, Producer.call]
  | loadFlushReq =>
    simp only [produce, hplace]
    split_ifs <;> simp [returned, Producer.call, hplace]
  | join =>
    simp only [produce, hplace]
    split_ifs <;> simp [Producer.call, hplace]
  | storeWerr p | storeFlushReq | fflush | storeStop | lastFlush | fclose =>
    simp [produce, hplace, returned, Producer.call]

/-- The call that returns is the one the producer is in. -/
lemma call_of_returned {s : CsvSink} {io : IoOutcome} {call : SinkCall}
    (h : (s.produce io).2 = some call) (hidle : s.producer ≠ .idle) :
    s.producer.call = some call := by
  have hcalls := calls_produce s io
  rw [h] at hcalls
  cases hcall : s.producer.call with
  | none => cases hplace : s.producer <;> simp_all [Producer.call]
  | some call' =>
    rw [hcall] at hcalls
    simp only [Option.toList_some, List.cons_append, List.cons.injEq] at hcalls
    rw [hcalls.1]

lemma idle_of_returned {s : CsvSink} {io : IoOutcome} {call : SinkCall}
    (h : (s.produce io).2 = some call) : (s.produce io).1.producer = .idle := by
  cases hplace : s.producer with
  | idle =>
    simp only [produce, hplace, begin] at h ⊢
    cases htodo : s.todo with
    | nil => exact hplace
    | cons call rest => cases hopen : s.isOpen <;> simp_all [returned]
  | tryWrite p w =>
    simp only [produce, hplace] at h ⊢
    rcases htry : s.ring.tryWrite p w with ⟨ring, w' | b⟩
    · simp [htry] at h
    · cases b <;> simp_all [returned]
  | fwrite p | loadWerr p | loadFlushReq | join =>
    simp only [produce, hplace] at h ⊢
    split_ifs at h ⊢ <;> simp_all [returned]
  | storeWerr p | storeFlushReq | fflush | storeStop | lastFlush | fclose =>
    simp_all [produce, returned]

lemma todo_consume (s : CsvSink) (io : IoOutcome) :
    (s.consume io).producer = s.producer ∧ (s.consume io).todo = s.todo := by
  rw [consume]
  split
  case h_1 => split <;> exact ⟨rfl, rfl⟩
  all_goals first | exact ⟨rfl, rfl⟩ | (split <;> exact ⟨rfl, rfl⟩)

/-- The calls of the producer return in the order in which it makes them. -/
lemma calls_run (async : Bool) (n : ℕ) (calls : List SinkCall) (schedule : List Move) :
    returnedCalls (run step (opened async n calls) schedule).2 ++
      ((run step (opened async n calls) schedule).1.producer.call.toList ++
        (run step (opened async n calls) schedule).1.todo) = calls := by
  refine run_induction
    (P := fun h (s : CsvSink) => returnedCalls h ++ (s.producer.call.toList ++ s.todo) = calls)
    rfl ?_ schedule
  intro h s m ih
  rw [returnedCalls_concat, List.append_assoc]
  cases hthread : m.thread with
  | producer =>
    have := calls_produce s m.io
    simp only [step, hthread]
    rw [← List.append_assoc _ _ (s.produce m.io).1.todo, this, ih]
  | writer =>
    obtain ⟨hproducer, htodo⟩ := todo_consume s m.io
    simp only [step, hthread, hproducer, htodo, Option.toList_none, List.nil_append]
    exact ih

/-! ## The records that have been written -/

/-- The records after a step of the producer that makes `call` return. -/
def grown (s : CsvSink) (all : List Bytes) (call : Option SinkCall) : List Bytes :=
  all ++ if s.isOpen then writtenRecords call.toList else []

lemma grown_none (s : CsvSink) (all : List Bytes) : s.grown all none = all := by
  simp [grown, writtenRecords]

lemma grown_of_ne (s : CsvSink) (all : List Bytes) {call : SinkCall} (h : ∀ p, call ≠ .write p) :
    s.grown all (some call) = all := by
  cases call with
  | write p => exact absurd rfl (h p)
  | flush => simp [grown, writtenRecords]
  | close => simp [grown, writtenRecords]

lemma isOpen_produce (s : CsvSink) (io : IoOutcome) :
    (s.produce io).1.isOpen = true ↔ s.isOpen = true ∧ (s.produce io).2 ≠ some .close := by
  cases hplace : s.producer with
  | idle =>
    simp only [produce, hplace, begin]
    cases s.todo with
    | nil => simp
    | cons call rest => by_cases hopen : s.isOpen = false <;> simp [hopen, returned]
  | tryWrite p w =>
    simp only [produce, hplace]
    rcases s.ring.tryWrite p w with ⟨ring, w' | b⟩
    · simp
    · cases b <;> simp [returned]
  | fwrite p | loadWerr p | loadFlushReq | join =>
    simp only [produce, hplace]
    split_ifs <;> simp [returned]
  | storeWerr p | storeFlushReq | fflush | storeStop | lastFlush | fclose =>
    simp [produce, hplace, returned]

lemma isOpen_consume (s : CsvSink) (io : IoOutcome) : (s.consume io).isOpen = s.isOpen := by
  rw [consume]
  split
  case h_1 => split <;> rfl
  all_goals first | rfl | (split <;> rfl)

/-- What holds of the records that have been written and of the sink, and survives every step of
both threads, holds after every run. -/
lemma records_induction {P : List Bytes → CsvSink → Prop} {s : CsvSink} (init : P [] s)
    (hopen : s.isOpen = true)
    (produce : ∀ all t io, P all t → P (t.grown all (t.produce io).2) (t.produce io).1)
    (consume : ∀ all t io, P all t → P all (t.consume io)) (schedule : List Move) :
    P (writtenRecords (returnedCalls (run step s schedule).2)) (run step s schedule).1 := by
  suffices h : ((run step s schedule).1.isOpen = true ↔
      .close ∉ returnedCalls (run step s schedule).2) ∧
      P (writtenRecords (returnedCalls (run step s schedule).2)) (run step s schedule).1 from h.2
  refine run_induction (P := fun h (t : CsvSink) => (t.isOpen = true ↔ .close ∉ returnedCalls h) ∧
    P (writtenRecords (returnedCalls h)) t) ⟨by simp [hopen, returnedCalls], init⟩ ?_ schedule
  rintro h t m ⟨hclosed, ih⟩
  rw [returnedCalls_concat]
  cases hthread : m.thread with
  | producer =>
    have hnext := produce _ t m.io ih
    have hclosed' := isOpen_produce t m.io
    simp only [step, hthread]
    refine ⟨?_, ?_⟩
    · rw [hclosed', hclosed, List.mem_append, not_or, Option.mem_toList, ne_eq]
    · rw [grown] at hnext
      by_cases ht : t.isOpen = true
      · rw [if_pos ht] at hnext
        rwa [writtenRecords_append (hclosed.mp ht)]
      · have hmem := not_not.mp (mt hclosed.mpr ht)
        rw [if_neg ht, List.append_nil] at hnext
        rwa [writtenRecords_append_of_closed hmem]
  | writer =>
    simp only [step, hthread, Option.toList_none, List.append_nil, isOpen_consume]
    exact ⟨hclosed, consume _ t m.io ih⟩

end CsvSink

end LobCapture
