/-
# The sink under release and acquire

The two threads of `CsvSink` in asynchronous mode, with the memory orders of the source, take the
steps of `CsvSink.step`, and every load may return an older store.  Besides the ring they share the
`FILE`, which the producer touches only after it has joined the writer, and three flags.

A request to flush reaches the writer with all that the producer knew when it made the request,
and so the writer cannot take the ring for empty while a record is left that was written before;
the same goes for `stop_`.  The answer brings back what the writer knew, `werr_` included.

`werr_` is used with the default order of the source, which is stronger than the one here.
-/
import LobCapture.Sink.WeakRing

namespace LobCapture

open Lib

/-! ## Steps -/

/-- The sink and its threads. -/
structure WeakSink where
  memory : SinkMemory := .new
  mask : ℕ
  async : Bool
  producer : Producer := .idle
  writer : Writer
  /-- The calls the producer has still to make. -/
  todo : List SinkCall

/-- A step, with the store that is asked for if there is a load. -/
structure WeakMove extends Move where
  load : ℕ := 0
deriving DecidableEq, Repr

/-- A call of stdio.  It reads `f_`, and it may do anything to the file. -/
def SinkMemory.useFile (m : SinkMemory) (t : Thread) (f : File → File) : SinkMemory :=
  (m.read t .isOpen).1.modify t .file f

def SinkMemory.file (m : SinkMemory) : File := (m.cell .file).value

namespace WeakSink

/-- The sink after `open`. -/
def opened (async : Bool) (ringPow2 : ℕ) (calls : List SinkCall) : WeakSink where
  mask := ringPow2 - 1
  async := async
  writer := if async then .drain .loadHead else .exited
  todo := calls

/-- The call of the producer returns. -/
def returned (s : WeakSink) (call : SinkCall) : WeakSink × Option SinkCall :=
  ({ s with producer := .idle }, some call)

/-- The next call begins. -/
def begin (s : WeakSink) : WeakSink × Option SinkCall :=
  match s.todo with
  | [] => (s, none)
  | call :: rest =>
    let (m, isOpen) := s.memory.read .producer .isOpen
    let s := { s with memory := m, todo := rest }
    if isOpen = false then s.returned call
    else
      let place : Producer :=
        match call with
        | .write p => if s.async then .tryWrite p .loadTail else .fwrite p
        | .flush => if s.async then .storeFlushReq else .fflush
        | .close => if s.async then .storeStop else .lastFlush
      ({ s with producer := place }, none)

/-- A step of the producer, with the call that returns. -/
def produce (s : WeakSink) (io : IoOutcome) (load : ℕ) : WeakSink × Option SinkCall :=
  match s.producer with
  | .idle => s.begin
  | .tryWrite p w =>
    match s.memory.tryWrite s.mask load p w with
    | (m, .inl w) => ({ s with memory := m, producer := .tryWrite p w }, none)
    | (m, .inr false) => ({ s with memory := m, producer := .tryWrite p .loadTail }, none)
    | (m, .inr true) => { s with memory := m }.returned (.write p)
  | .fwrite p =>
    let n := (s.memory.file.fwrite p io).2
    let m := s.memory.useFile .producer fun f => (f.fwrite p io).1
    if n ≠ p.length then ({ s with memory := m, producer := .loadWerr p }, none)
    else { s with memory := m }.returned (.write p)
  | .loadWerr p =>
    let (m, werr) := s.memory.loadAcquire .producer .werr load
    if werr then { s with memory := m }.returned (.write p)
    else ({ s with memory := m, producer := .storeWerr p }, none)
  | .storeWerr p =>
    { s with memory := s.memory.storeRelease .producer .werr true }.returned (.write p)
  | .storeFlushReq =>
    ({ s with
      memory := s.memory.storeRelease .producer .flushReq true, producer := .loadFlushReq }, none)
  | .loadFlushReq =>
    let (m, flushReq) := s.memory.loadAcquire .producer .flushReq load
    if flushReq then ({ s with memory := m }, none) else { s with memory := m }.returned .flush
  | .fflush =>
    { s with memory := s.memory.useFile .producer fun f => (f.fflush io).1 }.returned .flush
  | .storeStop =>
    ({ s with memory := s.memory.storeRelease .producer .stop true, producer := .join }, none)
  | .join =>
    if s.writer = .exited then
      ({ s with memory := s.memory.join .producer .writer, producer := .lastFlush }, none)
    else (s, none)
  | .lastFlush =>
    ({ s with
      memory := s.memory.useFile .producer fun f => (f.fflush io).1, producer := .fclose }, none)
  | .fclose =>
    let m := s.memory.useFile .producer fun f => (f.fflush io).1
    { s with memory := m.modify .producer .isOpen fun _ => false }.returned .close

/-- A step of the writer thread. -/
def consume (s : WeakSink) (io : IoOutcome) (load : ℕ) : WeakSink :=
  match s.writer with
  | .drain d =>
    match s.memory.drain s.mask load d with
    | (m, .next d) => { s with memory := m, writer := .drain d }
    | (m, .record p d) =>
      let n := (m.file.fwrite p io).2
      { s with
        memory := m.useFile .writer fun f => (f.fwrite p io).1
        writer := if n ≠ p.length then .loadWerr d else .drain d }
    | (m, .done n) => { s with memory := m, writer := .loadFlushReq n }
  | .loadWerr d =>
    let (m, werr) := s.memory.loadAcquire .writer .werr load
    { s with memory := m, writer := if werr then .drain d else .storeWerr d }
  | .storeWerr d =>
    { s with memory := s.memory.storeRelease .writer .werr true, writer := .drain d }
  | .loadFlushReq n =>
    let (m, flushReq) := s.memory.loadAcquire .writer .flushReq load
    { s with
      memory := m
      writer := if flushReq then .flushEmpty n .loadHead else CsvSink.afterFlush n }
  | .flushEmpty n e =>
    match s.memory.empty load e with
    | (m, .inl e) => { s with memory := m, writer := .flushEmpty n e }
    | (m, .inr b) => { s with memory := m, writer := if b then .fflush n else CsvSink.afterFlush n }
  | .fflush n =>
    { s with
      memory := s.memory.useFile .writer fun f => (f.fflush io).1, writer := .clearFlushReq n }
  | .clearFlushReq n =>
    { s with
      memory := s.memory.storeRelease .writer .flushReq false, writer := CsvSink.afterFlush n }
  | .loadStop =>
    let (m, stop) := s.memory.loadAcquire .writer .stop load
    { s with memory := m, writer := if stop then .stopEmpty .loadHead else .drain .loadHead }
  | .stopEmpty e =>
    match s.memory.empty load e with
    | (m, .inl e) => { s with memory := m, writer := .stopEmpty e }
    | (m, .inr b) => { s with memory := m, writer := if b then .exited else .drain .loadHead }
  | .exited => s

/-- A step of one of the threads. -/
def step (s : WeakSink) (m : WeakMove) : WeakSink × Option SinkCall :=
  match m.thread with
  | .producer => s.produce m.io m.load
  | .writer => (s.consume m.io m.load, none)

/-- `failed`, called by the producer. -/
def failed (s : WeakSink) (load : ℕ) : Bool := (s.memory.loadAcquire .producer .werr load).2

end WeakSink

/-! ## Calls of stdio -/

namespace SinkMemory

variable {m : SinkMemory} {t : Thread} {f : File → File}

@[simp] lemma atomic_useFile : (m.useFile t f).atomic = m.atomic := rfl

@[simp] lemma file_useFile : (m.useFile t f).file = f m.file := by
  rw [useFile, file, Memory.value_modify, Memory.value_read]
  rfl

@[simp] lemma isOpen_useFile :
    ((m.useFile t f).cell .isOpen).value = (m.cell .isOpen).value := by
  rw [useFile, Memory.cell_modify_of_ne (by decide), Memory.value_read]

lemma slot_useFile (i : ℕ) : (m.useFile t f).cell (.slot i) = m.cell (.slot i) := by
  rw [useFile, Memory.cell_modify_of_ne (by simp), Memory.cell_read_of_ne (by simp)]

lemma view_le_useFile (u : Thread) : m.view u ≤ (m.useFile t f).view u :=
  View.le_trans (Memory.view_le_read u) (Memory.view_le_modify u)

lemma coherent_useFile (h : m.Coherent) : (m.useFile t f).Coherent := h.read.modify

lemma undefined_useFile (h : m.undefined = false)
    (hpointer : (m.cell .isOpen).ReadOk (m.view t).known)
    (hfile : (m.cell .file).WriteOk (m.view t).known) : (m.useFile t f).undefined = false := by
  refine Memory.undefined_modify (Memory.undefined_read h hpointer) fun u => ?_
  rw [Memory.cell_read_of_ne (by decide)]
  have hle := (Memory.view_le_read (m := m) (t := t) (k := .isOpen) t).2 u
  exact ⟨(hfile u).1.trans hle, (hfile u).2.trans hle⟩

end SinkMemory

/-! ## The sequence of the calls -/

namespace WeakSink

/-- The calls that have returned, in a history. -/
def returnedCalls (history : List (WeakMove × Option SinkCall)) : List SinkCall :=
  history.filterMap Prod.snd

lemma returnedCalls_concat (history : List (WeakMove × Option SinkCall)) (m : WeakMove)
    (call : Option SinkCall) :
    returnedCalls (history ++ [(m, call)]) = returnedCalls history ++ call.toList := by
  cases call <;> simp [returnedCalls]

/-- No call is left out, and none is made twice. -/
lemma calls_produce (s : WeakSink) (io : IoOutcome) (load : ℕ) :
    (s.produce io load).2.toList ++ (s.produce io load).1.producer.call.toList ++
      (s.produce io load).1.todo = s.producer.call.toList ++ s.todo := by
  cases hplace : s.producer with
  | idle =>
    simp only [produce, hplace, begin]
    cases htodo : s.todo with
    | nil => simp [hplace, htodo]
    | cons call rest =>
      by_cases hopen : (s.memory.read .producer .isOpen).2 = false
      · simp [hopen, returned, Producer.call]
      · cases call <;> cases hasync : s.async <;> simp [hopen, Producer.call]
  | tryWrite p w =>
    simp only [produce, hplace]
    rcases s.memory.tryWrite s.mask load p w with ⟨m, w' | b⟩
    · simp [Producer.call]
    · cases b <;> simp [returned, Producer.call]
  | fwrite p | loadWerr p =>
    simp only [produce, hplace]
    split_ifs <;> simp [returned, Producer.call]
  | loadFlushReq | join =>
    simp only [produce, hplace]
    split_ifs <;> simp [returned, Producer.call, hplace]
  | storeWerr p | storeFlushReq | fflush | storeStop | lastFlush | fclose =>
    simp [produce, hplace, returned, Producer.call]

lemma todo_consume (s : WeakSink) (io : IoOutcome) (load : ℕ) :
    (s.consume io load).producer = s.producer ∧ (s.consume io load).todo = s.todo := by
  rw [consume]
  split
  case h_1 => split <;> exact ⟨rfl, rfl⟩
  all_goals first | exact ⟨rfl, rfl⟩ | (split <;> exact ⟨rfl, rfl⟩)

/-! ### The file stays open until `close` returns -/

lemma isOpen_tryWrite (m : SinkMemory) (mask load : ℕ) (p : Bytes) (w : TryWrite) :
    (m.tryWrite mask load p w).1.cell .isOpen = m.cell .isOpen := by
  cases w with
  | loadTail | storeTail t => rfl
  | loadHead t =>
    simp only [SinkMemory.tryWrite]
    split_ifs <;> rfl
  | assign t =>
    simp only [SinkMemory.tryWrite]
    rw [Memory.cell_modify_of_ne (by simp)]
    rfl

lemma isOpen_drain (m : SinkMemory) (mask load : ℕ) (d : Drain) :
    (m.drain mask load d).1.cell .isOpen = m.cell .isOpen := by
  cases d with
  | loadHead | loadTail h => rfl
  | loop h t count =>
    simp only [SinkMemory.drain]
    split_ifs
    · rw [Memory.cell_read_of_ne (by simp)]
      rfl
    · rfl
    · rfl

lemma isOpen_empty (m : SinkMemory) (load : ℕ) (e : EmptyCheck) :
    (m.empty load e).1.cell .isOpen = m.cell .isOpen := by
  cases e <;> rfl

lemma isOpen_produce (s : WeakSink) (io : IoOutcome) (load : ℕ) :
    ((s.produce io load).1.memory.cell .isOpen).value = true ↔
      (s.memory.cell .isOpen).value = true ∧ (s.produce io load).2 ≠ some .close := by
  cases hplace : s.producer with
  | idle =>
    simp only [produce, hplace, begin]
    cases s.todo with
    | nil => simp
    | cons call rest =>
      have hread : (s.memory.read .producer .isOpen).2 = (s.memory.cell .isOpen).value := rfl
      by_cases hopen : (s.memory.cell .isOpen).value = false <;> simp [hread, hopen, returned]
  | tryWrite p w =>
    have hisOpen := isOpen_tryWrite s.memory s.mask load p w
    simp only [produce, hplace]
    rcases htry : s.memory.tryWrite s.mask load p w with ⟨m, w' | b⟩
    all_goals
      rw [htry] at hisOpen
      dsimp only at hisOpen
    · simp [hisOpen]
    · cases b <;> simp [returned, hisOpen]
  | fwrite p | loadWerr p | loadFlushReq | join =>
    simp only [produce, hplace]
    split_ifs <;> simp [returned]
  | storeWerr p | storeFlushReq | fflush | storeStop | lastFlush | fclose =>
    simp [produce, hplace, returned]

lemma isOpen_consume (s : WeakSink) (io : IoOutcome) (load : ℕ) :
    ((s.consume io load).memory.cell .isOpen).value = (s.memory.cell .isOpen).value := by
  cases hplace : s.writer with
  | drain d =>
    have hisOpen := isOpen_drain s.memory s.mask load d
    simp only [consume, hplace]
    rcases hdrain : s.memory.drain s.mask load d with ⟨m, d' | ⟨p, d'⟩ | n⟩
    all_goals
      rw [hdrain] at hisOpen
      simp [← hisOpen]
  | flushEmpty n e | stopEmpty e =>
    have hisOpen := isOpen_empty s.memory load e
    simp only [consume, hplace]
    rcases hempty : s.memory.empty load e with ⟨m, e' | b⟩
    all_goals
      rw [hempty] at hisOpen
      simp [← hisOpen]
  | loadWerr d | storeWerr d | loadFlushReq n | fflush n | clearFlushReq n | loadStop | exited =>
    simp [consume, hplace]

end WeakSink

end LobCapture
