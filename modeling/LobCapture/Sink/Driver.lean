/-
# A thread that writes to several sinks

`run_shard` and `run_replay` are the producer of several sinks at once, each with a writer thread
of its own.  An `fwrite` that comes short is noted in the flag of its sink before a `flush` of this
sink returns, nothing is written after the last `flush`, and so a `failed()` that is called after
it sees every short `fwrite`.
-/
import LobCapture.Sink.Errors

namespace LobCapture

open Lib

/-! ## Short writes of a sink -/

namespace CsvSink

/-- The step calls `fwrite`, and it comes short. -/
def comesShort (s : CsvSink) (m : Move) : Bool :=
  match m.thread with
  | .producer =>
    match s.producer with
    | .fwrite p => (s.file.fwrite p m.io).2 ≠ p.length
    | _ => false
  | .writer =>
    match s.writer with
    | .drain d =>
      match (s.ring.drain d).2 with
      | .record p _ => (s.file.fwrite p m.io).2 ≠ p.length
      | _ => false
    | _ => false

/-- A short `fwrite` is noted or being noted, and it is noted when a `flush` is about to return. -/
structure Noted (short : Bool) (s : CsvSink) : Prop where
  noted : short = true → s.failed = true ∨ s.producer.Reporting ∨ s.writer.Reporting
  answered : s.producer = .loadFlushReq → s.flushReq = false → ¬ s.writer.Reporting

/-- Everything that was written has been passed to `fwrite`, and no call is under way. -/
def Quiet (s : CsvSink) : Prop :=
  s.producer = .idle ∧ ((∃ k all freed, s.Sound k all freed all.length) ∨ ∃ all, s.Inline all)

variable {s : CsvSink} {short : Bool}

/-- What a step of the producer leaves alone. -/
lemma produce_frame (s : CsvSink) (io : IoOutcome) :
    (s.produce io).1.writer = s.writer ∧ (s.failed = true → (s.produce io).1.failed = true) := by
  cases hplace : s.producer with
  | idle =>
    simp only [produce, hplace, begin]
    cases s.todo with
    | nil => exact ⟨rfl, id⟩
    | cons call rest => by_cases hopen : s.isOpen = false <;> simp [hopen, returned, failed]
  | tryWrite p w =>
    simp only [produce, hplace]
    rcases s.ring.tryWrite p w with ⟨ring, w' | b⟩
    · exact ⟨rfl, id⟩
    · cases b <;> exact ⟨rfl, id⟩
  | fwrite p | loadWerr p | loadFlushReq | join =>
    simp only [produce, hplace]
    split <;> exact ⟨rfl, id⟩
  | storeWerr p =>
    simp only [produce, hplace]
    exact ⟨rfl, fun _ => rfl⟩
  | storeFlushReq | fflush | storeStop | lastFlush | fclose =>
    simp [produce, hplace, returned, failed]

/-- The flag stays set. -/
lemma failed_consume (h : s.failed = true) (io : IoOutcome) : (s.consume io).failed = true := by
  rw [consume]
  split
  case h_1 => split <;> exact h
  case h_3 => rfl
  all_goals first | exact h | (split <;> exact h)

lemma noted_opened (async : Bool) (n : ℕ) (calls : List SinkCall) :
    (opened async n calls).Noted false where
  noted h := absurd h Bool.false_ne_true
  answered h := absurd h (by simp [opened])

/-- A step of the producer. -/
lemma Noted.produce (h : s.Noted short) {m : Move} (hm : m.thread = .producer) :
    (s.produce m.io).1.Noted (short || s.comesShort m) := by
  obtain ⟨hwriter, hsticky⟩ := produce_frame s m.io
  constructor
  · intro hshort
    rw [hwriter]
    rw [comesShort, hm] at hshort
    cases hplace : s.producer with
    | fwrite p =>
      simp only [hplace, Bool.or_eq_true, decide_eq_true_eq] at hshort
      by_cases hlen : (s.file.fwrite p m.io).2 ≠ p.length
      · simp only [CsvSink.produce, hplace, if_pos hlen]
        exact .inr (.inl trivial)
      · rcases h.noted (hshort.resolve_right hlen) with hn | hn | hn
        · exact .inl (hsticky hn)
        · rw [hplace] at hn
          exact hn.elim
        · exact .inr (.inr hn)
    | loadWerr p =>
      simp only [CsvSink.produce, hplace]
      by_cases hfailed : s.werr = true
      · exact .inl (by rw [if_pos hfailed]; exact hfailed)
      · exact .inr (.inl (by rw [if_neg hfailed]; trivial))
    | storeWerr p =>
      simp only [CsvSink.produce, hplace]
      exact .inl rfl
    | idle | tryWrite p w | storeFlushReq | loadFlushReq | fflush | storeStop | join | lastFlush
    | fclose =>
      simp only [hplace, Bool.or_false] at hshort
      rcases h.noted hshort with hn | hn | hn
      · exact .inl (hsticky hn)
      · rw [hplace] at hn
        exact hn.elim
      · exact .inr (.inr hn)
  · -- the request is made, and not answered yet
    intro hp hreq
    cases hplace : s.producer with
    | loadFlushReq =>
      rw [hwriter]
      refine h.answered hplace ?_
      simp only [CsvSink.produce, hplace] at hp hreq
      split_ifs at hp hreq with hs
      · exact hreq
      · simp [returned] at hp
    | storeFlushReq => simp [CsvSink.produce, hplace] at hreq
    | idle =>
      simp only [CsvSink.produce, hplace, CsvSink.begin] at hp
      cases htodo : s.todo with
      | nil => simp [htodo, hplace] at hp
      | cons call rest =>
        by_cases hopen : s.isOpen = false
        · simp [htodo, hopen, returned] at hp
        · cases call <;> cases hasync : s.async <;> simp [htodo, hopen, hasync] at hp
    | tryWrite p w =>
      simp only [CsvSink.produce, hplace] at hp
      rcases htry : s.ring.tryWrite p w with ⟨ring, w' | b⟩
      · simp [htry] at hp
      · cases b <;> simp [htry, returned] at hp
    | fwrite p | loadWerr p | join =>
      simp only [CsvSink.produce, hplace] at hp
      split_ifs at hp
      all_goals simp [returned, hplace] at hp
    | storeWerr p | fflush | storeStop | lastFlush | fclose =>
      simp [CsvSink.produce, hplace, returned] at hp

/-- The writer goes on, with nothing to note. -/
lemma Noted.goOn (h : s.Noted short) {io : IoOutcome} (hreport : ¬ s.writer.Reporting)
    (hreport' : ¬ (s.consume io).writer.Reporting) : (s.consume io).Noted short := by
  obtain ⟨hproducer, -⟩ := todo_consume s io
  refine ⟨fun hshort => ?_, fun _ _ => hreport'⟩
  rcases h.noted hshort with hn | hn | hn
  · exact .inl (failed_consume hn io)
  · exact .inr (.inl (hproducer ▸ hn))
  · exact absurd hn hreport

lemma not_reporting_afterFlush (n : ℕ) : ¬ (afterFlush n).Reporting := by
  rw [afterFlush]
  split_ifs <;> exact not_false

/-- When everything was passed on, there is no record to be drained. -/
lemma Sound.no_record {k freed : ℕ} {all : List Bytes} (h : s.Sound k all freed all.length)
    {d : Drain} (hplace : s.writer = .drain d) (p : Bytes) (d' : Drain) :
    (s.ring.drain d).2 ≠ .record p d' := by
  intro hrecord
  have hd : d.At k all.length freed all.length := by simpa [hplace, Writer.At] using h.writer
  have hring := h.holds.drain hd
  rcases hstep : s.ring.drain d with ⟨ring, step⟩
  rw [hstep] at hring hrecord
  obtain rfl : step = .record p d' := hrecord
  exact absurd hring.2.1 (by simp)

/-- A step of the writer. -/
lemma Noted.consume (h : s.Noted short) {k : ℕ} {all : List Bytes} (hs : s.Regular k all)
    {m : Move} (hm : m.thread = .writer) :
    (s.consume m.io).Noted (short || s.comesShort m) := by
  obtain ⟨hproducer, -⟩ := todo_consume s m.io
  rw [comesShort, hm]
  cases hplace : s.writer with
  | drain d =>
    have hreport : ¬ s.writer.Reporting := by simp [hplace, Writer.Reporting]
    rcases hstep : s.ring.drain d with ⟨ring, d' | ⟨p, d'⟩ | n⟩
    · simp only [hstep, Bool.or_false]
      exact h.goOn hreport (by simp [CsvSink.consume, hplace, hstep, Writer.Reporting])
    · simp only [hstep]
      by_cases hshort : (s.file.fwrite p m.io).2 ≠ p.length
      · have hw : (s.consume m.io).writer = .loadWerr d' := by
          simp [CsvSink.consume, hplace, hstep, hshort]
        refine ⟨fun _ => .inr (.inr (by rw [hw]; trivial)), fun hp hreq => ?_⟩
        -- no record is left when the request was answered
        have hreq' : s.flushReq = false := by
          simpa [CsvSink.consume, hplace, hstep] using hreq
        rcases hs with ⟨freed, drained, hs⟩ | hs
        · obtain rfl := hs.answered (hproducer ▸ hp) hreq'
          exact absurd (by rw [hstep]) (hs.no_record hplace p d')
        · exact absurd hs.writer (by simp [hplace])
      · simp only [hshort, decide_false, Bool.or_false]
        refine h.goOn hreport ?_
        simp only [CsvSink.consume, hplace, hstep, if_neg hshort]
        exact not_false
    · simp only [hstep, Bool.or_false]
      exact h.goOn hreport (by simp [CsvSink.consume, hplace, hstep, Writer.Reporting])
  | loadWerr d =>
    have hreport : s.writer.Reporting := by simp [hplace, Writer.Reporting]
    refine ⟨fun _ => ?_, fun hp hreq => absurd hreport (h.answered (hproducer ▸ hp) ?_)⟩
    · simp only [CsvSink.consume, hplace]
      by_cases hfailed : s.werr = true
      · exact .inl hfailed
      · exact .inr (.inr (by rw [if_neg hfailed]; trivial))
    · simpa [CsvSink.consume, hplace] using hreq
  | storeWerr d =>
    have hreport : s.writer.Reporting := by simp [hplace, Writer.Reporting]
    refine ⟨fun _ => .inl (by simp only [CsvSink.consume, hplace]; rfl),
      fun hp hreq => absurd hreport (h.answered (hproducer ▸ hp) ?_)⟩
    simpa [CsvSink.consume, hplace] using hreq
  | loadFlushReq n =>
    simp only [Bool.or_false]
    refine h.goOn (by simp [hplace, Writer.Reporting]) ?_
    simp only [CsvSink.consume, hplace]
    split_ifs
    · exact not_false
    · exact not_reporting_afterFlush n
  | flushEmpty n e =>
    simp only [Bool.or_false]
    refine h.goOn (by simp [hplace, Writer.Reporting]) ?_
    simp only [CsvSink.consume, hplace]
    rcases s.ring.empty e with e' | b
    · exact not_false
    · cases b with
      | true => exact not_false
      | false => exact not_reporting_afterFlush n
  | clearFlushReq n =>
    simp only [Bool.or_false]
    refine h.goOn (by simp [hplace, Writer.Reporting]) ?_
    simp only [CsvSink.consume, hplace]
    exact not_reporting_afterFlush n
  | loadStop =>
    simp only [Bool.or_false]
    refine h.goOn (by simp [hplace, Writer.Reporting]) ?_
    simp only [CsvSink.consume, hplace]
    split_ifs <;> exact not_false
  | stopEmpty e =>
    simp only [Bool.or_false]
    refine h.goOn (by simp [hplace, Writer.Reporting]) ?_
    simp only [CsvSink.consume, hplace]
    rcases s.ring.empty e with e' | b
    · exact not_false
    · cases b <;> exact not_false
  | fflush n | exited =>
    simp only [Bool.or_false]
    refine h.goOn (by simp [hplace, Writer.Reporting]) ?_
    simp [CsvSink.consume, hplace, Writer.Reporting]

/-- When a `flush` returns, a short `fwrite` is noted, and everything has been passed on. -/
lemma Noted.flush (h : s.Noted short) {k : ℕ} {all : List Bytes} (hs : s.Regular k all)
    {io : IoOutcome} (hflush : (s.produce io).2 = some .flush) :
    (s.produce io).1.Quiet ∧ (short = true → (s.produce io).1.failed = true) := by
  have hidle := idle_of_returned hflush
  refine ⟨⟨hidle, ?_⟩, fun hshort => ?_⟩
  · rcases hs with ⟨freed, drained, hs⟩ | hs
    · obtain ⟨hsound, hdrained⟩ := hs.produce io
      rw [hflush, grown_of_ne _ _ (by simp)] at hsound
      obtain rfl := hdrained (.inl hflush)
      exact .inl ⟨k, all, freed, hsound⟩
    · exact .inr ⟨_, hs.produce io⟩
  · -- nobody is about to note it
    suffices hreport : ¬ s.producer.Reporting ∧ ¬ s.writer.Reporting from
      (produce_frame s io).2 ((h.noted hshort).resolve_right (not_or.mpr hreport))
    have hexited : s.writer = .exited → ¬ s.writer.Reporting := by
      intro hw
      rw [hw]
      exact not_false
    cases hplace : s.producer with
    | idle =>
      refine ⟨not_false, hexited ?_⟩
      have hopen : s.isOpen = false := by
        simp only [CsvSink.produce, hplace, CsvSink.begin] at hflush
        by_contra hopen
        cases htodo : s.todo <;> simp [htodo, hopen] at hflush
      rcases hs with ⟨freed, drained, hs⟩ | hs
      · exact (hs.closed hopen).2
      · exact hs.writer
    | loadFlushReq =>
      refine ⟨not_false, h.answered hplace (Bool.eq_false_iff.mpr fun hreq => ?_)⟩
      simp [CsvSink.produce, hplace, hreq] at hflush
    | fflush => exact ⟨not_false, hexited (hs.exited (by simp [hplace, Producer.UsesFile]))⟩
    | storeFlushReq => simp [CsvSink.produce, hplace] at hflush
    | tryWrite p w | fwrite p | loadWerr p | storeWerr p | storeStop | join | lastFlush | fclose =>
      -- another call is going on
      have := CsvSink.call_of_returned hflush (by simp [hplace])
      simp [hplace, Producer.call] at this

lemma comesShort_of_flush {io : IoOutcome} (hflush : (s.produce io).2 = some .flush) :
    s.comesShort ⟨.producer, io⟩ = false := by
  rw [comesShort]
  cases hplace : s.producer with
  | fwrite p =>
    have := call_of_returned hflush (by simp [hplace])
    simp [hplace, Producer.call] at this
  | _ => rfl

/-- A quiet sink stays quiet. -/
lemma Quiet.consume (h : s.Quiet) (m : Move) (hm : m.thread = .writer) :
    (s.consume m.io).Quiet ∧ s.comesShort m = false := by
  obtain ⟨hidle, hs⟩ := h
  have hproducer := (todo_consume s m.io).1
  rw [comesShort, hm]
  rcases hs with ⟨k, all, freed, hs⟩ | ⟨all, hs⟩
  · refine ⟨⟨hproducer.trans hidle, .inl ?_⟩, ?_⟩
    · obtain ⟨freed', drained', hle, hs'⟩ := hs.consume m.io
      obtain rfl := Nat.le_antisymm hs'.drained_le hle
      exact ⟨k, all, freed', hs'⟩
    · cases hplace : s.writer with
      | drain d =>
        have hno := hs.no_record hplace
        rcases hstep : s.ring.drain d with ⟨ring, d' | ⟨p, d'⟩ | n⟩
        · simp [hstep]
        · exact absurd (by rw [hstep]) (hno p d')
        · simp [hstep]
      | _ => rfl
  · exact ⟨⟨hproducer.trans hidle, .inr ⟨all, hs.consume m.io⟩⟩, by rw [hs.writer]⟩

end CsvSink

/-! ## The thread -/

/-- What the thread does with the sinks: calls, and looking at `failed()`. -/
inductive DriverOp (ι : Type)
  | call (i : ι) (c : SinkCall)
  | check (i : ι)
deriving DecidableEq

/-- The sinks, what the thread has still to do, the operation under way included, and whether it
has seen no error. -/
structure Driver (ι : Type) where
  sinks : ι → CsvSink
  ops : List (DriverOp ι)
  wroteOk : Bool := true

/-- A step of the thread, or of the writer of a sink. -/
inductive DriverMove (ι : Type)
  | driver (io : IoOutcome)
  | writer (i : ι) (io : IoOutcome)

variable {ι : Type}

/-- The calls that are made to a sink. -/
def callsTo [DecidableEq ι] (i : ι) (ops : List (DriverOp ι)) : List SinkCall :=
  ops.filterMap fun op => match op with
    | .call j c => if j = i then some c else none
    | .check _ => none

namespace Driver

variable [DecidableEq ι]

/-- The sinks are opened, with or without a writer thread, and with rings of `2 ^ (mode i).2`
slots.  The thread is going to make the calls in `ops`. -/
def new (mode : ι → Bool × ℕ) (ops : List (DriverOp ι)) : Driver ι where
  sinks i := .opened (mode i).1 (2 ^ (mode i).2) (callsTo i ops)
  ops := ops

/-- A step, with the sink of which an `fwrite` comes short in it.  The call that `produce` begins is
the one of the operation, since the sink has its calls in the same order. -/
def step (s : Driver ι) : DriverMove ι → Driver ι × Option ι
  | .driver io =>
    match s.ops with
    | [] => (s, none)
    | .check i :: ops =>
      ({ s with ops := ops, wroteOk := s.wroteOk && !(s.sinks i).failed }, none)
    | .call i c :: ops =>
      let (sink, returned) := (s.sinks i).produce io
      ({ s with
          sinks := fun j => if j = i then sink else s.sinks j
          ops := if returned.isSome then ops else .call i c :: ops },
        if (s.sinks i).comesShort ⟨.producer, io⟩ then some i else none)
  | .writer i io =>
    ({ s with sinks := fun j => if j = i then (s.sinks i).consume io else s.sinks j },
      if (s.sinks i).comesShort ⟨.writer, io⟩ then some i else none)

end Driver

/-! ## The last check -/

/-- No call to the sink is left. -/
def NoCall (i : ι) (ops : List (DriverOp ι)) : Prop := ∀ c, .call i c ∉ ops

/-- The last call to the sink is a `flush`, and its flag is looked at afterwards. -/
def Finishes (i : ι) (ops : List (DriverOp ι)) : Prop :=
  ∃ pre post, ops = pre ++ .call i .flush :: post ∧ .check i ∈ post ∧ NoCall i post

/-- An operation that is no call to the sink. -/
lemma Finishes.tail {i : ι} {ops : List (DriverOp ι)} {op : DriverOp ι}
    (h : Finishes i (op :: ops)) (hop : ∀ c, op ≠ .call i c) : Finishes i ops := by
  obtain ⟨pre, post, hops, hcheck, hno⟩ := h
  cases pre with
  | nil => exact absurd (List.cons.inj hops).1 (hop _)
  | cons op' pre => exact ⟨pre, post, (List.cons.inj hops).2, hcheck, hno⟩

lemma NoCall.tail {i : ι} {ops : List (DriverOp ι)} {op : DriverOp ι} (h : NoCall i (op :: ops)) :
    NoCall i ops :=
  fun c hc => h c (List.mem_cons_of_mem _ hc)

variable [DecidableEq ι]

/-- What holds of one sink after a run in which an `fwrite` of it has come short or not. -/
structure Driver.Watched (i : ι) (short : Bool) (s : Driver ι) : Prop where
  regular : ∃ k all, (s.sinks i).Regular k all
  noted : (s.sinks i).Noted short
  calls : (s.sinks i).producer.call.toList ++ (s.sinks i).todo = callsTo i s.ops
  finishes : Finishes i s.ops ∨ NoCall i s.ops ∧ (s.sinks i).Quiet ∧
    (short = true → (s.sinks i).failed = true) ∧
      (.check i ∈ s.ops ∨ (short = true → s.wroteOk = false))

section Watched

variable {i : ι} {short : Bool} {s : Driver ι} {ops : List (DriverOp ι)}

@[simp] lemma callsTo_call_self (c : SinkCall) :
    callsTo i (.call i c :: ops) = c :: callsTo i ops :=
  List.filterMap_cons_some (if_pos rfl)

lemma callsTo_call_of_ne {j : ι} (h : j ≠ i) (c : SinkCall) :
    callsTo i (.call j c :: ops) = callsTo i ops :=
  List.filterMap_cons_none (if_neg h)

@[simp] lemma callsTo_check (j : ι) : callsTo i (.check j :: ops) = callsTo i ops := rfl

namespace CsvSink.Regular

variable {k : ℕ} {all : List Bytes} {s : CsvSink}

lemma produce (h : s.Regular k all) (io : IoOutcome) : ∃ all', (s.produce io).1.Regular k all' := by
  rcases h with ⟨freed, drained, h⟩ | h
  · exact ⟨_, .inl ⟨freed, drained, (h.produce io).sound⟩⟩
  · exact ⟨_, .inr (h.produce io)⟩

lemma consume (h : s.Regular k all) (io : IoOutcome) : (s.consume io).Regular k all := by
  rcases h with ⟨freed, drained, h⟩ | h
  · obtain ⟨freed', drained', -, h'⟩ := h.consume io
    exact .inl ⟨freed', drained', h'⟩
  · exact .inr (h.consume io)

end CsvSink.Regular

namespace Driver

/-- At the start, also for a sink that is never used. -/
lemma watched_new (mode : ι → Bool × ℕ) (h : Finishes i ops ∨ NoCall i ops) :
    (new mode ops).Watched i false where
  regular := ⟨(mode i).2, [], by
    show (CsvSink.opened (mode i).1 _ _).Regular _ _
    cases (mode i).1 with
    | true => exact .inl ⟨0, 0, .opened _ _⟩
    | false => exact .inr (.opened _ _)⟩
  noted := CsvSink.noted_opened _ _ _
  calls := rfl
  finishes := by
    refine h.imp id fun hno => ⟨hno, ⟨rfl, ?_⟩, fun hs => absurd hs Bool.false_ne_true,
      .inr fun hs => absurd hs Bool.false_ne_true⟩
    show (∃ k all freed, (CsvSink.opened (mode i).1 _ _).Sound k all freed all.length) ∨
      ∃ all, (CsvSink.opened (mode i).1 _ _).Inline all
    cases (mode i).1 with
    | true => exact .inl ⟨(mode i).2, [], 0, .opened _ _⟩
    | false => exact .inr ⟨[], .opened _ _⟩

/-- A step of the writer of a sink. -/
lemma Watched.writer (h : s.Watched i short) (j : ι) (io : IoOutcome) :
    (s.step (.writer j io)).1.Watched i
      (short || decide ((s.step (.writer j io)).2 = some i)) := by
  by_cases hj : j = i
  · subst hj
    obtain ⟨k, all, hregular⟩ := h.regular
    obtain ⟨hproducer, htodo⟩ := CsvSink.todo_consume (s.sinks j) io
    have hnoted := h.noted.consume hregular (m := ⟨.writer, io⟩) rfl
    have hshort : decide ((s.step (.writer j io)).2 = some j) =
        (s.sinks j).comesShort ⟨.writer, io⟩ := by
      simp only [step]
      split_ifs with hs <;> simp [hs]
    rw [hshort]
    refine ⟨⟨k, all, ?_⟩, ?_, ?_, ?_⟩
    · simpa [step] using hregular.consume io
    · simpa [step] using hnoted
    · simpa [step, hproducer, htodo] using h.calls
    · rcases h.finishes with hf | ⟨hno, hquiet, hfailed, hcheck⟩
      · exact .inl hf
      · obtain ⟨hquiet', hnone⟩ := hquiet.consume ⟨.writer, io⟩ rfl
        rw [hnone, Bool.or_false]
        refine .inr ⟨hno, by simpa [step] using hquiet', fun hs => ?_, hcheck⟩
        simpa [step] using CsvSink.failed_consume (hfailed hs) io
  · -- another sink
    have hsink : (s.step (.writer j io)).1.sinks i = s.sinks i := by
      simp [step, Ne.symm hj]
    have hshort : decide ((s.step (.writer j io)).2 = some i) = false := by
      simp only [step]
      split_ifs <;> simp [hj]
    rw [hshort, Bool.or_false]
    exact ⟨hsink ▸ h.regular, hsink ▸ h.noted, hsink ▸ h.calls, hsink ▸ h.finishes⟩

lemma step_call {j : ι} {c : SinkCall} (hops : s.ops = .call j c :: ops) (io : IoOutcome) :
    s.step (.driver io) =
      ({ s with
          sinks := fun i => if i = j then ((s.sinks j).produce io).1 else s.sinks i
          ops := if ((s.sinks j).produce io).2.isSome then ops else .call j c :: ops },
        if (s.sinks j).comesShort ⟨.producer, io⟩ then some j else none) := by
  simp only [step, hops]

/-- A step of the thread in a call to the sink. -/
lemma Watched.call (h : s.Watched i short) {c : SinkCall} (hops : s.ops = .call i c :: ops)
    (io : IoOutcome) :
    (s.step (.driver io)).1.Watched i (short || (s.sinks i).comesShort ⟨.producer, io⟩) := by
  obtain ⟨k, all, hregular⟩ := h.regular
  obtain ⟨all', hregular'⟩ := hregular.produce io
  have hcalls := CsvSink.calls_produce (s.sinks i) io
  rw [List.append_assoc, h.calls, hops, callsTo_call_self] at hcalls
  obtain ⟨pre, post, hsplit, hcheck, hno⟩ : Finishes i s.ops :=
    h.finishes.resolve_right fun hr => hr.1 c (hops ▸ List.mem_cons_self)
  rw [step_call hops]
  refine ⟨⟨k, all', by simpa using hregular'⟩,
    by simpa using h.noted.produce (m := ⟨.producer, io⟩) rfl, ?_, ?_⟩
  all_goals simp only [if_true]
  · cases hret : ((s.sinks i).produce io).2 with
    | none => simpa [hret] using hcalls
    | some c' =>
      rw [hret] at hcalls
      simpa using (List.cons.inj hcalls).2
  · cases hret : ((s.sinks i).produce io).2 with
    | none => exact .inl ⟨pre, post, hops ▸ hsplit, hcheck, hno⟩
    | some c' =>
      rw [hret] at hcalls
      obtain rfl : c' = c := (List.cons.inj hcalls).1
      rw [hops] at hsplit
      cases pre with
      | nil =>
        -- the last call, and it returns
        obtain ⟨hcall, rfl⟩ := List.cons.inj hsplit
        obtain rfl : c' = .flush := by simpa using hcall
        obtain ⟨hquiet, hfailed⟩ := h.noted.flush hregular hret
        rw [CsvSink.comesShort_of_flush hret, Bool.or_false]
        exact .inr ⟨hno, hquiet, hfailed, .inl hcheck⟩
      | cons op pre => exact .inl ⟨pre, post, (List.cons.inj hsplit).2, hcheck, hno⟩

/-- A step of the thread. -/
lemma Watched.driver (h : s.Watched i short) (io : IoOutcome) :
    (s.step (.driver io)).1.Watched i
      (short || decide ((s.step (.driver io)).2 = some i)) := by
  cases hops : s.ops with
  | nil =>
    have hstep : s.step (.driver io) = (s, none) := by simp only [step, hops]
    rw [hstep]
    simpa using h
  | cons op ops =>
    cases op with
    | check j =>
      have hstep : s.step (.driver io) =
          ({ s with ops := ops, wroteOk := s.wroteOk && !(s.sinks j).failed }, none) := by
        simp only [step, hops]
      rw [hstep]
      simp only [reduceCtorEq, decide_false, Bool.or_false]
      refine ⟨h.regular, h.noted, ?_, ?_⟩
      · rw [h.calls, hops, callsTo_check]
      · rcases h.finishes with hf | ⟨hno, hquiet, hfailed, hcheck⟩
        · exact .inl ((hops ▸ hf).tail (by simp))
        · refine .inr ⟨(hops ▸ hno).tail, hquiet, hfailed, ?_⟩
          rcases hcheck with hcheck | hcheck
          · rcases List.mem_cons.mp (hops ▸ hcheck) with heq | hmem
            · -- the flag of this sink is looked at
              obtain rfl : i = j := by simpa using heq
              exact .inr fun hs => by simp [hfailed hs]
            · exact .inl hmem
          · exact .inr fun hs => by simp [hcheck hs]
    | call j c =>
      by_cases hj : j = i
      · subst hj
        have hshort : decide ((s.step (.driver io)).2 = some j) =
            (s.sinks j).comesShort ⟨.producer, io⟩ := by
          rw [step_call hops]
          dsimp only
          split_ifs with hs <;> simp [hs]
        rw [hshort]
        exact h.call hops io
      · have hshort : decide ((s.step (.driver io)).2 = some i) = false := by
          rw [step_call hops]
          dsimp only
          split_ifs <;> simp [hj]
        rw [hshort, Bool.or_false, step_call hops]
        have hcall : ∀ c', (DriverOp.call j c : DriverOp ι) ≠ .call i c' := by simp [hj]
        refine ⟨?_, ?_, ?_, ?_⟩
        all_goals simp only [if_neg (Ne.symm hj)]
        · exact h.regular
        · exact h.noted
        · rw [h.calls, hops, callsTo_call_of_ne hj]
          split_ifs
          · rfl
          · rw [callsTo_call_of_ne hj]
        · rcases h.finishes with hf | ⟨hno, hquiet, hfailed, hcheck⟩
          · refine .inl ?_
            split_ifs
            · exact (hops ▸ hf).tail hcall
            · exact hops ▸ hf
          · refine .inr ⟨?_, hquiet, hfailed, hcheck.imp (fun hc => ?_) id⟩
            · split_ifs
              · exact (hops ▸ hno).tail
              · exact hops ▸ hno
            · split_ifs
              · rw [hops] at hc
                simpa using hc
              · exact hops ▸ hc

/-- A step. -/
lemma Watched.step (h : s.Watched i short) (m : DriverMove ι) :
    (s.step m).1.Watched i (short || decide ((s.step m).2 = some i)) := by
  cases m with
  | driver io => exact h.driver io
  | writer j io => exact h.writer j io

/-- **A short `fwrite` is seen by the check after the last `flush`.** -/
theorem wroteOk_of_short (mode : ι → Bool × ℕ) (h : Finishes i ops ∨ NoCall i ops)
    (moves : List (DriverMove ι))
    (hdone : (run step (new mode ops) moves).1.ops = [])
    (hshort : some i ∈ (run step (new mode ops) moves).2.map Prod.snd) :
    (run step (new mode ops) moves).1.wroteOk = false := by
  have hwatched : (run step (new mode ops) moves).1.Watched i
      (decide (some i ∈ (run step (new mode ops) moves).2.map Prod.snd)) := by
    refine run_induction (P := fun h (s : Driver ι) =>
      s.Watched i (decide (some i ∈ h.map Prod.snd))) (watched_new mode h) ?_ moves
    intro h s m hs
    have hmem : decide (some i ∈ (h ++ [(m, (s.step m).2)]).map Prod.snd) =
        (decide (some i ∈ h.map Prod.snd) || decide ((s.step m).2 = some i)) := by
      rw [Bool.eq_iff_iff]
      simp [@eq_comm _ (some i) (s.step m).2]
    rw [hmem]
    exact hs.step m
  rcases hwatched.finishes with ⟨pre, post, hops, -⟩ | ⟨-, -, -, hcheck | hok⟩
  · rw [hdone] at hops
    exact absurd hops (by simp)
  · rw [hdone] at hcheck
    exact absurd hcheck (by simp)
  · exact hok (by simpa using hshort)

end Driver

end Watched

end LobCapture
