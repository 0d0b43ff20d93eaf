/-
# Asynchronous writing

The invariant of the two threads.  The writer has passed the first `drained` records to `fwrite`,
the slots of the first `freed` of them are free, and every record whose `write` has returned is in
the ring or freed.  A request to flush is answered, and the writer exits, only when the ring was
seen empty; and at these moments the producer is waiting, so that no record was published in the
meantime.
-/
import LobCapture.Sink.Inline

namespace LobCapture

open Lib

/-! ## Places of the threads -/

/-- The producer does what it does in asynchronous mode. -/
def Producer.At (r : SpscByteRing) (k len freed : ℕ) : Producer → Prop
  | .tryWrite p w => w.At r k len freed p
  | .fwrite _ | .loadWerr _ | .storeWerr _ | .fflush => False
  | _ => True

/-- The producer waits for the writer to exit, or knows that it has. -/
def Producer.Closing : Producer → Prop
  | .join | .lastFlush | .fclose => True
  | _ => False

/-- The producer has joined the writer. -/
def Producer.Joined : Producer → Prop
  | .lastFlush | .fclose => True
  | _ => False

/-- The writer has seen a request to flush. -/
def Writer.Flushing : Writer → Prop
  | .flushEmpty _ _ | .fflush _ | .clearFlushReq _ => True
  | _ => False

/-- The writer has seen that it is to stop. -/
def Writer.Stopping : Writer → Prop
  | .stopEmpty _ | .exited => True
  | _ => False

/-- Where the writer is in the sequence of the records. -/
def Writer.At (r : SpscByteRing) (k len freed drained : ℕ) : Writer → Prop
  | .drain d | .loadWerr d | .storeWerr d => d.At k len freed drained
  | .flushEmpty _ e | .stopEmpty e => e.At r ∧ drained = freed
  | .fflush _ | .clearFlushReq _ | .exited => drained = freed ∧ freed = len
  | .loadFlushReq _ | .loadStop => drained = freed

section Places

variable {r : SpscByteRing} {k len freed drained : ℕ}

lemma Producer.At.mono {place : Producer} (h : place.At r k len freed) {freed' : ℕ}
    (hle : freed ≤ freed') {r' : SpscByteRing} (hslots : r'.slots = r.slots)
    (htail : r'.tail = r.tail) : place.At r' k len freed' := by
  cases place with
  | tryWrite p w => exact TryWrite.At.mono h hle hslots htail
  | _ => exact h

/-- A writer that has not seen an empty ring does not mind another record. -/
lemma Writer.At.publish {w : Writer} (h : w.At r k len freed drained) (hflush : ¬ w.Flushing)
    (hstop : ¬ w.Stopping) {r' : SpscByteRing} : w.At r' k (len + 1) freed drained := by
  cases w with
  | drain d | loadWerr d | storeWerr d => exact Drain.At.mono h (Nat.le_succ len)
  | flushEmpty n e | fflush n | clearFlushReq n => exact absurd trivial hflush
  | stopEmpty e | exited => exact absurd trivial hstop
  | loadFlushReq n | loadStop => exact h

lemma Writer.At.congr {w : Writer} (h : w.At r k len freed drained) {r' : SpscByteRing}
    (hhead : r'.head = r.head) : w.At r' k len freed drained := by
  cases w with
  | flushEmpty n e | stopEmpty e =>
    obtain ⟨he, hdrained⟩ := h
    refine ⟨?_, hdrained⟩
    cases e with
    | loadHead => trivial
    | loadTail h' => exact Eq.trans he hhead.symm
  | _ => exact h

lemma at_afterFlush (n : ℕ) (h : drained = freed) :
    (CsvSink.afterFlush n).At r k len freed drained := by
  rw [CsvSink.afterFlush]
  split_ifs <;> exact h

@[simp] lemma not_flushing_afterFlush (n : ℕ) : ¬ (CsvSink.afterFlush n).Flushing := by
  rw [CsvSink.afterFlush]
  split_ifs <;> exact not_false

@[simp] lemma not_stopping_afterFlush (n : ℕ) : ¬ (CsvSink.afterFlush n).Stopping := by
  rw [CsvSink.afterFlush]
  split_ifs <;> exact not_false

end Places

/-! ## The invariant -/

/-- What holds in asynchronous mode after the records `all` have been written. -/
structure CsvSink.Sound (k : ℕ) (all : List Bytes) (freed drained : ℕ) (s : CsvSink) : Prop where
  async : s.async = true
  holds : s.ring.Holds k all freed
  passed : s.file.passed = (all.take drained).flatten
  producer : s.producer.At s.ring k all.length freed
  writer : s.writer.At s.ring k all.length freed drained
  requested : s.flushReq = true → s.producer = .loadFlushReq
  flushing : s.writer.Flushing → s.flushReq = true
  answered : s.producer = .loadFlushReq → s.flushReq = false → drained = all.length
  stopped : s.stop = true → s.producer.Closing ∨ s.isOpen = false
  stopping : s.writer.Stopping → s.stop = true
  joined : s.producer.Joined → s.writer = .exited
  closed : s.isOpen = false → s.producer = .idle ∧ s.writer = .exited

namespace CsvSink.Sound

variable {k freed drained : ℕ} {all : List Bytes} {s : CsvSink}

lemma opened (k : ℕ) (calls : List SinkCall) :
    (CsvSink.opened true (2 ^ k) calls).Sound k [] 0 0 where
  async := rfl
  holds := SpscByteRing.holds_new k
  passed := rfl
  producer := trivial
  writer := rfl
  requested h := absurd h Bool.false_ne_true
  flushing := False.elim
  answered h := absurd (show Producer.idle = .loadFlushReq from h) (by decide)
  stopped h := absurd h Bool.false_ne_true
  stopping := False.elim
  joined := False.elim
  closed h := absurd h.symm Bool.false_ne_true

/-- The writer passes on no more than has been published. -/
lemma drained_le (h : s.Sound k all freed drained) : drained ≤ all.length := by
  have hfreed := h.holds.window.freed_le
  have hw := h.writer
  cases hwriter : s.writer with
  | drain d | loadWerr d | storeWerr d =>
    rw [hwriter] at hw
    exact Drain.At.drained_le hw hfreed
  | flushEmpty n e | stopEmpty e | fflush n | clearFlushReq n | exited | loadFlushReq n
  | loadStop =>
    simp only [hwriter, Writer.At] at hw
    omega

/-- Once the writer has exited, everything has been passed on. -/
lemma drained_of_exited (h : s.Sound k all freed drained) (hw : s.writer = .exited) :
    drained = all.length := by
  have := h.writer
  rw [hw] at this
  exact this.1.trans this.2

/-- While the producer is neither waiting for a flush nor closing, the writer is not asked for
anything. -/
lemma unasked (h : s.Sound k all freed drained) (hopen : s.isOpen = true)
    (hflush : s.producer ≠ .loadFlushReq) (hclosing : ¬ s.producer.Closing) :
    s.flushReq = false ∧ s.stop = false := by
  constructor
  · exact Bool.eq_false_iff.mpr fun hreq => hflush (h.requested hreq)
  · refine Bool.eq_false_iff.mpr fun hstop => ?_
    rcases h.stopped hstop with hc | hc
    · exact hclosing hc
    · exact Bool.false_ne_true (hc.symm.trans hopen)

/-- The sink of a producer that is in a call is open. -/
lemma isOpen (h : s.Sound k all freed drained) (hidle : s.producer ≠ .idle) : s.isOpen = true :=
  Bool.eq_true_of_not_eq_false fun hclosed => hidle (h.closed hclosed).1

end CsvSink.Sound

/-! ## Steps of the producer -/

/-- What a step of the producer leads to, if it makes `call` return: the record of a `write` is
one of those that have been written, and a `flush` or `close` comes back only when everything has
been passed on. -/
structure CsvSink.Produced (k : ℕ) (all : List Bytes) (freed drained : ℕ) (s s' : CsvSink)
    (call : Option SinkCall) : Prop where
  sound : s'.Sound k (s.grown all call) freed drained
  drained : call = some .flush ∨ call = some .close → drained = all.length

namespace CsvSink.Sound

variable {k freed drained : ℕ} {all : List Bytes} {s s' : CsvSink}

lemma produced (h : s'.Sound k all freed drained) : s.Produced k all freed drained s' none where
  sound := by
    rw [grown_none]
    exact h
  drained := by simp

/-- The next call begins. -/
lemma begin (h : s.Sound k all freed drained) (hidle : s.producer = .idle) :
    s.Produced k all freed drained s.begin.1 s.begin.2 := by
  rw [CsvSink.begin]
  cases htodo : s.todo with
  | nil => exact h.produced
  | cons call rest =>
    by_cases hopen : s.isOpen = true
    · obtain ⟨hreq, hstop⟩ := h.unasked hopen (by simp [hidle]) (by simp [hidle, Producer.Closing])
      simp only [hopen, Bool.true_eq_false, if_false, h.async, if_true]
      refine produced ?_
      cases call with
      | write p | flush | close =>
        exact { h with
          async := rfl
          producer := trivial
          requested := fun hf => absurd (hreq.symm.trans hf) Bool.false_ne_true
          answered := by simp
          stopped := fun hs => absurd (hstop.symm.trans hs) Bool.false_ne_true
          joined := False.elim
          closed := fun hc => absurd hc (by simp) }
    · -- the sink is closed, and the call does nothing
      have hclosed : s.isOpen = false := Bool.eq_false_iff.mpr hopen
      simp only [hclosed, if_true, CsvSink.returned]
      refine ⟨?_, fun _ => h.drained_of_exited (h.closed hclosed).2⟩
      simp only [grown, hclosed, Bool.false_eq_true, if_false, List.append_nil]
      exact { h with
        producer := trivial
        requested := fun hf => absurd (h.requested hf) (by simp [hidle])
        answered := by simp
        stopped := fun _ => .inr rfl
        joined := False.elim
        closed := fun _ => ⟨rfl, (h.closed hclosed).2⟩ }

/-- A step of `try_write`. -/
lemma tryWrite (h : s.Sound k all freed drained) {p : Bytes} {w : TryWrite}
    (hplace : s.producer = .tryWrite p w) (io : IoOutcome) :
    s.Produced k all freed drained (s.produce io).1 (s.produce io).2 := by
  have hopen := h.isOpen (by simp [hplace])
  obtain ⟨hreq, hstop⟩ := h.unasked hopen (by simp [hplace]) (by simp [hplace, Producer.Closing])
  have hflushing : ¬ s.writer.Flushing := fun hf => absurd (h.flushing hf) (by simp [hreq])
  have hstopping : ¬ s.writer.Stopping := fun hs => absurd (h.stopping hs) (by simp [hstop])
  have hw : w.At s.ring k all.length freed p := by simpa [hplace, Producer.At] using h.producer
  have hring := h.holds.tryWrite hw
  simp only [CsvSink.produce, hplace]
  rcases htry : s.ring.tryWrite p w with ⟨ring, w' | b⟩
  · -- the call goes on
    rw [htry] at hring
    obtain ⟨hholds, hw', hhead, -⟩ := hring
    refine produced ?_
    exact { h with
      holds := hholds
      producer := hw'
      writer := h.writer.congr hhead
      requested := fun hf => absurd (hreq.symm.trans hf) Bool.false_ne_true
      answered := by simp
      stopped := fun hs => absurd (hstop.symm.trans hs) Bool.false_ne_true
      joined := False.elim
      closed := fun hc => absurd (hopen.symm.trans hc) (by simp) }
  · rw [htry] at hring
    cases b with
    | false =>
      -- the ring is full
      obtain ⟨rfl, -⟩ := hring
      refine produced ?_
      exact { h with
        producer := trivial
        requested := fun hf => absurd (hreq.symm.trans hf) Bool.false_ne_true
        answered := by simp
        stopped := fun hs => absurd (hstop.symm.trans hs) Bool.false_ne_true
        joined := False.elim
        closed := fun hc => absurd (hopen.symm.trans hc) (by simp) }
    | true =>
      -- the record is published
      obtain ⟨hholds, -⟩ := hring
      refine ⟨?_, by simp [CsvSink.returned]⟩
      simp only [grown, hopen, if_true, CsvSink.returned, Option.toList_some, writtenRecords]
      exact { h with
        holds := hholds
        passed := by
          rw [List.take_append_of_le_length h.drained_le]
          exact h.passed
        producer := trivial
        writer := by
          rw [List.length_append]
          exact h.writer.publish hflushing hstopping
        requested := fun hf => absurd (hreq.symm.trans hf) Bool.false_ne_true
        answered := by simp
        stopped := fun hs => absurd (hstop.symm.trans hs) Bool.false_ne_true
        joined := False.elim
        closed := fun hc => absurd hc.symm Bool.false_ne_true }

/-- **A step of the producer.** -/
lemma produce (h : s.Sound k all freed drained) (io : IoOutcome) :
    s.Produced k all freed drained (s.produce io).1 (s.produce io).2 := by
  cases hplace : s.producer with
  | idle =>
    simp only [CsvSink.produce, hplace]
    exact h.begin hplace
  | tryWrite p w => exact h.tryWrite hplace io
  | fwrite p | loadWerr p | storeWerr p | fflush =>
    have := h.producer
    rw [hplace] at this
    exact False.elim this
  | storeFlushReq =>
    have hopen := h.isOpen (by simp [hplace])
    obtain ⟨-, hstop⟩ := h.unasked hopen (by simp [hplace]) (by simp [hplace, Producer.Closing])
    simp only [CsvSink.produce, hplace]
    refine produced ?_
    exact { h with
      producer := trivial
      requested := fun _ => rfl
      flushing := fun _ => rfl
      answered := by simp
      stopped := fun hs => absurd (hstop.symm.trans hs) Bool.false_ne_true
      joined := False.elim
      closed := fun hc => absurd (hopen.symm.trans hc) (by simp) }
  | loadFlushReq =>
    have hopen := h.isOpen (by simp [hplace])
    simp only [CsvSink.produce, hplace]
    by_cases hreq : s.flushReq = true
    · rw [if_pos hreq]
      exact h.produced
    · -- the request has been answered
      rw [if_neg hreq]
      have hreq : s.flushReq = false := Bool.eq_false_iff.mpr hreq
      refine ⟨?_, fun _ => h.answered hplace hreq⟩
      simp only [CsvSink.returned]
      rw [grown_of_ne _ _ (by simp)]
      exact { h with
        producer := trivial
        requested := fun hf => absurd (hreq.symm.trans hf) Bool.false_ne_true
        answered := by simp
        stopped := fun hs => (h.stopped hs).imp (by simp [hplace, Producer.Closing]) id
        joined := False.elim
        closed := fun hc => absurd (hopen.symm.trans hc) (by simp) }
  | storeStop =>
    have hopen := h.isOpen (by simp [hplace])
    obtain ⟨hreq, -⟩ := h.unasked hopen (by simp [hplace]) (by simp [hplace, Producer.Closing])
    simp only [CsvSink.produce, hplace]
    refine produced ?_
    exact { h with
      producer := trivial
      requested := fun hf => absurd (hreq.symm.trans hf) Bool.false_ne_true
      answered := by simp
      stopped := fun _ => .inl trivial
      stopping := fun _ => rfl
      joined := False.elim
      closed := fun hc => absurd (hopen.symm.trans hc) (by simp) }
  | join =>
    have hopen := h.isOpen (by simp [hplace])
    simp only [CsvSink.produce, hplace]
    by_cases hexit : s.writer = .exited
    · rw [if_pos hexit]
      refine produced ?_
      exact { h with
        producer := trivial
        requested := fun hf => absurd (h.requested hf) (by simp [hplace])
        answered := by simp
        stopped := fun _ => .inl trivial
        joined := fun _ => hexit
        closed := fun hc => absurd (hopen.symm.trans hc) (by simp) }
    · rw [if_neg hexit]
      exact h.produced
  | lastFlush =>
    have hopen := h.isOpen (by simp [hplace])
    simp only [CsvSink.produce, hplace]
    refine produced ?_
    exact { h with
      passed := by rw [File.passed_fflush]; exact h.passed
      producer := trivial
      requested := fun hf => absurd (h.requested hf) (by simp [hplace])
      answered := by simp
      stopped := fun _ => .inl trivial
      joined := fun _ => h.joined (by simp [hplace, Producer.Joined])
      closed := fun hc => absurd (hopen.symm.trans hc) (by simp) }
  | fclose =>
    have hexit := h.joined (by simp [hplace, Producer.Joined])
    simp only [CsvSink.produce, hplace]
    refine ⟨?_, fun _ => h.drained_of_exited hexit⟩
    simp only [CsvSink.returned]
    rw [grown_of_ne _ _ (by simp)]
    exact { h with
      passed := by rw [File.passed_fflush]; exact h.passed
      producer := trivial
      requested := fun hf => absurd (h.requested hf) (by simp [hplace])
      answered := by simp
      stopped := fun _ => .inr rfl
      joined := False.elim
      closed := fun _ => ⟨rfl, hexit⟩ }

end CsvSink.Sound

/-! ## Steps of the writer -/

namespace CsvSink.Sound

variable {k freed drained : ℕ} {all : List Bytes} {s : CsvSink}

/-- The writer goes to another place, in the loop. -/
lemma goTo (h : s.Sound k all freed drained) (hloop : s.writer ≠ .exited) (place : Writer)
    (hat : place.At s.ring k all.length freed drained)
    (hflushing : place.Flushing → s.flushReq = true) (hstopping : place.Stopping → s.stop = true) :
    { s with writer := place }.Sound k all freed drained :=
  { h with
    writer := hat
    flushing := hflushing
    stopping := hstopping
    joined := fun hj => absurd (h.joined hj) hloop
    closed := fun hc => absurd (h.closed hc).2 hloop }

/-- A step of `drain`. -/
lemma drain (h : s.Sound k all freed drained) {d : Drain} (hplace : s.writer = .drain d)
    (io : IoOutcome) :
    ∃ freed' drained', drained ≤ drained' ∧ (s.consume io).Sound k all freed' drained' := by
  have hloop : s.writer ≠ .exited := by simp [hplace]
  have hd : d.At k all.length freed drained := by simpa [hplace, Writer.At] using h.writer
  have hring := h.holds.drain hd
  simp only [CsvSink.consume, hplace]
  rcases hstep : s.ring.drain d with ⟨ring, d' | ⟨p, d'⟩ | n⟩
  · -- the call goes on
    rw [hstep] at hring
    obtain ⟨rfl, hd'⟩ := hring
    exact ⟨freed, drained, le_rfl, h.goTo hloop _ hd' False.elim False.elim⟩
  · -- a record is passed to `fwrite`
    rw [hstep] at hring
    obtain ⟨rfl, hp, hd'⟩ := hring
    obtain ⟨hlt, hget⟩ := List.getElem?_eq_some_iff.mp hp
    refine ⟨freed, drained + 1, Nat.le_succ _, ?_⟩
    exact { h with
      passed := by
        rw [File.passed_fwrite, h.passed, List.take_add_one, hp, Option.toList_some,
          List.flatten_append, List.flatten_singleton]
      writer := by
        dsimp only
        split_ifs <;> exact hd'
      flushing := fun hf => by
        dsimp only at hf
        split_ifs at hf <;> exact False.elim hf
      answered := fun hp' hreq => by
        have := h.answered hp' hreq
        omega
      stopping := fun hs => by
        dsimp only at hs
        split_ifs at hs <;> exact False.elim hs
      joined := fun hj => absurd (h.joined hj) hloop
      closed := fun hc => absurd (h.closed hc).2 hloop }
  · -- the slots are freed
    rw [hstep] at hring
    obtain ⟨hholds, hslots, htail, hcount⟩ := hring
    refine ⟨drained, drained, le_rfl, ?_⟩
    exact { h with
      holds := hholds
      producer := h.producer.mono (by omega) hslots htail
      writer := rfl
      flushing := False.elim
      stopping := False.elim
      joined := fun hj => absurd (h.joined hj) hloop
      closed := fun hc => absurd (h.closed hc).2 hloop }

/-- **A step of the writer.** -/
lemma consume (h : s.Sound k all freed drained) (io : IoOutcome) :
    ∃ freed' drained', drained ≤ drained' ∧ (s.consume io).Sound k all freed' drained' := by
  have hw := h.writer
  cases hplace : s.writer with
  | drain d => exact h.drain hplace io
  | loadWerr d =>
    rw [hplace] at hw
    refine ⟨freed, drained, le_rfl, ?_⟩
    simp only [CsvSink.consume, hplace]
    split_ifs
    · exact h.goTo (by simp [hplace]) _ hw False.elim False.elim
    · exact h.goTo (by simp [hplace]) _ hw False.elim False.elim
  | storeWerr d =>
    rw [hplace] at hw
    refine ⟨freed, drained, le_rfl, ?_⟩
    simp only [CsvSink.consume, hplace]
    have := h.goTo (by simp [hplace]) (.drain d) hw False.elim False.elim
    exact { this with }
  | loadFlushReq n =>
    rw [hplace] at hw
    refine ⟨freed, drained, le_rfl, ?_⟩
    simp only [CsvSink.consume, hplace]
    by_cases hreq : s.flushReq = true
    · rw [if_pos hreq]
      exact h.goTo (by simp [hplace]) _ ⟨trivial, hw⟩ (fun _ => hreq) False.elim
    · rw [if_neg hreq]
      exact h.goTo (by simp [hplace]) _ (at_afterFlush n hw) (by simp) (by simp)
  | flushEmpty n e =>
    have hreq := h.flushing (by simp [hplace, Writer.Flushing])
    rw [hplace] at hw
    obtain ⟨he, hdrained⟩ := hw
    have hempty := h.holds.empty he
    refine ⟨freed, drained, le_rfl, ?_⟩
    simp only [CsvSink.consume, hplace]
    rcases hstep : s.ring.empty e with e' | b
    · rw [hstep] at hempty
      exact h.goTo (by simp [hplace]) _ ⟨hempty, hdrained⟩ (fun _ => hreq) False.elim
    · rw [hstep] at hempty
      cases b with
      | true =>
        -- every record is drained, and the producer is waiting
        exact h.goTo (by simp [hplace]) _ ⟨hdrained, hempty.mp rfl⟩ (fun _ => hreq) False.elim
      | false =>
        exact h.goTo (by simp [hplace]) _ (at_afterFlush n hdrained) (by simp) (by simp)
  | fflush n =>
    have hreq := h.flushing (by simp [hplace, Writer.Flushing])
    rw [hplace] at hw
    refine ⟨freed, drained, le_rfl, ?_⟩
    simp only [CsvSink.consume, hplace]
    have := h.goTo (by simp [hplace]) (.clearFlushReq n) hw (fun _ => hreq) False.elim
    exact { this with
      passed := by rw [File.passed_fflush]; exact h.passed }
  | clearFlushReq n =>
    rw [hplace] at hw
    refine ⟨freed, drained, le_rfl, ?_⟩
    simp only [CsvSink.consume, hplace]
    have := h.goTo (by simp [hplace]) (CsvSink.afterFlush n) (at_afterFlush n hw.1)
      (by simp) (by simp)
    exact { this with
      requested := fun hf => absurd hf (by simp)
      flushing := fun hf => absurd hf (not_flushing_afterFlush n)
      answered := fun _ _ => hw.1.trans hw.2 }
  | loadStop =>
    rw [hplace] at hw
    refine ⟨freed, drained, le_rfl, ?_⟩
    simp only [CsvSink.consume, hplace]
    by_cases hstop : s.stop = true
    · rw [if_pos hstop]
      exact h.goTo (by simp [hplace]) _ ⟨trivial, hw⟩ False.elim fun _ => hstop
    · rw [if_neg hstop]
      exact h.goTo (by simp [hplace]) _ hw False.elim False.elim
  | stopEmpty e =>
    have hstop := h.stopping (by simp [hplace, Writer.Stopping])
    rw [hplace] at hw
    obtain ⟨he, hdrained⟩ := hw
    have hempty := h.holds.empty he
    refine ⟨freed, drained, le_rfl, ?_⟩
    simp only [CsvSink.consume, hplace]
    rcases hstep : s.ring.empty e with e' | b
    · rw [hstep] at hempty
      exact h.goTo (by simp [hplace]) _ ⟨hempty, hdrained⟩ False.elim fun _ => hstop
    · rw [hstep] at hempty
      cases b with
      | true =>
        -- every record is drained, and the producer writes no more
        exact h.goTo (by simp [hplace]) _ ⟨hdrained, hempty.mp rfl⟩ False.elim fun _ => hstop
      | false => exact h.goTo (by simp [hplace]) _ hdrained False.elim False.elim
  | exited =>
    refine ⟨freed, drained, le_rfl, ?_⟩
    simp only [CsvSink.consume, hplace]
    exact h

/-- The invariant holds after every run. -/
lemma run (k : ℕ) (calls : List SinkCall) (schedule : List Move) :
    ∃ freed drained, (run CsvSink.step (.opened true (2 ^ k) calls) schedule).1.Sound k
      (writtenRecords (returnedCalls
        (Lib.run CsvSink.step (.opened true (2 ^ k) calls) schedule).2)) freed drained := by
  refine records_induction (P := fun all s => ∃ freed drained, s.Sound k all freed drained)
    ⟨0, 0, opened k calls⟩ rfl ?_ ?_ schedule
  · rintro all s io ⟨freed, drained, h⟩
    exact ⟨freed, drained, (h.produce io).sound⟩
  · rintro all s io ⟨freed, drained, h⟩
    obtain ⟨freed', drained', -, h'⟩ := h.consume io
    exact ⟨freed', drained', h'⟩

/-- What has been passed on is a part of what has been written, from the start. -/
lemma passed_prefix (h : s.Sound k all freed drained) : s.file.passed <+: all.flatten := by
  rw [h.passed]
  exact ⟨(all.drop drained).flatten, by rw [← List.flatten_append, List.take_append_drop]⟩

/-- When a `flush` or a `close` returns, it is all of it. -/
lemma passed_of_returned (h : s.Sound k all freed drained) {io : IoOutcome} {call : SinkCall}
    (hcall : (s.produce io).2 = some call) (hne : call = .flush ∨ call = .close) :
    (s.produce io).1.file.passed = all.flatten := by
  obtain ⟨hsound, hdrained⟩ := h.produce io
  rw [hcall] at hsound hdrained
  rw [grown_of_ne _ _ (by rcases hne with rfl | rfl <;> simp)] at hsound
  rw [hsound.passed, hdrained (by simpa using hne), List.take_length]

end CsvSink.Sound

/-! ## Both modes write the same -/

/-- **Asynchronous writing equals synchronous writing.**  Whatever the calls, the size of the ring,
the behaviour of the device and the order in which the threads take their steps: the calls return
in the order in which they are made; what has been passed to `fwrite` is at every moment a prefix
of the records that have been written, one after the other; and when a `flush` or a `close`
returns it is all of them, which is what the same calls pass to `fwrite` in synchronous mode. -/
theorem async_writes_as_inline (k : ℕ) (calls : List SinkCall) (schedule : List Move) :
    let r := run CsvSink.step (.opened true (2 ^ k) calls) schedule
    returnedCalls r.2 <+: calls ∧
      r.1.file.passed <+: writtenBytes (returnedCalls r.2) ∧
      ∀ m call, (r.1.step m).2 = some call → call = .flush ∨ call = .close →
        (r.1.step m).1.file.passed = writtenBytes (returnedCalls r.2 ++ [call]) ∧
        (r.1.step m).1.file.passed = inlineBytes (returnedCalls r.2 ++ [call]) := by
  intro r
  obtain ⟨freed, drained, hsound⟩ := CsvSink.Sound.run k calls schedule
  refine ⟨⟨_, CsvSink.calls_run true (2 ^ k) calls schedule⟩, hsound.passed_prefix, ?_⟩
  intro m call hcall hne
  have hrecords : writtenRecords (returnedCalls r.2 ++ [call]) =
      writtenRecords (returnedCalls r.2) :=
    writtenRecords_concat_of_ne (by rcases hne with rfl | rfl <;> simp)
  suffices h : (r.1.step m).1.file.passed = writtenBytes (returnedCalls r.2 ++ [call]) from
    ⟨h, h.trans (inlineBytes_eq _).symm⟩
  rw [writtenBytes, hrecords]
  cases hthread : m.thread with
  | producer =>
    simp only [CsvSink.step, hthread] at hcall ⊢
    exact hsound.passed_of_returned hcall hne
  | writer =>
    -- the writer makes no call return
    simp [CsvSink.step, hthread] at hcall

/-- A ring of two slots, of which one is in use at a time. -/
example :
    let calls : List SinkCall := [.write [1], .write [2], .flush]
    let r := run CsvSink.step (.opened true (2 ^ 1) calls)
      (List.replicate 20 [{ thread := .producer }, { thread := .writer }]).flatten
    returnedCalls r.2 = calls ∧ r.1.file.passed = [1, 2] := by decide

end LobCapture
