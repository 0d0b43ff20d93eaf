/-
# Write errors

`CsvSink` looks at the result of every `fwrite`, and a short one sets `werr_` for good.  It does
not look at the result of `fflush`.  So after a `flush` with `failed()` still false all that was
written is on the device as long as no `fflush` is the first call of stdio that meets the error.
-/
import LobCapture.Sink.Async

namespace LobCapture

open Lib

/-! ## Calls of `fflush` -/

namespace CsvSink

/-- The next step of a thread is a call of `fflush`, or of `fclose`, which flushes as well. -/
def flushes (s : CsvSink) : Thread → Bool
  | .producer =>
    match s.producer with
    | .fflush | .lastFlush | .fclose => true
    | _ => false
  | .writer =>
    match s.writer with
    | .fflush _ => true
    | _ => false

/-- A step in which an `fflush` fails comes after an `fwrite` that has set the error flag. -/
def Surfaced (s : CsvSink) (m : Move) : Prop :=
  s.flushes m.thread = true → (s.file.fflush m.io).2 = false → s.failed = true

instance surfacedDecidable (s : CsvSink) (m : Move) : Decidable (s.Surfaced m) :=
  inferInstanceAs (Decidable (_ → _ → _))

end CsvSink

/-! ## The invariant -/

/-- An `fwrite` came short, and the flag is not set yet. -/
def Producer.Reporting : Producer → Prop
  | .loadWerr _ | .storeWerr _ => True
  | _ => False

def Writer.Reporting : Writer → Prop
  | .loadWerr _ | .storeWerr _ => True
  | _ => False

namespace CsvSink

/-- Everything is on the device, or the flag is set. -/
def Settled (s : CsvSink) : Prop := s.failed = true ∨ s.file.device = s.file.passed

/-- Nothing is lost without a sign of it, and a `flush` that is about to return has been done. -/
structure Accounted (s : CsvSink) : Prop where
  intact : s.failed = true ∨ s.producer.Reporting ∨ s.writer.Reporting ∨ s.file.Intact
  clearing : ∀ n, s.writer = .clearFlushReq n → s.Settled
  answered : s.producer = .loadFlushReq → s.flushReq = false → s.Settled
  closed : s.isOpen = false → s.Settled

variable {s : CsvSink}

/-- An `fflush` that is not the first to fail. -/
lemma Surfaced.fflush {m : Move} (h : s.Surfaced m) (hplace : s.flushes m.thread = true)
    (hintact : s.failed = true ∨ s.file.Intact) :
    s.failed = true ∨ (s.file.fflush m.io).1.device = (s.file.fflush m.io).1.passed ∧
      (s.file.fflush m.io).1.buffer = [] := by
  rcases hintact with hfailed | hintact
  · exact .inl hfailed
  · cases hok : (s.file.fflush m.io).2 with
    | false => exact .inl (h hplace hok)
    | true => exact .inr (hintact.fflush hok)

end CsvSink

/-! ## Steps -/

/-- The producer is at a place where it uses the file itself. -/
def Producer.UsesFile : Producer → Prop
  | .fwrite _ | .loadWerr _ | .storeWerr _ | .fflush | .lastFlush | .fclose => True
  | _ => False

lemma Producer.not_reporting {place : Producer} (h : ¬ place.UsesFile) : ¬ place.Reporting := by
  cases place with
  | loadWerr p | storeWerr p => exact absurd trivial h
  | _ => exact not_false

lemma Producer.At.not_reporting {r : SpscByteRing} {k len freed : ℕ} {place : Producer}
    (h : place.At r k len freed) : ¬ place.Reporting := by
  cases place with
  | loadWerr p | storeWerr p => exact False.elim h
  | _ => exact not_false

namespace CsvSink.Accounted

variable {s s' : CsvSink}

lemma opened (async : Bool) (n : ℕ) (calls : List SinkCall) :
    (CsvSink.opened async n calls).Accounted where
  intact := .inr (.inr (.inr rfl))
  clearing n h := by cases async <;> simp [CsvSink.opened] at h
  answered _ _ := .inr rfl
  closed _ := .inr rfl

/-- A step of the producer that leaves the file alone. -/
lemma frame (h : s.Accounted) (huses : ¬ s.producer.UsesFile) (hfile : s'.file = s.file)
    (hwerr : s'.werr = s.werr) (hwriter : s'.writer = s.writer)
    (hanswered : s'.producer = .loadFlushReq → s'.flushReq = false → s.Settled)
    (hclosed : s'.isOpen = false → s.isOpen = false) : s'.Accounted where
  intact := by
    rw [CsvSink.failed, hwerr, hwriter, hfile]
    rcases h.intact with hi | hi | hi
    · exact .inl hi
    · exact absurd hi (Producer.not_reporting huses)
    · exact .inr (.inr hi)
  clearing n hn := by
    rw [CsvSink.Settled, CsvSink.failed, hwerr, hfile]
    exact h.clearing n (hwriter.symm.trans hn)
  answered hp hr := by
    rw [CsvSink.Settled, CsvSink.failed, hwerr, hfile]
    exact hanswered hp hr
  closed hc := by
    rw [CsvSink.Settled, CsvSink.failed, hwerr, hfile]
    exact h.closed (hclosed hc)

/-- After an `fflush` that is not the first to fail. -/
lemma of_settled (s' : CsvSink)
    (h : s'.failed = true ∨ s'.file.device = s'.file.passed ∧ s'.file.buffer = []) :
    s'.Accounted where
  intact := h.imp id fun hf => .inr (.inr (File.intact_of_flushed hf))
  clearing _ _ := h.imp id And.left
  answered _ _ := h.imp id And.left
  closed _ := h.imp id And.left

/-- The flag is set. -/
lemma of_failed (h : s'.failed = true) : s'.Accounted where
  intact := .inl h
  clearing _ _ := .inl h
  answered _ _ := .inl h
  closed _ := .inl h

/-- Nobody reports an error when the producer is about to use the file. -/
lemma intact_of_exited (h : s.Accounted) (hexit : s.writer = .exited)
    (hreport : ¬ s.producer.Reporting) : s.failed = true ∨ s.file.Intact := by
  rcases h.intact with hi | hi | hi | hi
  · exact .inl hi
  · exact absurd hi hreport
  · rw [hexit] at hi
    exact False.elim hi
  · exact .inr hi

/-- A step of the producer. -/
lemma produce (h : s.Accounted) (hclosed : s.isOpen = false → s.producer = .idle)
    (halone : s.producer.UsesFile → s.writer = .exited) {m : Move} (hm : m.thread = .producer)
    (hsurf : s.Surfaced m) : (s.produce m.io).1.Accounted := by
  cases hplace : s.producer with
  | idle =>
    simp only [CsvSink.produce, hplace, CsvSink.begin]
    have huses : ¬ s.producer.UsesFile := by simp [hplace, Producer.UsesFile]
    cases s.todo with
    | nil => exact h
    | cons call rest =>
      cases hopen : s.isOpen with
      | false => exact h.frame huses rfl rfl rfl (by simp [CsvSink.returned]) fun _ => hopen
      | true =>
        refine h.frame huses rfl rfl rfl ?_ (by simp)
        cases call <;> cases s.async <;> simp
  | tryWrite p w =>
    simp only [CsvSink.produce, hplace]
    have huses : ¬ s.producer.UsesFile := by simp [hplace, Producer.UsesFile]
    rcases s.ring.tryWrite p w with ⟨ring, w' | b⟩
    · exact h.frame huses rfl rfl rfl (by simp) id
    · cases b with
      | false => exact h.frame huses rfl rfl rfl (by simp) id
      | true => exact h.frame huses rfl rfl rfl (by simp [CsvSink.returned]) id
  | storeFlushReq =>
    simp only [CsvSink.produce, hplace]
    exact h.frame (by simp [hplace, Producer.UsesFile]) rfl rfl rfl (by simp) id
  | loadFlushReq =>
    simp only [CsvSink.produce, hplace]
    split_ifs
    · exact h
    · exact h.frame (by simp [hplace, Producer.UsesFile]) rfl rfl rfl
        (by simp [CsvSink.returned]) id
  | storeStop =>
    simp only [CsvSink.produce, hplace]
    exact h.frame (by simp [hplace, Producer.UsesFile]) rfl rfl rfl (by simp) id
  | join =>
    simp only [CsvSink.produce, hplace]
    split_ifs
    · exact h.frame (by simp [hplace, Producer.UsesFile]) rfl rfl rfl (by simp) id
    · exact h
  | fwrite p =>
    have hexit := halone (by simp [hplace, Producer.UsesFile])
    have hintact := h.intact_of_exited hexit (by simp [hplace, Producer.Reporting])
    have hopen : s.isOpen = true := by
      by_contra hc
      simpa [hplace] using hclosed (by simpa using hc)
    simp only [CsvSink.produce, hplace]
    split_ifs with hshort
    · -- the error is going to be reported
      exact ⟨.inr (.inl trivial), by simp [hexit], by simp, by simp [hopen]⟩
    · rw [not_not] at hshort
      exact ⟨hintact.imp id fun hi => .inr (.inr (hi.fwrite hshort)),
        by simp [CsvSink.returned, hexit], by simp [CsvSink.returned],
        by simp [CsvSink.returned, hopen]⟩
  | loadWerr p =>
    have hexit := halone (by simp [hplace, Producer.UsesFile])
    have hopen : s.isOpen = true := by
      by_contra hc
      simpa [hplace] using hclosed (by simpa using hc)
    simp only [CsvSink.produce, hplace]
    split_ifs with hfailed
    · exact of_failed hfailed
    · exact ⟨.inr (.inl trivial), by simp [hexit], by simp, by simp [hopen]⟩
  | storeWerr p =>
    simp only [CsvSink.produce, hplace]
    exact of_failed rfl
  | fflush | lastFlush | fclose =>
    have hexit := halone (by simp [hplace, Producer.UsesFile])
    have hintact := h.intact_of_exited hexit (by simp [hplace, Producer.Reporting])
    have hflushed := hsurf.fflush (by simp [hm, CsvSink.flushes, hplace]) hintact
    simp only [CsvSink.produce, hplace]
    exact of_settled _ hflushed

/-- A step of the writer that leaves the file alone. -/
lemma goTo (h : s.Accounted) (place : Writer) (hreport : ¬ s.writer.Reporting)
    (hclear : ∀ n, place ≠ .clearFlushReq n) : { s with writer := place }.Accounted where
  intact := by
    rcases h.intact with hi | hi | hi | hi
    · exact .inl hi
    · exact .inr (.inl hi)
    · exact absurd hi hreport
    · exact .inr (.inr (.inr hi))
  clearing n hn := absurd hn (hclear n)
  answered := h.answered
  closed := h.closed

end CsvSink.Accounted

lemma CsvSink.afterFlush_ne (n m : ℕ) : CsvSink.afterFlush n ≠ .clearFlushReq m := by
  rw [CsvSink.afterFlush]
  split_ifs <;> simp

namespace CsvSink.Accounted

variable {k freed drained : ℕ} {all : List Bytes} {s : CsvSink}

/-- A step of `drain`. -/
lemma drain (h : s.Accounted) (hs : s.Sound k all freed drained) {d : Drain}
    (hplace : s.writer = .drain d) (io : IoOutcome) : (s.consume io).Accounted := by
  have hreport : ¬ s.writer.Reporting := by simp [hplace, Writer.Reporting]
  have hd : d.At k all.length freed drained := by simpa [hplace, Writer.At] using hs.writer
  have hring := hs.holds.drain hd
  simp only [CsvSink.consume, hplace]
  rcases hstep : s.ring.drain d with ⟨ring, d' | ⟨p, d'⟩ | n⟩
  · have := h.goTo (.drain d') hreport (by simp)
    exact { this with }
  · -- a record is passed to `fwrite`, so that not everything was drained
    rw [hstep] at hring
    obtain ⟨hlt, -⟩ := List.getElem?_eq_some_iff.mp hring.2.1
    refine ⟨?_, ?_, fun hp hr => ?_, fun hc => ?_⟩
    · dsimp only
      split_ifs with hshort
      · exact .inr (.inr (.inl trivial))
      · rw [not_not] at hshort
        rcases h.intact with hi | hi | hi | hi
        · exact .inl hi
        · exact .inr (.inl hi)
        · exact absurd hi hreport
        · exact .inr (.inr (.inr (hi.fwrite hshort)))
    · intro n hn
      dsimp only at hn
      split_ifs at hn
    · have := hs.answered hp hr
      omega
    · exact absurd (hs.closed hc).2 (by simp [hplace])
  · have := h.goTo (.loadFlushReq n) hreport (by simp)
    exact { this with }

/-- A step of the writer. -/
lemma consume (h : s.Accounted) (hs : s.Sound k all freed drained) {m : Move}
    (hm : m.thread = .writer) (hsurf : s.Surfaced m) : (s.consume m.io).Accounted := by
  cases hplace : s.writer with
  | drain d => exact h.drain hs hplace m.io
  | loadWerr d =>
    simp only [CsvSink.consume, hplace]
    split_ifs with hfailed
    · exact of_failed hfailed
    · exact ⟨.inr (.inr (.inl trivial)), by simp, h.answered, h.closed⟩
  | storeWerr d =>
    simp only [CsvSink.consume, hplace]
    exact of_failed rfl
  | loadFlushReq n =>
    simp only [CsvSink.consume, hplace]
    split_ifs
    · exact h.goTo _ (by simp [hplace, Writer.Reporting]) (by simp)
    · exact h.goTo _ (by simp [hplace, Writer.Reporting]) (CsvSink.afterFlush_ne n)
  | flushEmpty n e =>
    simp only [CsvSink.consume, hplace]
    rcases s.ring.empty e with e' | b
    · exact h.goTo _ (by simp [hplace, Writer.Reporting]) (by simp)
    · refine h.goTo _ (by simp [hplace, Writer.Reporting]) fun i => ?_
      cases b with
      | true => simp
      | false => exact CsvSink.afterFlush_ne n i
  | fflush n =>
    have hintact : s.failed = true ∨ s.file.Intact := by
      rcases h.intact with hi | hi | hi | hi
      · exact .inl hi
      · exact absurd hi (Producer.At.not_reporting hs.producer)
      · simp [hplace, Writer.Reporting] at hi
      · exact .inr hi
    have hflushed := hsurf.fflush (by simp [hm, CsvSink.flushes, hplace]) hintact
    simp only [CsvSink.consume, hplace]
    exact of_settled _ hflushed
  | clearFlushReq n =>
    have hsettled := h.clearing n hplace
    simp only [CsvSink.consume, hplace]
    have := h.goTo (CsvSink.afterFlush n) (by simp [hplace, Writer.Reporting])
      (CsvSink.afterFlush_ne n)
    exact { this with answered := fun _ _ => hsettled }
  | loadStop =>
    simp only [CsvSink.consume, hplace]
    split_ifs <;> exact h.goTo _ (by simp [hplace, Writer.Reporting]) (by simp)
  | stopEmpty e =>
    simp only [CsvSink.consume, hplace]
    rcases s.ring.empty e with e' | b
    · exact h.goTo _ (by simp [hplace, Writer.Reporting]) (by simp)
    · refine h.goTo _ (by simp [hplace, Writer.Reporting]) fun i => ?_
      cases b <;> simp
  | exited =>
    simp only [CsvSink.consume, hplace]
    exact h

/-- When a `flush` returns, everything is on the device or the flag is set. -/
lemma settled_of_flush (h : s.Accounted)
    (halone : s.producer.UsesFile → s.writer = .exited) {m : Move} (hm : m.thread = .producer)
    (hsurf : s.Surfaced m) (hflush : (s.produce m.io).2 = some .flush) :
    (s.produce m.io).1.Settled := by
  cases hplace : s.producer with
  | idle =>
    simp only [CsvSink.produce, hplace, CsvSink.begin] at hflush ⊢
    cases htodo : s.todo with
    | nil => simp [htodo] at hflush
    | cons call rest =>
      cases hopen : s.isOpen with
      | false => exact h.closed hopen
      | true => simp [htodo, hopen] at hflush
  | loadFlushReq =>
    simp only [CsvSink.produce, hplace] at hflush ⊢
    split_ifs at hflush ⊢ with hreq
    exact h.answered hplace (Bool.eq_false_iff.mpr hreq)
  | fflush =>
    have hintact := h.intact_of_exited (halone (by simp [hplace, Producer.UsesFile]))
      (by simp [hplace, Producer.Reporting])
    have hflushed := hsurf.fflush (by simp [hm, CsvSink.flushes, hplace]) hintact
    simp only [CsvSink.produce, hplace]
    exact hflushed.imp id And.left
  | storeFlushReq => simp [CsvSink.produce, hplace] at hflush
  | tryWrite p w | fwrite p | loadWerr p | storeWerr p | storeStop | join | lastFlush | fclose =>
    -- another call is going on
    have := CsvSink.call_of_returned hflush (by simp [hplace])
    simp [hplace, Producer.call] at this

end CsvSink.Accounted

/-! ## Runs -/

/-- What the two modes have in common: the invariant of the mode. -/
def CsvSink.Regular (k : ℕ) (all : List Bytes) (s : CsvSink) : Prop :=
  (∃ freed drained, s.Sound k all freed drained) ∨ s.Inline all

namespace CsvSink.Regular

variable {k : ℕ} {all : List Bytes} {s : CsvSink}

lemma run (async : Bool) (k : ℕ) (calls : List SinkCall) (schedule : List Move) :
    (run CsvSink.step (.opened async (2 ^ k) calls) schedule).1.Regular k
      (writtenRecords (returnedCalls
        (Lib.run CsvSink.step (.opened async (2 ^ k) calls) schedule).2)) := by
  cases async with
  | true => exact .inl (Sound.run k calls schedule)
  | false => exact .inr (Inline.run (2 ^ k) calls schedule)

lemma idle_of_closed (h : s.Regular k all) (hc : s.isOpen = false) : s.producer = .idle := by
  rcases h with ⟨freed, drained, h⟩ | h
  · exact (h.closed hc).1
  · exact h.closed hc

/-- The producer uses the file only when there is no writer any more. -/
lemma exited (h : s.Regular k all) (huses : s.producer.UsesFile) : s.writer = .exited := by
  rcases h with ⟨freed, drained, h⟩ | h
  · have hat := h.producer
    cases hplace : s.producer with
    | fwrite p | loadWerr p | storeWerr p | fflush =>
      rw [hplace] at hat
      exact False.elim hat
    | lastFlush | fclose => exact h.joined (by simp [hplace, Producer.Joined])
    | idle | tryWrite p w | storeFlushReq | loadFlushReq | storeStop | join =>
      simp [hplace, Producer.UsesFile] at huses
  · exact h.writer

/-- Nobody reports an error when the file is about to be flushed. -/
lemma intact_of_flushes (h : s.Regular k all) (hs : s.Accounted) {t : Thread}
    (hplace : s.flushes t = true) : s.failed = true ∨ s.file.Intact := by
  cases t with
  | producer =>
    have huses : s.producer.UsesFile ∧ ¬ s.producer.Reporting := by
      cases hproducer : s.producer <;>
        simp_all [CsvSink.flushes, Producer.UsesFile, Producer.Reporting]
    exact hs.intact_of_exited (h.exited huses.1) huses.2
  | writer =>
    rcases h with ⟨freed, drained, h⟩ | h
    · rcases hs.intact with hi | hi | hi | hi
      · exact .inl hi
      · exact absurd hi (Producer.At.not_reporting h.producer)
      · cases hwriter : s.writer <;> simp_all [CsvSink.flushes, Writer.Reporting]
      · exact .inr hi
    · simp [CsvSink.flushes, h.writer] at hplace

/-- A step of either thread. -/
lemma accounted (h : s.Regular k all) (hs : s.Accounted) {m : Move} (hsurf : s.Surfaced m) :
    (s.step m).1.Accounted := by
  cases hthread : m.thread with
  | producer =>
    simp only [CsvSink.step, hthread]
    exact hs.produce h.idle_of_closed h.exited hthread hsurf
  | writer =>
    simp only [CsvSink.step, hthread]
    rcases h with ⟨freed, drained, h⟩ | h
    · exact hs.consume h hthread hsurf
    · rw [CsvSink.consume, h.writer]
      exact hs

/-- What has been passed to `fwrite` when a `flush` returns. -/
lemma passed_of_flush (h : s.Regular k all) {io : IoOutcome}
    (hflush : (s.produce io).2 = some .flush) : (s.produce io).1.file.passed = all.flatten := by
  rcases h with ⟨freed, drained, h⟩ | h
  · exact h.passed_of_returned hflush (.inl rfl)
  · have hnext := h.produce io
    rw [hflush, grown_of_ne _ _ (by simp)] at hnext
    exact hnext.passed_idle (CsvSink.idle_of_returned hflush)

end CsvSink.Regular

/-- Nothing is lost silently in a run in which no `fflush` is the first call to fail. -/
lemma accounted_run (async : Bool) (k : ℕ) (calls : List SinkCall) {schedule : List Move}
    (hsurf : Allowed CsvSink.step CsvSink.Surfaced (.opened async (2 ^ k) calls) schedule) :
    (run CsvSink.step (.opened async (2 ^ k) calls) schedule).1.Accounted := by
  induction schedule using List.reverseRecOn with
  | nil => exact .opened async _ calls
  | append_singleton schedule m ih =>
    obtain ⟨hbefore, hm⟩ := allowed_concat.mp hsurf
    rw [run_concat]
    exact (CsvSink.Regular.run async k calls schedule).accounted (ih hbefore) hm

/-- What an `fflush` does to the file and the flag. -/
lemma CsvSink.step_of_flushes {s : CsvSink} {m : Move} (h : s.flushes m.thread = true) :
    (s.step m).1.file = (s.file.fflush m.io).1 ∧ (s.step m).1.failed = s.failed := by
  cases hthread : m.thread with
  | producer =>
    rw [hthread] at h
    simp only [CsvSink.step, hthread]
    cases hplace : s.producer with
    | fflush | lastFlush | fclose =>
      simp [CsvSink.produce, hplace, CsvSink.returned, CsvSink.failed]
    | idle | tryWrite p w | fwrite p | loadWerr p | storeWerr p | storeFlushReq | loadFlushReq
    | storeStop | join => simp [CsvSink.flushes, hplace] at h
  | writer =>
    rw [hthread] at h
    simp only [CsvSink.step, hthread]
    cases hplace : s.writer with
    | fflush n => simp [CsvSink.consume, hplace, CsvSink.failed]
    | drain d | loadWerr d | storeWerr d | loadFlushReq n | flushEmpty n e | clearFlushReq n
    | loadStop | stopEmpty e | exited => simp [CsvSink.flushes, hplace] at h

/-- Up to the first `fflush` that fails silently, an `fflush` settles the sink exactly if it is
not that one. -/
lemma settled_iff_surfaced (async : Bool) (k : ℕ) (calls : List SinkCall) (schedule : List Move)
    (hsurf : Allowed CsvSink.step CsvSink.Surfaced (.opened async (2 ^ k) calls) schedule)
    (m : Move) :
    let s := (run CsvSink.step (.opened async (2 ^ k) calls) schedule).1
    s.flushes m.thread = true → ((s.step m).1.Settled ↔ s.Surfaced m) := by
  intro s hplace
  obtain ⟨hfile, hfailed⟩ := CsvSink.step_of_flushes hplace
  have hintact := (CsvSink.Regular.run async k calls schedule).intact_of_flushes
    (accounted_run async k calls hsurf) hplace
  rw [CsvSink.Settled, hfile, hfailed]
  constructor
  · rintro (h | h) - hfail
    · exact h
    · rcases hintact with hi | hi
      · exact hi
      · exact absurd h (hi.fflush_failed hfail)
  · intro h
    exact (h.fflush hplace hintact).imp id And.left

/-- **When a `flush` returns with `failed()` still false, everything is on the device**, in both
modes, in every run in which no `fflush` fails before an `fwrite` has come short. -/
theorem flush_reaches_device (async : Bool) (k : ℕ) (calls : List SinkCall) (schedule : List Move)
    (m : Move) (hsurf : Allowed CsvSink.step CsvSink.Surfaced (.opened async (2 ^ k) calls)
      (schedule ++ [m])) :
    let r := run CsvSink.step (.opened async (2 ^ k) calls) schedule
    (r.1.step m).2 = some .flush → (r.1.step m).1.failed = false →
      (r.1.step m).1.file.device = writtenBytes (returnedCalls r.2) := by
  intro r hflush hfailed
  obtain ⟨hbefore, hm⟩ := allowed_concat.mp hsurf
  have hregular := CsvSink.Regular.run async k calls schedule
  have haccounted : r.1.Accounted := accounted_run async k calls hbefore
  cases hthread : m.thread with
  | writer => simp [CsvSink.step, hthread] at hflush
  | producer =>
    simp only [CsvSink.step, hthread] at hflush hfailed ⊢
    rcases haccounted.settled_of_flush hregular.exited hthread hm hflush with hset | hset
    · exact absurd (hfailed.symm.trans hset) Bool.false_ne_true
    · rw [hset, hregular.passed_of_flush hflush]
      rfl

/-- Two records that are flushed in asynchronous mode.  Later in the same run an `fwrite` comes
short, which is reported before an `fflush` fails. -/
theorem flush_reaches_device_async :
    let calls : List SinkCall := [.write [1, 2], .write [3], .flush, .write [4, 5], .flush]
    let producer : Move := { thread := .producer }
    let writer : Move := { thread := .writer }
    let opened : CsvSink := .opened true (2 ^ 2) calls
    let schedule := List.replicate 12 producer ++ List.replicate 10 writer
    let later := List.replicate 8 producer ++
      [writer, writer, { writer with io := { ok := false, accepted := 1, kept := 1 } }] ++
      List.replicate 6 writer ++ [{ writer with io := { ok := false } }, writer]
    let s := (run CsvSink.step opened schedule).1
    ((s.step producer).2 = some .flush ∧ (s.step producer).1.file.device = [1, 2, 3]) ∧
      Allowed CsvSink.step CsvSink.Surfaced opened (schedule ++ later) ∧
      (run CsvSink.step opened (schedule ++ later)).1.failed = true := by
  intro calls producer writer opened schedule later s
  have hdevice := flush_reaches_device true 2 calls schedule producer (by decide +kernel)
    (by decide +kernel) (by decide +kernel)
  refine ⟨⟨by decide +kernel, hdevice.trans ?_⟩, by decide +kernel, by decide +kernel⟩
  decide +kernel

/-- The device refuses the last bytes, and only `fflush` meets the error: `flush` returns,
`failed()` is false, and the record is not on the device, in either mode. -/
theorem flush_loses_silently :
    let calls : List SinkCall := [.write [120], .flush]
    let producer : Move := { thread := .producer }
    let writer : Move := { thread := .writer }
    let fails : IoOutcome := { ok := false }
    let inline := (run CsvSink.step (.opened false (2 ^ 1) calls)
      (List.replicate 3 producer)).1.step { producer with io := fails }
    let async := (run CsvSink.step (.opened true (2 ^ 1) calls)
      (List.replicate 7 producer ++ List.replicate 7 writer ++ [{ writer with io := fails }] ++
        [writer])).1.step producer
    (inline.2 = some .flush ∧ inline.1.failed = false ∧ inline.1.file.device = []) ∧
      (async.2 = some .flush ∧ async.1.failed = false ∧ async.1.file.device = []) := by
  decide

end LobCapture
