/-
# Loads of the newest stores

The steps of a sink whose loads return the newest stores are the steps of `CsvSink.step`, where
the threads share one memory: every run of the one is a run of the other.
-/
import LobCapture.Sink.WeakAsync

namespace LobCapture

open Lib

namespace SinkMemory

/-- The newest value of a variable. -/
def newest (m : SinkMemory) (a : SinkVar) : a.Value := ((m.atomic a).store (m.atomic a).last).1

/-- No variable has a store later than this. -/
def newestLoad (m : SinkMemory) : ℕ :=
  (m.atomic .head).last + (m.atomic .tail).last + (m.atomic .stop).last +
    (m.atomic .flushReq).last + (m.atomic .werr).last

variable {m : SinkMemory} {t : Thread} {a b : SinkVar} {x : a.Value} {mask : ℕ} {p : Bytes}
  {r : SpscByteRing}

lemma last_le_newestLoad (m : SinkMemory) (a : SinkVar) : (m.atomic a).last ≤ m.newestLoad := by
  cases a <;> simp only [newestLoad] <;> omega

lemma loadRelaxed_newestLoad (hm : m.Coherent) (t : Thread) (a : SinkVar) :
    (m.loadRelaxed t a m.newestLoad).2 = m.newest a :=
  Memory.loadRelaxed_of_le (hm.view t a).1 (m.last_le_newestLoad a)

lemma loadAcquire_newestLoad (hm : m.Coherent) (t : Thread) (a : SinkVar) :
    (m.loadAcquire t a m.newestLoad).2 = m.newest a :=
  Memory.loadAcquire_of_le (hm.view t a).1 (m.last_le_newestLoad a)

@[simp] lemma newest_storeRelease_self : SinkMemory.newest (m.storeRelease t a x) a = x := by
  rw [newest, Memory.last_storeRelease, Memory.store_storeRelease_last]

lemma newest_storeRelease_of_ne (h : b ≠ a) :
    SinkMemory.newest (m.storeRelease t a x) b = m.newest b := by
  rw [newest, Memory.atomic_storeRelease_of_ne h, newest]

/-! ## The ring -/

/-- The ring, as it is when all stores and copies are seen at once. -/
structure ShowsRing (m : SinkMemory) (mask : ℕ) (r : SpscByteRing) : Prop where
  mask_eq : r.mask = mask
  head_eq : r.head = m.newest .head
  tail_eq : r.tail = m.newest .tail
  slots : ∀ i < r.slots.length, r.slots[i]? = some (m.cell (.slot i)).value

namespace ShowsRing

lemma next_eq (h : m.ShowsRing mask r) (i : ℕ) : r.next i = next mask i := by
  rw [SpscByteRing.next, h.mask_eq, next]

lemma congr (h : m.ShowsRing mask r) {m' : SinkMemory} (hhead : m'.newest .head = m.newest .head)
    (htail : m'.newest .tail = m.newest .tail)
    (hslot : ∀ i, m'.cell (.slot i) = m.cell (.slot i)) : m'.ShowsRing mask r where
  mask_eq := h.mask_eq
  head_eq := h.head_eq.trans hhead.symm
  tail_eq := h.tail_eq.trans htail.symm
  slots i hi := by rw [hslot]; exact h.slots i hi

lemma useFile (h : m.ShowsRing mask r) {f : File → File} : (m.useFile t f).ShowsRing mask r :=
  h.congr rfl rfl slot_useFile

/-- A step of `try_write`. -/
lemma tryWrite (h : m.ShowsRing mask r) (hm : m.Coherent) (p : Bytes) (w : TryWrite) :
    (m.tryWrite mask m.newestLoad p w).2 = (r.tryWrite p w).2 ∧
      (m.tryWrite mask m.newestLoad p w).1.ShowsRing mask (r.tryWrite p w).1 := by
  cases w with
  | loadTail =>
    refine ⟨?_, { h with }⟩
    simp only [SinkMemory.tryWrite, SpscByteRing.tryWrite, loadRelaxed_newestLoad hm, h.tail_eq]
  | loadHead t =>
    simp only [SinkMemory.tryWrite, SpscByteRing.tryWrite, loadAcquire_newestLoad hm, h.next_eq,
      h.head_eq]
    split_ifs
    · exact ⟨rfl, { h with }⟩
    · exact ⟨rfl, { h with }⟩
  | assign t =>
    refine ⟨rfl, h.mask_eq, h.head_eq, h.tail_eq, fun i hi => ?_⟩
    simp only [SpscByteRing.tryWrite, List.length_set] at hi ⊢
    by_cases hit : i = t
    · subst hit
      rw [List.getElem?_set_self hi]
      simp [SinkMemory.tryWrite]
    · rw [List.getElem?_set_ne (Ne.symm hit), h.slots i hi, SinkMemory.tryWrite,
        Memory.cell_modify_of_ne (by simpa using hit)]
      rfl
  | storeTail t =>
    refine ⟨rfl, h.mask_eq, ?_, ?_, h.slots⟩
    · rw [SinkMemory.tryWrite, newest_storeRelease_of_ne (by decide)]
      exact h.head_eq
    · rw [SinkMemory.tryWrite, newest_storeRelease_self]
      exact h.next_eq t

/-- A step of `drain`, which reads no slot that is not there. -/
lemma drain (h : m.ShowsRing mask r) (hm : m.Coherent) (d : Drain)
    (hslot : ∀ i e n, d = .loop i e n → i ≠ e → i < r.slots.length) :
    (m.drain mask m.newestLoad d).2 = (r.drain d).2 ∧
      (m.drain mask m.newestLoad d).1.ShowsRing mask (r.drain d).1 := by
  cases d with
  | loadHead =>
    refine ⟨?_, { h with }⟩
    simp only [SinkMemory.drain, SpscByteRing.drain, loadRelaxed_newestLoad hm, h.head_eq]
  | loadTail i =>
    refine ⟨?_, { h with }⟩
    simp only [SinkMemory.drain, SpscByteRing.drain, loadAcquire_newestLoad hm, h.tail_eq]
  | loop i e count =>
    simp only [SinkMemory.drain, SpscByteRing.drain, h.next_eq]
    split_ifs with hne hzero
    · refine ⟨?_, h.mask_eq, h.head_eq, h.tail_eq, fun j hj => ?_⟩
      · rw [List.getD_eq_getElem?_getD, h.slots i (hslot i e count rfl hne)]
        rfl
      · rw [Memory.value_read]
        exact h.slots j hj
    · refine ⟨rfl, h.mask_eq, ?_, ?_, h.slots⟩
      · rw [newest_storeRelease_self]
      · rw [newest_storeRelease_of_ne (by decide)]
        exact h.tail_eq
    · exact ⟨rfl, h⟩

/-- A step of `empty`. -/
lemma empty (h : m.ShowsRing mask r) (hm : m.Coherent) (e : EmptyCheck) :
    (m.empty m.newestLoad e).2 = r.empty e ∧
      (m.empty m.newestLoad e).1.ShowsRing mask r := by
  cases e with
  | loadHead =>
    refine ⟨?_, { h with }⟩
    simp only [SinkMemory.empty, SpscByteRing.empty, loadAcquire_newestLoad hm, h.head_eq]
  | loadTail i =>
    refine ⟨?_, { h with }⟩
    simp only [SinkMemory.empty, SpscByteRing.empty, loadAcquire_newestLoad hm, h.tail_eq]

end ShowsRing

end SinkMemory

/-! ## The sink -/

/-- The sink, as it is when everything is seen at once. -/
structure WeakSink.Shows (s : WeakSink) (c : CsvSink) : Prop where
  ring : s.memory.ShowsRing s.mask c.ring
  file : c.file = s.memory.file
  isOpen : c.isOpen = (s.memory.cell .isOpen).value
  async : c.async = s.async
  stop : c.stop = s.memory.newest .stop
  flushReq : c.flushReq = s.memory.newest .flushReq
  werr : c.werr = s.memory.newest .werr
  producer : c.producer = s.producer
  writer : c.writer = s.writer
  todo : c.todo = s.todo

namespace WeakSink.Shows

open SinkMemory

variable {s : WeakSink} {c : CsvSink}

lemma opened (async : Bool) (n : ℕ) (calls : List SinkCall) :
    (WeakSink.opened async n calls).Shows (.opened async n calls) where
  ring :=
    { mask_eq := rfl
      head_eq := rfl
      tail_eq := rfl
      slots := fun i hi => by
        simp only [CsvSink.opened, SpscByteRing.new, List.length_replicate] at hi ⊢
        rw [List.getElem?_replicate, if_pos hi]
        rfl }
  file := rfl
  isOpen := rfl
  async := rfl
  stop := rfl
  flushReq := rfl
  werr := rfl
  producer := rfl
  writer := rfl
  todo := rfl

/-- What a step of the ring leaves alone. -/
structure SameFlags (m m' : SinkMemory) : Prop where
  file : m'.file = m.file
  isOpen : (m'.cell .isOpen).value = (m.cell .isOpen).value
  newest : ∀ a, a ≠ .head → a ≠ .tail → m'.newest a = m.newest a

/-- A step that leaves the flags alone. -/
lemma same (h : s.Shows c) {m' : SinkMemory} {ring' : SpscByteRing} (hsame : SameFlags s.memory m')
    (hring : m'.ShowsRing s.mask ring') {p p' : Producer} {w w' : Writer} {l l' : List SinkCall}
    (hp : p' = p) (hw : w' = w) (hl : l' = l) :
    WeakSink.Shows { s with memory := m', producer := p, writer := w, todo := l }
      { c with ring := ring', producer := p', writer := w', todo := l' } where
  ring := hring
  file := h.file.trans hsame.file.symm
  isOpen := h.isOpen.trans hsame.isOpen.symm
  async := h.async
  stop := h.stop.trans (hsame.newest .stop (by decide) (by decide)).symm
  flushReq := h.flushReq.trans (hsame.newest .flushReq (by decide) (by decide)).symm
  werr := h.werr.trans (hsame.newest .werr (by decide) (by decide)).symm
  producer := hp
  writer := hw
  todo := hl

/-- A load. -/
lemma load (h : s.Shows c) {t : Thread} {a : SinkVar} {i : ℕ} {p p' : Producer} {w w' : Writer}
    (hp : p' = p) (hw : w' = w) :
    WeakSink.Shows
      { s with memory := (s.memory.loadAcquire t a i).1, producer := p, writer := w }
      { c with producer := p', writer := w' } :=
  { h with
    ring := { h.ring with }
    producer := hp
    writer := hw }

/-- A step that uses the file. -/
lemma useFile (h : s.Shows c) (t : Thread) (f : File → File) {p p' : Producer} {w w' : Writer}
    (hp : p' = p) (hw : w' = w) :
    WeakSink.Shows { s with memory := s.memory.useFile t f, producer := p, writer := w }
      { c with file := f c.file, producer := p', writer := w' } :=
  { h with
    ring := h.ring.useFile
    file := by rw [file_useFile, h.file]
    isOpen := by rw [isOpen_useFile, h.isOpen]
    producer := hp
    writer := hw }

/-- A flag is stored. -/
lemma store (h : s.Shows c) {t : Thread} {a : SinkVar} {x : a.Value} {p p' : Producer}
    {w w' : Writer} {stop flushReq werr : Bool} (hring : a ≠ .head ∧ a ≠ .tail)
    (hstop : stop = SinkMemory.newest (s.memory.storeRelease t a x) .stop)
    (hflushReq : flushReq = SinkMemory.newest (s.memory.storeRelease t a x) .flushReq)
    (hwerr : werr = SinkMemory.newest (s.memory.storeRelease t a x) .werr)
    (hp : p' = p) (hw : w' = w) :
    WeakSink.Shows { s with memory := s.memory.storeRelease t a x, producer := p, writer := w }
      { c with stop := stop, flushReq := flushReq, werr := werr, producer := p', writer := w' } :=
  { h with
    ring := h.ring.congr (newest_storeRelease_of_ne hring.1.symm)
      (newest_storeRelease_of_ne hring.2.symm) fun _ => rfl
    stop := hstop
    flushReq := hflushReq
    werr := hwerr
    producer := hp
    writer := hw }

lemma same_tryWrite (m : SinkMemory) (mask load : ℕ) (p : Bytes) (w : TryWrite) :
    SameFlags m (m.tryWrite mask load p w).1 := by
  cases w with
  | loadTail => exact ⟨rfl, rfl, fun _ _ _ => rfl⟩
  | loadHead t =>
    simp only [SinkMemory.tryWrite]
    split_ifs <;> exact ⟨rfl, rfl, fun _ _ _ => rfl⟩
  | assign t =>
    have hcell : ∀ b, b ≠ .slot t →
        (m.tryWrite mask load p (.assign t)).1.cell b = m.cell b := fun b hb => by
      simp only [SinkMemory.tryWrite]
      rw [Memory.cell_modify_of_ne hb]
      rfl
    exact ⟨congrArg Cell.value (hcell .file (by simp)),
      congrArg Cell.value (hcell .isOpen (by simp)), fun _ _ _ => rfl⟩
  | storeTail t => exact ⟨rfl, rfl, fun a _ ha => newest_storeRelease_of_ne ha⟩

lemma same_drain (m : SinkMemory) (mask load : ℕ) (d : Drain) :
    SameFlags m (m.drain mask load d).1 := by
  cases d with
  | loadHead | loadTail i => exact ⟨rfl, rfl, fun _ _ _ => rfl⟩
  | loop i e count =>
    simp only [SinkMemory.drain]
    split_ifs
    · have hcell : ∀ b, b ≠ .slot i →
          ((m.check (i ≤ mask)).read .writer (.slot i)).1.cell b = m.cell b := fun b hb =>
        Memory.cell_read_of_ne (m := m.check (i ≤ mask)) hb
      exact ⟨congrArg Cell.value (hcell .file (by simp)),
        congrArg Cell.value (hcell .isOpen (by simp)), fun _ _ _ => rfl⟩
    · exact ⟨rfl, rfl, fun a ha _ => newest_storeRelease_of_ne ha⟩
    · exact ⟨rfl, rfl, fun _ _ _ => rfl⟩

lemma same_empty (m : SinkMemory) (load : ℕ) (e : EmptyCheck) :
    SameFlags m (m.empty load e).1 := by
  cases e <;> exact ⟨rfl, rfl, fun _ _ _ => rfl⟩

/-- The next call begins. -/
lemma begin (h : s.Shows c) : s.begin.1.Shows c.begin.1 ∧ s.begin.2 = c.begin.2 := by
  simp only [WeakSink.begin, CsvSink.begin, h.todo]
  cases s.todo with
  | nil => exact ⟨h, rfl⟩
  | cons call rest =>
    have hsame : SameFlags s.memory (s.memory.read .producer .isOpen).1 :=
      ⟨congrArg Cell.value (Memory.cell_read_of_ne (by simp)), Memory.value_read,
        fun _ _ _ => rfl⟩
    have hring : SinkMemory.ShowsRing (s.memory.read .producer .isOpen).1 s.mask c.ring :=
      h.ring.congr rfl rfl fun i => by rw [Memory.cell_read_of_ne (by simp)]
    have hvalue : (s.memory.read .producer .isOpen).2 = c.isOpen := h.isOpen.symm
    dsimp only
    by_cases hclosed : c.isOpen = false
    · rw [if_pos hclosed, if_pos (hvalue.trans hclosed)]
      exact ⟨h.same hsame hring rfl h.writer rfl, rfl⟩
    · rw [if_neg hclosed, if_neg (fun hc => hclosed (hvalue.symm.trans hc))]
      exact ⟨h.same hsame hring (by cases call <;> simp only [h.async]) h.writer rfl, rfl⟩

/-- A step of the producer. -/
lemma produce (h : s.Shows c) (hm : s.memory.Coherent) (io : IoOutcome) :
    (s.produce io s.memory.newestLoad).1.Shows (c.produce io).1 ∧
      (s.produce io s.memory.newestLoad).2 = (c.produce io).2 := by
  have hload := fun a => loadAcquire_newestLoad hm .producer a
  have hproducer := h.producer
  cases hplace : s.producer with
  | idle =>
    rw [hplace] at hproducer
    simp only [WeakSink.produce, CsvSink.produce, hplace, hproducer]
    exact h.begin
  | tryWrite p w =>
    rw [hplace] at hproducer
    obtain ⟨hresult, hring⟩ := h.ring.tryWrite hm p w
    have hsame := same_tryWrite s.memory s.mask s.memory.newestLoad p w
    simp only [WeakSink.produce, CsvSink.produce, hplace, hproducer]
    rcases htry : s.memory.tryWrite s.mask s.memory.newestLoad p w with ⟨m', w'⟩
    rcases htry' : c.ring.tryWrite p w with ⟨ring, w''⟩
    rw [htry, htry'] at hresult hring
    rw [htry] at hsame
    obtain rfl : w' = w'' := hresult
    rcases w' with w' | b
    · exact ⟨h.same hsame hring rfl h.writer h.todo, rfl⟩
    · cases b
      · exact ⟨h.same hsame hring rfl h.writer h.todo, rfl⟩
      · exact ⟨h.same hsame hring rfl h.writer h.todo, rfl⟩
  | fwrite p =>
    rw [hplace] at hproducer
    simp only [WeakSink.produce, CsvSink.produce, hplace, hproducer, ← h.file]
    split_ifs
    · exact ⟨h.useFile .producer (fun f => (f.fwrite p io).1) rfl h.writer, rfl⟩
    · exact ⟨h.useFile .producer (fun f => (f.fwrite p io).1) rfl h.writer, rfl⟩
  | loadWerr p =>
    rw [hplace] at hproducer
    simp only [WeakSink.produce, CsvSink.produce, hplace, hproducer, hload, ← h.werr]
    split_ifs
    · exact ⟨h.load rfl h.writer, rfl⟩
    · exact ⟨h.load rfl h.writer, rfl⟩
  | storeWerr p =>
    rw [hplace] at hproducer
    simp only [WeakSink.produce, CsvSink.produce, hplace, hproducer]
    refine ⟨h.store (by decide) ?_ ?_ ?_ rfl h.writer, rfl⟩
    · rw [newest_storeRelease_of_ne (by decide)]
      exact h.stop
    · rw [newest_storeRelease_of_ne (by decide)]
      exact h.flushReq
    · rw [newest_storeRelease_self]
  | storeFlushReq =>
    rw [hplace] at hproducer
    simp only [WeakSink.produce, CsvSink.produce, hplace, hproducer]
    refine ⟨h.store (by decide) ?_ ?_ ?_ rfl h.writer, trivial⟩
    · rw [newest_storeRelease_of_ne (by decide)]
      exact h.stop
    · rw [newest_storeRelease_self]
    · rw [newest_storeRelease_of_ne (by decide)]
      exact h.werr
  | loadFlushReq =>
    rw [hplace] at hproducer
    simp only [WeakSink.produce, CsvSink.produce, hplace, hproducer, hload, ← h.flushReq]
    split_ifs
    · exact ⟨h.load hproducer h.writer, rfl⟩
    · exact ⟨h.load rfl h.writer, rfl⟩
  | fflush =>
    rw [hplace] at hproducer
    simp only [WeakSink.produce, CsvSink.produce, hplace, hproducer]
    exact ⟨h.useFile .producer (fun f => (f.fflush io).1) rfl h.writer, rfl⟩
  | storeStop =>
    rw [hplace] at hproducer
    simp only [WeakSink.produce, CsvSink.produce, hplace, hproducer]
    refine ⟨h.store (by decide) ?_ ?_ ?_ rfl h.writer, trivial⟩
    · rw [newest_storeRelease_self]
    · rw [newest_storeRelease_of_ne (by decide)]
      exact h.flushReq
    · rw [newest_storeRelease_of_ne (by decide)]
      exact h.werr
  | join =>
    rw [hplace] at hproducer
    simp only [WeakSink.produce, CsvSink.produce, hplace, hproducer, h.writer]
    split_ifs
    · exact ⟨{ h with ring := { h.ring with }, producer := rfl, writer := rfl }, rfl⟩
    · exact ⟨h, rfl⟩
  | lastFlush =>
    rw [hplace] at hproducer
    simp only [WeakSink.produce, CsvSink.produce, hplace, hproducer]
    exact ⟨h.useFile .producer (fun f => (f.fflush io).1) rfl h.writer, trivial⟩
  | fclose =>
    rw [hplace] at hproducer
    have huse := h.useFile .producer (fun f => (f.fflush io).1) hproducer h.writer
    simp only [WeakSink.produce, CsvSink.produce, hplace, hproducer]
    have hcell : ∀ b, b ≠ .isOpen →
        ((s.memory.useFile .producer fun f => (f.fflush io).1).modify .producer .isOpen
          fun _ => false).cell b =
        (s.memory.useFile .producer fun f => (f.fflush io).1).cell b := fun b hb =>
      Memory.cell_modify_of_ne hb
    refine ⟨{ huse with ring := ?_, file := ?_, isOpen := ?_, producer := rfl }, rfl⟩
    · exact huse.ring.congr rfl rfl fun i => hcell _ (by simp)
    · exact huse.file.trans (congrArg Cell.value (hcell .file (by simp))).symm
    · simp only [CsvSink.returned, WeakSink.returned, Memory.value_modify]

/-- A step of the writer, which reads no slot that is not there. -/
lemma consume (h : s.Shows c) (hm : s.memory.Coherent) (io : IoOutcome)
    (hslot : ∀ i e n, s.writer = .drain (.loop i e n) → i ≠ e → i < c.ring.slots.length) :
    (s.consume io s.memory.newestLoad).Shows (c.consume io) := by
  have hload := fun a => loadAcquire_newestLoad hm .writer a
  have hwriter := h.writer
  cases hplace : s.writer with
  | drain d =>
    rw [hplace] at hwriter
    obtain ⟨hresult, hring⟩ := h.ring.drain hm d fun i e n hd => hslot i e n (by rw [hplace, hd])
    have hsame := same_drain s.memory s.mask s.memory.newestLoad d
    simp only [WeakSink.consume, CsvSink.consume, hplace, hwriter]
    rcases hdrain : s.memory.drain s.mask s.memory.newestLoad d with ⟨m', d'⟩
    rcases hdrain' : c.ring.drain d with ⟨ring, d''⟩
    rw [hdrain, hdrain'] at hresult hring
    rw [hdrain] at hsame
    obtain rfl : d' = d'' := hresult
    have hnext := fun w' => h.same hsame hring h.producer (rfl : w' = w') h.todo
    cases d' with
    | next d' => exact hnext _
    | record p d' =>
      have hfile : m'.file = c.file := hsame.file.trans h.file.symm
      dsimp only
      rw [hfile]
      exact (hnext (.drain d')).useFile .writer (fun f => (f.fwrite p io).1) h.producer rfl
    | done n => exact hnext _
  | loadWerr d =>
    rw [hplace] at hwriter
    simp only [WeakSink.consume, CsvSink.consume, hplace, hwriter, hload, ← h.werr]
    exact h.load h.producer rfl
  | storeWerr d =>
    rw [hplace] at hwriter
    simp only [WeakSink.consume, CsvSink.consume, hplace, hwriter]
    refine h.store (by decide) ?_ ?_ ?_ h.producer rfl
    · rw [newest_storeRelease_of_ne (by decide)]
      exact h.stop
    · rw [newest_storeRelease_of_ne (by decide)]
      exact h.flushReq
    · rw [newest_storeRelease_self]
  | loadFlushReq n =>
    rw [hplace] at hwriter
    simp only [WeakSink.consume, CsvSink.consume, hplace, hwriter, hload, ← h.flushReq]
    exact h.load h.producer rfl
  | flushEmpty n e =>
    rw [hplace] at hwriter
    obtain ⟨hresult, hring⟩ := h.ring.empty hm e
    have hsame := same_empty s.memory s.memory.newestLoad e
    simp only [WeakSink.consume, CsvSink.consume, hplace, hwriter]
    rcases hempty : s.memory.empty s.memory.newestLoad e with ⟨m', e'⟩
    rw [hempty] at hresult hring hsame
    rw [← show e' = _ from hresult]
    cases e' with
    | inl e' => exact h.same hsame hring h.producer rfl h.todo
    | inr b => exact h.same hsame hring h.producer rfl h.todo
  | fflush n =>
    rw [hplace] at hwriter
    simp only [WeakSink.consume, CsvSink.consume, hplace, hwriter]
    exact h.useFile .writer (fun f => (f.fflush io).1) h.producer rfl
  | clearFlushReq n =>
    rw [hplace] at hwriter
    simp only [WeakSink.consume, CsvSink.consume, hplace, hwriter]
    refine h.store (by decide) ?_ ?_ ?_ h.producer rfl
    · rw [newest_storeRelease_of_ne (by decide)]
      exact h.stop
    · rw [newest_storeRelease_self]
    · rw [newest_storeRelease_of_ne (by decide)]
      exact h.werr
  | loadStop =>
    rw [hplace] at hwriter
    simp only [WeakSink.consume, CsvSink.consume, hplace, hwriter, hload, ← h.stop]
    exact h.load h.producer rfl
  | stopEmpty e =>
    rw [hplace] at hwriter
    obtain ⟨hresult, hring⟩ := h.ring.empty hm e
    have hsame := same_empty s.memory s.memory.newestLoad e
    simp only [WeakSink.consume, CsvSink.consume, hplace, hwriter]
    rcases hempty : s.memory.empty s.memory.newestLoad e with ⟨m', e'⟩
    rw [hempty] at hresult hring hsame
    rw [← show e' = _ from hresult]
    cases e' with
    | inl e' => exact h.same hsame hring h.producer rfl h.todo
    | inr b => exact h.same hsame hring h.producer rfl h.todo
  | exited =>
    rw [hplace] at hwriter
    simp only [WeakSink.consume, CsvSink.consume, hplace, hwriter]
    exact h

/-- A step of either thread that loads the newest stores. -/
lemma step (h : s.Shows c) (hm : s.memory.Coherent) (m : Move)
    (hslot : ∀ i e n, s.writer = .drain (.loop i e n) → i ≠ e → i < c.ring.slots.length) :
    (s.step { m with load := s.memory.newestLoad }).1.Shows (c.step m).1 ∧
      (s.step { m with load := s.memory.newestLoad }).2 = (c.step m).2 := by
  cases hthread : m.thread with
  | producer =>
    simp only [WeakSink.step, CsvSink.step, hthread]
    exact h.produce hm m.io
  | writer =>
    simp only [WeakSink.step, CsvSink.step, hthread]
    exact ⟨h.consume hm m.io hslot, trivial⟩

end WeakSink.Shows

/-- The writer is in a slot of the ring. -/
lemma CsvSink.Sound.slot_lt {k freed drained : ℕ} {all : List Bytes} {c : CsvSink}
    (h : c.Sound k all freed drained) {i e n : ℕ} (hplace : c.writer = .drain (.loop i e n)) :
    i < c.ring.slots.length := by
  have hw := h.writer
  rw [hplace] at hw
  obtain ⟨rfl, -⟩ := hw
  rw [h.holds.window.length_slots]
  exact Nat.mod_lt _ (Nat.two_pow_pos k)

/-- **Nothing is left out**: every run of the threads that see each other's stores at once is a
run in which the newest stores are loaded. -/
theorem WeakSink.exists_run_shows (k : ℕ) (calls : List SinkCall) (schedule : List Move) :
    ∃ schedule' : List WeakMove, schedule'.map WeakMove.toMove = schedule ∧
      (run step (opened true (2 ^ k) calls) schedule').1.Shows
        (run CsvSink.step (.opened true (2 ^ k) calls) schedule).1 ∧
      returnedCalls (run step (opened true (2 ^ k) calls) schedule').2 =
        LobCapture.returnedCalls (run CsvSink.step (.opened true (2 ^ k) calls) schedule).2 := by
  induction schedule using List.reverseRecOn with
  | nil => exact ⟨[], rfl, .opened true (2 ^ k) calls, rfl⟩
  | append_singleton schedule m ih =>
    obtain ⟨schedule', hmap, hshows, hcalls⟩ := ih
    obtain ⟨_, _, hweak⟩ := (fits_run k calls schedule').sound
    obtain ⟨freed, drained, hsound⟩ := CsvSink.Sound.run k calls schedule
    set s := (run step (opened true (2 ^ k) calls) schedule').1
    obtain ⟨hnext, hcall⟩ := hshows.step hweak.holds.coherent m fun i e n hplace _ =>
      hsound.slot_lt (hshows.writer.trans hplace)
    refine ⟨schedule' ++ [{ m with load := s.memory.newestLoad }], ?_, ?_, ?_⟩
    · rw [List.map_append, hmap]
      rfl
    · rw [run_concat, run_concat]
      exact hnext
    · rw [run_concat, run_concat, returnedCalls_concat, LobCapture.returnedCalls_concat, hcalls,
        hcall]

end LobCapture
