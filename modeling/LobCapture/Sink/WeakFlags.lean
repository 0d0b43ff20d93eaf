/-
# Flags and stdio under release and acquire

What the threads of a sink know by `flush_req_`, `stop_` and `werr_`, whatever stores of them they
load, and who may use the `FILE`.  The producer makes a request only when it has seen the answer to
the one before, and the writer answers only what it has seen: so each of them knows the newest
store of `flush_req_` when it makes the next one, although both store it.
-/
import LobCapture.Sink.WeakSink
import LobCapture.Sink.Driver

namespace LobCapture

open Lib

/-! ## The flags -/

/-- What the threads know by the flags.  The writer finds a request only while the producer is
waiting, the producer an answer only when everything has been passed on, and `stop_` is only set
while the producer is closing the sink. -/
structure SinkMemory.Flags (m : SinkMemory) (len drained : ℕ) (p : Producer) (w : Writer) :
    Prop where
  asked : ∀ i ≤ (m.atomic .flushReq).last, (m.view .writer).seen .flushReq ≤ i →
    ((m.atomic .flushReq).store i).1 = true →
      i = (m.atomic .flushReq).last ∧ p = .loadFlushReq ∧
        ((m.atomic .flushReq).store i).2.seen .tail = len
  answered : p = .loadFlushReq → ∀ i ≤ (m.atomic .flushReq).last,
    (m.view .producer).seen .flushReq ≤ i → ((m.atomic .flushReq).store i).1 = false →
      i = (m.atomic .flushReq).last ∧ drained = len ∧ ¬ w.Reporting ∧
        ((m.atomic .flushReq).store i).2.seen .werr = (m.atomic .werr).last
  own_flushReq : p ≠ .loadFlushReq →
    (m.view .producer).seen .flushReq = (m.atomic .flushReq).last
  flushing : w.Flushing → (m.view .writer).seen .flushReq = (m.atomic .flushReq).last ∧
    ((m.atomic .flushReq).store (m.atomic .flushReq).last).1 = true ∧
      (m.view .writer).seen .tail = len
  stops : ∀ i ≤ (m.atomic .stop).last, ((m.atomic .stop).store i).1 = true →
    ((m.atomic .stop).store i).2.seen .tail = len ∧
      (p.Closing ∨ (m.cell .isOpen).value = false)
  own_stop : (m.view .producer).seen .stop = (m.atomic .stop).last
  stopping : w.Stopping → (m.view .writer).seen .tail = len ∧
    (p.Closing ∨ (m.cell .isOpen).value = false)
  own_werr : (m.view .writer).seen .werr = (m.atomic .werr).last
  joined : p.Joined ∨ (m.cell .isOpen).value = false →
    w = .exited ∧ m.view .writer ≤ m.view .producer

/-- Who has used the file, and `f_`. -/
structure SinkMemory.Cells (m : SinkMemory) (p : Producer) : Prop where
  pointer : (m.cell .isOpen).written .writer = 0
  unclosed : (m.cell .isOpen).value = true → (m.cell .isOpen).written .producer = 0
  file : (m.cell .isOpen).value = true → ¬ p.Joined →
    (m.cell .file).written .producer = 0 ∧ (m.cell .file).read .producer = 0

namespace SinkMemory

variable {m m' : SinkMemory} {f : File → File} {len len' drained drained' : ℕ}
  {p p' : Producer} {w w' : Writer}

/-! ### Steps that store no flag -/

namespace Flags

/-- While the producer is not waiting for a flush, there is no request. -/
lemma not_flushing (h : m.Flags len drained p w) (hp : p ≠ .loadFlushReq) : ¬ w.Flushing :=
  fun hflush => by
    obtain ⟨hseen, htrue, -⟩ := h.flushing hflush
    exact hp (h.asked _ le_rfl hseen.le htrue).2.1

/-- While it is not closing the sink, there is no other reason to stop. -/
lemma not_stopping (h : m.Flags len drained p w) (hp : ¬ p.Closing)
    (hopen : (m.cell .isOpen).value = true) : ¬ w.Stopping := fun hstop =>
  (h.stopping hstop).2.elim hp fun hclosed => Bool.false_ne_true (hclosed.symm.trans hopen)

/-- A step of the writer. -/
lemma writer_step (h : m.Flags len drained p w) (hm' : m'.Coherent)
    (hatomic : ∀ a, a ≠ .head → a ≠ .tail → m'.atomic a = m.atomic a)
    (hview : ∀ t, m.view t ≤ m'.view t)
    (hisOpen : (m'.cell .isOpen).value = (m.cell .isOpen).value) (hloop : w ≠ .exited)
    (hdrained : drained = len → ¬ w.Reporting → drained' = len ∧ ¬ w'.Reporting)
    (hflushing : w'.Flushing → (m'.view .writer).seen .flushReq = (m.atomic .flushReq).last ∧
      ((m.atomic .flushReq).store (m.atomic .flushReq).last).1 = true ∧
        (m'.view .writer).seen .tail = len)
    (hstopping : w'.Stopping → (m'.view .writer).seen .tail = len ∧
      (p.Closing ∨ (m.cell .isOpen).value = false)) :
    m'.Flags len drained' p w' := by
  have hflushReq := hatomic .flushReq (by decide) (by decide)
  have hstop := hatomic .stop (by decide) (by decide)
  have hwerr := hatomic .werr (by decide) (by decide)
  refine ⟨?_, ?_, ?_, ?_, ?_, ?_, ?_, ?_, ?_⟩
  · rw [hflushReq]
    exact fun i hi hseen => h.asked i hi (((hview .writer).1 _).trans hseen)
  · rw [hflushReq, hwerr]
    intro hp i hi hseen hfalse
    obtain ⟨rfl, hall, hreport, hknown⟩ :=
      h.answered hp i hi (((hview .producer).1 _).trans hseen) hfalse
    obtain ⟨hall', hreport'⟩ := hdrained hall hreport
    exact ⟨rfl, hall', hreport', hknown⟩
  · exact fun hp => Memory.seen_eq_last hm' (h.own_flushReq hp) (by rw [hflushReq]) (hview _)
  · rw [hflushReq]
    exact hflushing
  · rw [hstop, hisOpen]
    exact h.stops
  · exact Memory.seen_eq_last hm' h.own_stop (by rw [hstop]) (hview _)
  · rw [hisOpen]
    exact hstopping
  · exact Memory.seen_eq_last hm' h.own_werr (by rw [hwerr]) (hview _)
  · rw [hisOpen]
    exact fun hj => absurd (h.joined hj).1 hloop

/-- A step of the producer, which is not waiting for a flush. -/
lemma producer_step (h : m.Flags len drained p w) (hp : p ≠ .loadFlushReq)
    (hp' : p' ≠ .loadFlushReq) (hm' : m'.Coherent)
    (hatomic : ∀ a, a ≠ .head → a ≠ .tail → m'.atomic a = m.atomic a)
    (hview : ∀ t, m.view t ≤ m'.view t) (hlast : (m'.atomic .tail).last = len')
    (hclosing : p.Closing ∨ (m.cell .isOpen).value = false →
      len' = len ∧ (p'.Closing ∨ (m'.cell .isOpen).value = false))
    (hjoined : p'.Joined ∨ (m'.cell .isOpen).value = false →
      w = .exited ∧ m'.view .writer ≤ m'.view .producer) :
    m'.Flags len' drained p' w := by
  have hflushReq := hatomic .flushReq (by decide) (by decide)
  have hstop := hatomic .stop (by decide) (by decide)
  have hwerr := hatomic .werr (by decide) (by decide)
  refine ⟨?_, fun hf => absurd hf hp', ?_, fun hf => absurd hf (h.not_flushing hp), ?_, ?_, ?_, ?_,
    hjoined⟩
  · rw [hflushReq]
    intro i hi hseen htrue
    exact absurd (h.asked i hi (((hview .writer).1 _).trans hseen) htrue).2.1 hp
  · exact fun _ => Memory.seen_eq_last hm' (h.own_flushReq hp) (by rw [hflushReq]) (hview _)
  · rw [hstop]
    intro i hi htrue
    obtain ⟨hseen, hc⟩ := h.stops i hi htrue
    obtain ⟨rfl, hc'⟩ := hclosing hc
    exact ⟨hseen, hc'⟩
  · exact Memory.seen_eq_last hm' h.own_stop (by rw [hstop]) (hview _)
  · intro hs
    obtain ⟨hseen, hc⟩ := h.stopping hs
    obtain ⟨rfl, hc'⟩ := hclosing hc
    refine ⟨Nat.le_antisymm ?_ ?_, hc'⟩
    · rw [← hlast]
      exact (hm'.view .writer .tail).1
    · rw [← hseen]
      exact (hview .writer).1 .tail
  · exact Memory.seen_eq_last hm' h.own_werr (by rw [hwerr]) (hview _)

/-! ### Steps that store a flag -/

lemma request (h : m.Flags len drained .storeFlushReq w) (hm : m.Coherent)
    (hlast : (m.atomic .tail).last = len)
    (hown : (m.view .producer).seen .tail = (m.atomic .tail).last)
    (hopen : (m.cell .isOpen).value = true) :
    SinkMemory.Flags (m.storeRelease .producer .flushReq true) len drained .loadFlushReq w := by
  set m' : SinkMemory := m.storeRelease .producer .flushReq true
  have hview : ∀ t, m.view t ≤ m'.view t := fun t => Memory.view_le_storeRelease t
  have hm' : m'.Coherent := hm.storeRelease
  have hatomic : ∀ a, a ≠ .flushReq → m'.atomic a = m.atomic a := fun a ha =>
    Memory.atomic_storeRelease_of_ne ha
  have hnewest : (m'.atomic .flushReq).last = (m.atomic .flushReq).last + 1 :=
    Memory.last_storeRelease
  have hnew : (m'.atomic .flushReq).store ((m.atomic .flushReq).last + 1) =
      (true, m'.view .producer) := Memory.store_storeRelease_last
  have hseen : (m'.view .producer).seen .flushReq = (m.atomic .flushReq).last + 1 :=
    Memory.seen_storeRelease hm
  have htail : (m'.view .producer).seen .tail = len := by
    rw [Memory.seen_eq_last hm' hown (by rw [hatomic _ (by decide)]) (hview _),
      hatomic _ (by decide), hlast]
  have hclosing : ¬ (Producer.storeFlushReq.Closing ∨ (m.cell .isOpen).value = false) := by
    simp [Producer.Closing, hopen]
  refine ⟨?_, ?_, fun hp => absurd rfl hp,
    fun hf => absurd hf (h.not_flushing (by decide)), ?_, ?_, ?_, ?_,
    by simp [m', Producer.Joined, hopen]⟩
  · intro i hi hle htrue
    rw [hnewest] at hi ⊢
    rcases Nat.le_succ_iff.mp hi with hi | rfl
    · rw [Memory.store_storeRelease hi] at htrue
      exact absurd (h.asked i hi hle htrue).2.1 (by decide)
    · rw [hnew]
      exact ⟨rfl, rfl, htail⟩
  · intro _ i hi hle hfalse
    rw [hnewest] at hi
    obtain rfl : i = (m.atomic .flushReq).last + 1 := Nat.le_antisymm hi (hseen ▸ hle)
    rw [hnew] at hfalse
    exact absurd hfalse (by simp)
  · rw [hatomic _ (by decide)]
    exact fun i hi htrue => absurd (h.stops i hi htrue).2 hclosing
  · exact Memory.seen_eq_last hm' h.own_stop (by rw [hatomic _ (by decide)]) (hview _)
  · exact fun hs => absurd (h.stopping hs).2 hclosing
  · exact Memory.seen_eq_last hm' h.own_werr (by rw [hatomic _ (by decide)]) (hview _)

lemma answer {n : ℕ} (h : m.Flags len len p (.clearFlushReq n)) (hm : m.Coherent) :
    SinkMemory.Flags (m.storeRelease .writer .flushReq false) len len p
      (CsvSink.afterFlush n) := by
  set m' : SinkMemory := m.storeRelease .writer .flushReq false
  have hview : ∀ t, m.view t ≤ m'.view t := fun t => Memory.view_le_storeRelease t
  have hm' : m'.Coherent := hm.storeRelease
  have hatomic : ∀ a, a ≠ .flushReq → m'.atomic a = m.atomic a := fun a ha =>
    Memory.atomic_storeRelease_of_ne ha
  have hnewest : (m'.atomic .flushReq).last = (m.atomic .flushReq).last + 1 :=
    Memory.last_storeRelease
  have hnew : (m'.atomic .flushReq).store ((m.atomic .flushReq).last + 1) =
      (false, m'.view .writer) := Memory.store_storeRelease_last
  have hseen : (m'.view .writer).seen .flushReq = (m.atomic .flushReq).last + 1 :=
    Memory.seen_storeRelease hm
  have hwerr : (m'.view .writer).seen .werr = (m'.atomic .werr).last :=
    Memory.seen_eq_last hm' h.own_werr (by rw [hatomic _ (by decide)]) (hview _)
  -- the request is the newest store, and the producer waits
  obtain ⟨hown, htrue, -⟩ := h.flushing trivial
  have hp := (h.asked _ le_rfl hown.le htrue).2.1
  refine ⟨?_, ?_, fun hne => absurd hp hne, by simp, ?_, ?_, by simp, hwerr,
    fun hj => absurd (h.joined hj).1 (by simp)⟩
  · intro i hi hle htrue'
    rw [hnewest] at hi
    obtain rfl : i = (m.atomic .flushReq).last + 1 := Nat.le_antisymm hi (hseen ▸ hle)
    rw [hnew] at htrue'
    exact absurd htrue' (by simp)
  · intro _ i hi hle hfalse
    rw [hnewest] at hi ⊢
    rcases Nat.le_succ_iff.mp hi with hi | rfl
    · rw [Memory.store_storeRelease hi] at hfalse
      obtain ⟨rfl, -⟩ := h.answered hp i hi (((hview .producer).1 _).trans hle) hfalse
      exact absurd (htrue.symm.trans hfalse) (by simp)
    · rw [hnew]
      exact ⟨rfl, rfl, CsvSink.not_reporting_afterFlush n, hwerr⟩
  · rw [hatomic _ (by decide)]
    exact h.stops
  · exact Memory.seen_eq_last hm' h.own_stop (by rw [hatomic _ (by decide)]) (hview _)

/-- The producer asks the writer to stop. -/
lemma askToStop (h : m.Flags len drained .storeStop w) (hm : m.Coherent)
    (hlast : (m.atomic .tail).last = len)
    (hown : (m.view .producer).seen .tail = (m.atomic .tail).last)
    (hopen : (m.cell .isOpen).value = true) :
    SinkMemory.Flags (m.storeRelease .producer .stop true) len drained .join w := by
  set m' : SinkMemory := m.storeRelease .producer .stop true
  have hview : ∀ t, m.view t ≤ m'.view t := fun t => Memory.view_le_storeRelease t
  have hm' : m'.Coherent := hm.storeRelease
  have hatomic : ∀ a, a ≠ .stop → m'.atomic a = m.atomic a := fun a ha =>
    Memory.atomic_storeRelease_of_ne ha
  have hnewest : (m'.atomic .stop).last = (m.atomic .stop).last + 1 := Memory.last_storeRelease
  have hnew : (m'.atomic .stop).store ((m.atomic .stop).last + 1) =
      (true, m'.view .producer) := Memory.store_storeRelease_last
  have htail : (m'.view .producer).seen .tail = len := by
    rw [Memory.seen_eq_last hm' hown (by rw [hatomic _ (by decide)]) (hview _),
      hatomic _ (by decide), hlast]
  have hclosing : ¬ (Producer.storeStop.Closing ∨ (m.cell .isOpen).value = false) := by
    simp [Producer.Closing, hopen]
  refine ⟨?_, fun hp => absurd hp (by decide), fun _ => ?_,
    fun hf => absurd hf (h.not_flushing (by decide)), ?_, ?_,
    fun hs => absurd (h.stopping hs).2 hclosing, ?_, by simp [m', Producer.Joined, hopen]⟩
  · rw [hatomic _ (by decide)]
    exact fun i hi hle htrue => absurd (h.asked i hi hle htrue).2.1 (by decide)
  · exact Memory.seen_eq_last hm' (h.own_flushReq (by decide)) (by rw [hatomic _ (by decide)])
      (hview _)
  · intro i hi htrue
    rw [hnewest] at hi
    rcases Nat.le_succ_iff.mp hi with hi | rfl
    · rw [Memory.store_storeRelease hi] at htrue
      exact absurd (h.stops i hi htrue).2 hclosing
    · rw [hnew]
      exact ⟨htail, .inl trivial⟩
  · rw [hnewest]
    exact Memory.seen_storeRelease hm
  · exact Memory.seen_eq_last hm' h.own_werr (by rw [hatomic _ (by decide)]) (hview _)

/-- The writer notes an error, which it does only while the producer waits for no answer. -/
lemma note {d : Drain} (h : m.Flags len drained p (.storeWerr d)) (hm : m.Coherent) :
    SinkMemory.Flags (m.storeRelease .writer .werr true) len drained p (.drain d) := by
  set m' : SinkMemory := m.storeRelease .writer .werr true
  have hview : ∀ t, m.view t ≤ m'.view t := fun t => Memory.view_le_storeRelease t
  have hm' : m'.Coherent := hm.storeRelease
  have hatomic : ∀ a, a ≠ .werr → m'.atomic a = m.atomic a := fun a ha =>
    Memory.atomic_storeRelease_of_ne ha
  refine ⟨?_, ?_, fun hp => ?_, False.elim, ?_, ?_, False.elim, ?_,
    fun hj => absurd (h.joined hj).1 (by simp)⟩
  · rw [hatomic _ (by decide)]
    exact fun i hi hle => h.asked i hi (((hview .writer).1 _).trans hle)
  · rw [hatomic .flushReq (by decide)]
    intro hp i hi hle hfalse
    exact absurd trivial (h.answered hp i hi (((hview .producer).1 _).trans hle) hfalse).2.2.1
  · exact Memory.seen_eq_last hm' (h.own_flushReq hp) (by rw [hatomic _ (by decide)]) (hview _)
  · rw [hatomic _ (by decide)]
    exact h.stops
  · exact Memory.seen_eq_last hm' h.own_stop (by rw [hatomic _ (by decide)]) (hview _)
  · rw [Memory.last_storeRelease]
    exact Memory.seen_storeRelease hm

/-! ### Loads of the flags -/

lemma await (h : m.Flags len drained .loadFlushReq w) (hm : m.Coherent) (load : ℕ) :
    SinkMemory.Flags (m.loadAcquire .producer .flushReq load).1 len drained .loadFlushReq w := by
  have hview : m.view .producer ≤ (m.loadAcquire .producer .flushReq load).1.view .producer :=
    Memory.view_le_loadAcquire _
  exact
    { h with
      answered := fun hp j hj hle => h.answered hp j hj ((hview.1 _).trans hle)
      own_flushReq := fun hp => absurd rfl hp
      own_stop := Memory.seen_eq_last hm.loadAcquire h.own_stop rfl hview
      joined := fun hj => ⟨(h.joined hj).1, View.le_trans (h.joined hj).2 hview⟩ }

/-- It has got an answer, and knows of all errors so far. -/
lemma seesAnswer (h : m.Flags len drained .loadFlushReq w) (hm : m.Coherent) {load : ℕ}
    (hload : (m.loadAcquire .producer .flushReq load).2 = false) :
    let m' : SinkMemory := (m.loadAcquire .producer .flushReq load).1
    m'.Flags len drained .idle w ∧ drained = len ∧
      (m'.view .producer).seen .werr = (m'.atomic .werr).last := by
  intro m'
  have hm' : m'.Coherent := hm.loadAcquire
  have hview : m.view .producer ≤ m'.view .producer := Memory.view_le_loadAcquire _
  obtain ⟨i, hi, hseen, hvalue, hknown, hle⟩ := hm.exists_loaded .producer .flushReq load
  rw [hload] at hvalue
  obtain ⟨rfl, hall, -, hwerr⟩ := h.answered rfl i hi hseen hvalue.symm
  refine ⟨?_, hall, Nat.le_antisymm (hm'.view .producer .werr).1 (hwerr ▸ hknown.1 .werr)⟩
  exact
    { h with
      asked := fun j hj hle' htrue => by
        obtain ⟨rfl, -⟩ := h.asked j hj hle' htrue
        exact absurd (hvalue.trans htrue) (by simp)
      answered := fun hp => absurd hp (by decide)
      own_flushReq := fun _ => Nat.le_antisymm (hm'.view .producer .flushReq).1 hle
      flushing := fun hf => absurd (hvalue.trans (h.flushing hf).2.1) (by simp)
      stops := fun j hj htrue => (h.stops j hj htrue).imp_right (Or.imp_left False.elim)
      own_stop := Memory.seen_eq_last hm' h.own_stop rfl hview
      stopping := fun hs => (h.stopping hs).imp_right (Or.imp_left False.elim)
      joined := fun hj =>
        have hj := h.joined (.inr (hj.resolve_left id))
        ⟨hj.1, View.le_trans hj.2 hview⟩ }

/-- With a request the writer gets to know of all records. -/
lemma seesRequest (h : m.Flags len drained p w) (hm : m.Coherent)
    (hlast : (m.atomic .tail).last = len) {load : ℕ}
    (htrue : (m.loadAcquire .writer .flushReq load).2 = true) :
    let m' : SinkMemory := (m.loadAcquire .writer .flushReq load).1
    (m'.view .writer).seen .flushReq = (m.atomic .flushReq).last ∧
      ((m.atomic .flushReq).store (m.atomic .flushReq).last).1 = true ∧
        (m'.view .writer).seen .tail = len := by
  intro m'
  have hm' : m'.Coherent := hm.loadAcquire
  obtain ⟨i, hi, hseen, hvalue, hknown, hle⟩ := hm.exists_loaded .writer .flushReq load
  rw [htrue] at hvalue
  obtain ⟨rfl, -, htail⟩ := h.asked i hi hseen hvalue.symm
  exact ⟨Nat.le_antisymm (hm'.view .writer .flushReq).1 hle, hvalue.symm,
    Nat.le_antisymm ((hm'.view .writer .tail).1.trans hlast.le) (htail ▸ hknown.1 .tail)⟩

/-- So it does when it is to stop. -/
lemma seesStop (h : m.Flags len drained p w) (hm : m.Coherent)
    (hlast : (m.atomic .tail).last = len) {load : ℕ}
    (htrue : (m.loadAcquire .writer .stop load).2 = true) :
    ((m.loadAcquire .writer .stop load).1.view .writer).seen .tail = len ∧
      (p.Closing ∨ (m.cell .isOpen).value = false) := by
  have hm' : (m.loadAcquire .writer .stop load).1.Coherent := hm.loadAcquire
  obtain ⟨i, hi, -, hvalue, hknown, -⟩ := hm.exists_loaded .writer .stop load
  rw [htrue] at hvalue
  obtain ⟨htail, hclosing⟩ := h.stops i hi hvalue.symm
  exact ⟨Nat.le_antisymm ((hm'.view .writer .tail).1.trans hlast.le) (htail ▸ hknown.1 .tail),
    hclosing⟩

end Flags

/-! ### Who may use the file -/

namespace Cells

/-- The cells of `f_` and of the file are as before. -/
lemma frame (h : m.Cells p) (hcell : ∀ c, (∀ i, c ≠ .slot i) → m'.cell c = m.cell c)
    (hjoined : (m.cell .isOpen).value = true → ¬ p'.Joined → ¬ p.Joined) : m'.Cells p' := by
  have hisOpen := hcell .isOpen fun i => by simp
  have hfile := hcell .file fun i => by simp
  refine ⟨by rw [hisOpen]; exact h.pointer, by rw [hisOpen]; exact h.unclosed, ?_⟩
  rw [hisOpen, hfile]
  exact fun hopen hj => h.file hopen (hjoined hopen hj)

/-- The writer uses the file. -/
lemma writer_useFile (h : m.Cells p) : (m.useFile .writer f).Cells p := by
  refine ⟨?_, ?_, ?_⟩
  · rw [useFile, Memory.cell_modify_of_ne (by decide), Memory.written_read]
    exact h.pointer
  · rw [isOpen_useFile, useFile, Memory.cell_modify_of_ne (by decide), Memory.written_read]
    exact h.unclosed
  · rw [isOpen_useFile, useFile, Memory.written_modify_of_ne (by decide), Memory.read_modify,
      Memory.written_read, Memory.read_read_of_ne (by decide)]
    exact h.file

/-- It may do so while the producer has not joined it. -/
lemma writer_ok (h : m.Cells p) (hm : m.Coherent) (hopen : (m.cell .isOpen).value = true)
    (hp : ¬ p.Joined) :
    (m.cell .isOpen).ReadOk (m.view .writer).known ∧
      (m.cell .file).WriteOk (m.view .writer).known := by
  obtain ⟨hwritten, hread⟩ := h.file hopen hp
  constructor
  · rintro (_ | _)
    · exact (h.unclosed hopen).trans_le (Nat.zero_le _)
    · exact hm.written_le _ _
  · rintro (_ | _)
    · exact ⟨hwritten.trans_le (Nat.zero_le _), hread.trans_le (Nat.zero_le _)⟩
    · exact ⟨hm.written_le _ _, hm.read_le _ _⟩

/-- The producer uses the file when it has joined the writer. -/
lemma producer_useFile (h : m.Cells p) (hp' : p'.Joined) :
    (m.useFile .producer f).Cells p' := by
  refine ⟨?_, ?_, fun _ hj => absurd hp' hj⟩
  · rw [useFile, Memory.cell_modify_of_ne (by decide), Memory.written_read]
    exact h.pointer
  · rw [isOpen_useFile, useFile, Memory.cell_modify_of_ne (by decide), Memory.written_read]
    exact h.unclosed

end Cells

/-- Who knows all that the writer knows may use everything. -/
lemma ok_of_joined (hm : m.Coherent) (hjoined : m.view .writer ≤ m.view .producer)
    (c : SinkCell) : (m.cell c).WriteOk (m.view .producer).known := by
  rintro (_ | _)
  · exact ⟨hm.written_le _ _, hm.read_le _ _⟩
  · exact ⟨(hm.written_le _ _).trans (hjoined.2 _), (hm.read_le _ _).trans (hjoined.2 _)⟩

/-- The producer looks at `f_`. -/
lemma Cells.producer_read (h : m.Cells p) (hm : m.Coherent) (hdef : m.undefined = false) :
    (m.read .producer .isOpen).1.undefined = false ∧
      SinkMemory.Cells (m.read .producer .isOpen).1 p := by
  constructor
  · refine Memory.undefined_read hdef ?_
    rintro (_ | _)
    · exact hm.written_le _ _
    · exact h.pointer.trans_le (Nat.zero_le _)
  · have hfile : (m.read .producer .isOpen).1.cell .file = m.cell .file :=
      Memory.cell_read_of_ne (by decide)
    refine ⟨?_, ?_, ?_⟩
    · rw [Memory.written_read]
      exact h.pointer
    · rw [Memory.value_read, Memory.written_read]
      exact h.unclosed
    · rw [Memory.value_read, hfile]
      exact h.file

end SinkMemory

end LobCapture
