/-
# Asynchronous writing under release and acquire

The invariant of the two threads when every load may be out of date.  It is the one of the threads
that see each other's stores at once, said of what is known: the writer has passed on the first
`drained` of the records, and it stops or answers a request only when it has seen all of them.
-/
import LobCapture.Sink.WeakFlags

namespace LobCapture

open Lib

/-! ## Places of the threads -/

/-- The producer does what it does in asynchronous mode. -/
def Producer.Weakly (m : SinkMemory) (k len : ℕ) (freed : ℕ → ℕ) : Producer → Prop
  | .tryWrite p w => w.Weakly m k len freed p
  | .fwrite _ | .loadWerr _ | .storeWerr _ | .fflush => False
  | _ => True

/-- Where the writer is in the sequence of the records. -/
def Writer.Weakly (m : SinkMemory) (k len : ℕ) (freed : ℕ → ℕ) (drained : ℕ) : Writer → Prop
  | .drain d | .loadWerr d | .storeWerr d => d.Weakly m k freed drained
  | .flushEmpty _ e | .stopEmpty e => e.Weakly k drained ∧ drained = freed (m.atomic .head).last
  | .fflush _ | .clearFlushReq _ | .exited =>
    drained = freed (m.atomic .head).last ∧ drained = len
  | .loadFlushReq _ | .loadStop => drained = freed (m.atomic .head).last

section Places

variable {m m' : SinkMemory} {k len drained : ℕ} {freed freed' : ℕ → ℕ}

lemma Producer.Weakly.mono {place : Producer} (h : place.Weakly m k len freed)
    (hmono : Monotone freed')
    (hfreed : freed' ((m.view .producer).seen .head) = freed ((m.view .producer).seen .head))
    (hview : m.view .producer ≤ m'.view .producer)
    (hslot : ∀ i, (m'.cell (.slot i)).value = (m.cell (.slot i)).value) :
    place.Weakly m' k len freed' := by
  cases place with
  | tryWrite p w => exact TryWrite.Weakly.mono h hmono hfreed hview hslot
  | _ => exact h

lemma Writer.Weakly.mono {w : Writer} (h : w.Weakly m k len freed drained)
    (hhead : m'.atomic .head = m.atomic .head) (hview : m.view .writer ≤ m'.view .writer) :
    w.Weakly m' k len freed drained := by
  cases w with
  | drain d | loadWerr d | storeWerr d => exact Drain.Weakly.mono h hhead hview
  | flushEmpty n e | stopEmpty e => exact ⟨h.1, by rw [hhead]; exact h.2⟩
  | fflush n | clearFlushReq n | exited => exact ⟨by rw [hhead]; exact h.1, h.2⟩
  | loadFlushReq n | loadStop => exact Eq.trans h (by rw [hhead])

/-- A writer that has not seen an empty ring does not mind another record. -/
lemma Writer.Weakly.publish {w : Writer} (h : w.Weakly m k len freed drained)
    (hflush : ¬ w.Flushing) (hstop : ¬ w.Stopping) (len' : ℕ) :
    w.Weakly m k len' freed drained := by
  cases w with
  | fflush n | clearFlushReq n => exact absurd trivial hflush
  | exited => exact absurd trivial hstop
  | _ => exact h

lemma weakly_afterFlush (n : ℕ) (h : drained = freed (m.atomic .head).last) :
    (CsvSink.afterFlush n).Weakly m k len freed drained := by
  rw [CsvSink.afterFlush]
  split_ifs <;> exact h

end Places

/-! ## The invariant -/

/-- What holds in asynchronous mode after the records `all` have been written. -/
structure WeakSink.Sound (k : ℕ) (all : List Bytes) (freed : ℕ → ℕ) (drained : ℕ)
    (s : WeakSink) : Prop where
  mask_eq : s.mask = 2 ^ k - 1
  async : s.async = true
  defined : s.memory.undefined = false
  holds : s.memory.Holds k all freed drained
  passed : s.memory.file.passed = (all.take drained).flatten
  producer : s.producer.Weakly s.memory k all.length freed
  writer : s.writer.Weakly s.memory k all.length freed drained
  flags : s.memory.Flags all.length drained s.producer s.writer
  cells : s.memory.Cells s.producer
  closed : (s.memory.cell .isOpen).value = false → s.producer = .idle ∧ s.writer = .exited

namespace WeakSink.Sound

variable {k drained : ℕ} {all : List Bytes} {freed : ℕ → ℕ} {s : WeakSink}

lemma opened (k : ℕ) (calls : List SinkCall) :
    (WeakSink.opened true (2 ^ k) calls).Sound k [] (fun _ => 0) 0 where
  mask_eq := rfl
  async := rfl
  defined := rfl
  holds := SinkMemory.holds_new k
  passed := rfl
  producer := trivial
  writer := rfl
  flags :=
    { asked := fun i _ _ h => absurd h Bool.false_ne_true
      answered := fun h => absurd (show Producer.idle = .loadFlushReq from h) (by decide)
      own_flushReq := fun _ => rfl
      flushing := False.elim
      stops := fun i _ h => absurd h Bool.false_ne_true
      own_stop := rfl
      stopping := False.elim
      own_werr := rfl
      joined := fun hj => absurd (hj.resolve_left id).symm Bool.false_ne_true }
  cells := ⟨rfl, fun _ => rfl, fun _ _ => ⟨rfl, rfl⟩⟩
  closed h := absurd h.symm Bool.false_ne_true

/-- The sink of a producer that is in a call is open. -/
lemma isOpen (h : s.Sound k all freed drained) (hidle : s.producer ≠ .idle) :
    (s.memory.cell .isOpen).value = true :=
  Bool.eq_true_of_not_eq_false fun hclosed => hidle (h.closed hclosed).1

/-- Once the writer has exited, everything has been passed on. -/
lemma drained_of_exited (h : s.Sound k all freed drained) (hw : s.writer = .exited) :
    drained = all.length := by
  have := h.writer
  rw [hw] at this
  exact this.2

end WeakSink.Sound

/-! ## Steps of the producer -/

/-- The records after a step of the producer that makes `call` return. -/
def WeakSink.grown (s : WeakSink) (all : List Bytes) (call : Option SinkCall) : List Bytes :=
  all ++ if (s.memory.cell .isOpen).value then writtenRecords call.toList else []

/-- A `failed()` of the producer returns the newest value of `werr_`. -/
def WeakSink.Informed (s : WeakSink) : Prop :=
  (s.memory.view .producer).seen .werr = (s.memory.atomic .werr).last

/-- What a step of the producer leads to, if it makes `call` return. -/
structure WeakSink.Produced (k : ℕ) (all : List Bytes) (freed : ℕ → ℕ) (drained : ℕ)
    (s s' : WeakSink) (call : Option SinkCall) : Prop where
  sound : s'.Sound k (s.grown all call) freed drained
  drained : call = some .flush ∨ call = some .close → drained = all.length ∧
    s'.memory.file.passed = s.memory.file.passed ∧ s'.Informed

namespace WeakSink.Sound

variable {k drained : ℕ} {all : List Bytes} {freed : ℕ → ℕ} {s s' : WeakSink}

/-- Who knows all that the writer knows is informed. -/
lemma informed_of_joined (h : s.Sound k all freed drained)
    (hj : s.producer.Joined ∨ (s.memory.cell .isOpen).value = false) : s.Informed :=
  Nat.le_antisymm (h.holds.coherent.view .producer .werr).1
    (h.flags.own_werr ▸ (h.flags.joined hj).2.1 .werr)

lemma grown_of_ne (s : WeakSink) (all : List Bytes) {call : Option SinkCall}
    (h : ∀ p, call ≠ some (.write p)) : s.grown all call = all := by
  rcases call with _ | (p | _ | _)
  · simp [grown, writtenRecords]
  · exact absurd rfl (h p)
  · simp [grown, writtenRecords]
  · simp [grown, writtenRecords]

lemma produced (h : s'.Sound k all freed drained) : s.Produced k all freed drained s' none where
  sound := by
    rw [grown_of_ne _ _ (by simp)]
    exact h
  drained := by simp

/-- The producer goes to another place and does not touch the ring. -/
lemma goTo (h : s.Sound k all freed drained) {m' : SinkMemory} (p' : Producer)
    (todo : List SinkCall) (hm' : m'.Coherent) (hdef : m'.undefined = false)
    (hatomic : ∀ a, a = .head ∨ a = .tail → m'.atomic a = s.memory.atomic a)
    (hslot : ∀ i, m'.cell (.slot i) = s.memory.cell (.slot i))
    (hview : ∀ t, s.memory.view t ≤ m'.view t) (hpassed : m'.file.passed = s.memory.file.passed)
    (hp' : p'.Weakly m' k all.length freed) (hflags : m'.Flags all.length drained p' s.writer)
    (hcells : m'.Cells p')
    (hclosed : (m'.cell .isOpen).value = false → p' = .idle ∧ s.writer = .exited) :
    { s with memory := m', producer := p', todo := todo }.Sound k all freed drained :=
  { h with
    defined := hdef
    holds := h.holds.frame hm' (hatomic _ (.inl rfl)) (hatomic _ (.inr rfl)) hslot hview
    passed := hpassed.trans h.passed
    producer := hp'
    writer := h.writer.mono (hatomic _ (.inl rfl)) (hview _)
    flags := hflags
    cells := hcells
    closed := hclosed }

/-- The next call begins. -/
lemma begin (h : s.Sound k all freed drained) (hidle : s.producer = .idle) :
    s.Produced k all freed drained s.begin.1 s.begin.2 := by
  rw [WeakSink.begin]
  cases htodo : s.todo with
  | nil => exact h.produced
  | cons call rest =>
    have hm := h.holds.coherent
    obtain ⟨hdef, hcells⟩ := h.cells.producer_read hm h.defined
    have hview : ∀ t, s.memory.view t ≤ (s.memory.read .producer .isOpen).1.view t :=
      fun t => Memory.view_le_read t
    have hslot : ∀ i, (s.memory.read .producer .isOpen).1.cell (.slot i) =
        s.memory.cell (.slot i) := fun i => Memory.cell_read_of_ne (by simp)
    have hfile : (s.memory.read .producer .isOpen).1.cell .file = s.memory.cell .file :=
      Memory.cell_read_of_ne (by simp)
    have hvalue : ((s.memory.read .producer .isOpen).1.cell .isOpen).value =
        (s.memory.cell .isOpen).value := Memory.value_read
    -- the places where a call begins, and `idle`
    have hnext : ∀ p' : Producer, p' ≠ .loadFlushReq → ¬ p'.Joined →
        ((s.memory.cell .isOpen).value = false → p' = .idle) →
        p'.Weakly (s.memory.read .producer .isOpen).1 k all.length freed →
        { s with memory := (s.memory.read .producer .isOpen).1, producer := p', todo := rest
          }.Sound k all freed drained := by
      intro p' hp' hj hopen hplace
      refine h.goTo p' rest hm.read hdef (fun _ _ => rfl) hslot hview ?_ hplace ?_ ?_ ?_
      · rw [SinkMemory.file, hfile]
        rfl
      · refine h.flags.producer_step (by simp [hidle]) hp' hm.read (fun _ _ _ => rfl) hview
          h.holds.last_tail ?_ ?_
        · rw [hidle, hvalue]
          exact fun hc => ⟨rfl, .inr (hc.resolve_left id)⟩
        · rw [hvalue]
          intro hj'
          obtain ⟨hexit, hle⟩ := h.flags.joined (.inr (hj'.resolve_left hj))
          exact ⟨hexit, View.le_trans hle (hview .producer)⟩
      · refine ⟨hcells.pointer, hcells.unclosed, fun hopen _ => hcells.file hopen ?_⟩
        rw [hidle]
        exact id
      · rw [hvalue]
        exact fun hc => ⟨hopen hc, (h.closed hc).2⟩
    by_cases hclosed : (s.memory.cell .isOpen).value = false
    · -- the sink is closed, and the call does nothing
      have hsound := hnext .idle (by decide) id (fun _ => rfl) trivial
      simp only [show (s.memory.read .producer .isOpen).2 = (s.memory.cell .isOpen).value from rfl,
        hclosed, if_true, WeakSink.returned]
      refine ⟨?_, fun _ => ⟨h.drained_of_exited (h.closed hclosed).2, ?_, ?_⟩⟩
      · simp only [grown, hclosed, Bool.false_eq_true, if_false, List.append_nil]
        exact hsound
      · rw [SinkMemory.file, hfile]
        rfl
      · exact hsound.informed_of_joined (.inr (hvalue.trans hclosed))
    · simp only [show (s.memory.read .producer .isOpen).2 = (s.memory.cell .isOpen).value from rfl,
        hclosed, Bool.true_eq_false, if_false]
      refine produced ?_
      have hopen : ∀ p' : Producer, (s.memory.cell .isOpen).value = false → p' = .idle :=
        fun _ hc => absurd hc hclosed
      cases call with
      | write p =>
        dsimp only
        rw [if_pos h.async]
        exact hnext (.tryWrite p .loadTail) (by simp) id (hopen _) trivial
      | flush =>
        dsimp only
        rw [if_pos h.async]
        exact hnext .storeFlushReq (by simp) id (hopen _) trivial
      | close =>
        dsimp only
        rw [if_pos h.async]
        exact hnext .storeStop (by simp) id (hopen _) trivial

/-- A step of `try_write`. -/
lemma tryWrite (h : s.Sound k all freed drained) {p : Bytes} {w : TryWrite}
    (hplace : s.producer = .tryWrite p w) (io : IoOutcome) (load : ℕ) :
    s.Produced k all freed drained (s.produce io load).1 (s.produce io load).2 := by
  have hopen := h.isOpen (by simp [hplace])
  have hclosing : ¬ (s.producer.Closing ∨ (s.memory.cell .isOpen).value = false) := by
    simp [hplace, Producer.Closing, hopen]
  have hw : w.Weakly s.memory k all.length freed p := by
    simpa [hplace, Producer.Weakly] using h.producer
  have hring := h.holds.tryWrite h.defined hw load
  rw [← h.mask_eq] at hring
  simp only [WeakSink.produce, hplace]
  rcases htry : s.memory.tryWrite s.mask load p w with ⟨m', w'⟩
  rw [htry] at hring
  obtain ⟨hstep, hhead, hring⟩ := hring
  have hisOpen : m'.cell .isOpen = s.memory.cell .isOpen := hstep.cell _ fun i => by simp
  have hfile : m'.file = s.memory.file :=
    congrArg Cell.value (hstep.cell .file fun i => by simp)
  -- what does not depend on the result
  have hnext : ∀ (all' : List Bytes) (p' : Producer), all.length ≤ all'.length →
      (∀ n ≤ all.length, all'.take n = all.take n) → m'.Holds k all' freed drained →
      p' ≠ .loadFlushReq → ¬ p'.Joined → p'.Weakly m' k all'.length freed →
      { s with memory := m', producer := p' }.Sound k all' freed drained := by
    intro all' p' hlen htake hholds hp' hj hplace'
    refine ⟨h.mask_eq, h.async, hstep.undefined, hholds, ?_, hplace', ?_, ?_, ?_, ?_⟩
    · change m'.file.passed = _
      rw [hfile, h.passed, htake _ (h.holds.drained_le.trans h.holds.seen_le)]
    · refine (h.writer.publish (h.flags.not_flushing (by simp [hplace]))
        (h.flags.not_stopping (mt .inl hclosing) hopen) all'.length).mono hhead
        (hstep.view_le .writer)
    · refine h.flags.producer_step (by simp [hplace]) hp' hholds.coherent hstep.atomic
        hstep.view_le hholds.last_tail (fun hc => absurd hc hclosing) fun hj' => ?_
      rw [hisOpen] at hj'
      exact absurd (hj'.resolve_left hj) (by simp [hopen])
    · refine h.cells.frame hstep.cell fun _ _ => ?_
      rw [hplace]
      exact id
    · change (m'.cell .isOpen).value = false → _
      rw [hisOpen]
      exact fun hc => absurd (hopen.symm.trans hc) (by simp)
  rcases w' with w' | b
  · -- the call goes on
    exact (hnext all (.tryWrite p w') le_rfl (fun _ _ => rfl) hring.1 (by simp) id
      hring.2).produced
  · cases b with
    | false =>
      -- the ring looks full
      exact (hnext all (.tryWrite p .loadTail) le_rfl (fun _ _ => rfl) hring (by simp) id
        trivial).produced
    | true =>
      -- the record is published
      refine ⟨?_, by simp [WeakSink.returned]⟩
      simp only [grown, hopen, if_true, WeakSink.returned, Option.toList_some, writtenRecords]
      exact hnext (all ++ [p]) .idle (by simp) (fun n hn => List.take_append_of_le_length hn)
        hring (by simp) id trivial

/-- A step of the producer that uses the file, after it has joined the writer. -/
lemma useFile (h : s.Sound k all freed drained) (hj : s.producer.Joined) (f : File → File)
    (hf : (f s.memory.file).passed = s.memory.file.passed) (p' : Producer) (hp' : p'.Joined) :
    { s with memory := s.memory.useFile .producer f, producer := p' }.Sound k all freed
      drained := by
  have hm := h.holds.coherent
  obtain ⟨hexit, hle⟩ := h.flags.joined (.inl hj)
  have hview : ∀ t, s.memory.view t ≤ (s.memory.useFile .producer f).view t :=
    fun t => SinkMemory.view_le_useFile t
  have hne : ∀ q : Producer, q.Joined → q ≠ .loadFlushReq ∧ q ≠ .idle ∧ q.Closing ∧
      q.Weakly (s.memory.useFile .producer f) k all.length freed := by
    intro q hq
    cases q <;> simp_all [Producer.Joined, Producer.Closing, Producer.Weakly]
  have hopen := h.isOpen (hne _ hj).2.1
  refine h.goTo p' s.todo (SinkMemory.coherent_useFile hm)
    (SinkMemory.undefined_useFile h.defined
      (fun t => (SinkMemory.ok_of_joined hm hle _ t).1) (SinkMemory.ok_of_joined hm hle _))
    (fun _ _ => rfl) SinkMemory.slot_useFile hview
    (by rw [SinkMemory.file_useFile, hf]) (hne _ hp').2.2.2 ?_ (h.cells.producer_useFile hp') ?_
  · refine h.flags.producer_step (hne _ hj).1 (hne _ hp').1 (SinkMemory.coherent_useFile hm)
      (fun _ _ _ => rfl) hview h.holds.last_tail (fun _ => ⟨rfl, .inl (hne _ hp').2.2.1⟩) ?_
    exact fun _ => ⟨hexit, View.le_trans hle (hview .producer)⟩
  · rw [SinkMemory.isOpen_useFile]
    exact fun hc => absurd (hopen.symm.trans hc) (by simp)

/-- The file is closed, and `f_` is null from now on. -/
lemma closeFile (h : s.Sound k all freed drained) (hplace : s.producer = .fclose) :
    { s with
      memory := s.memory.modify .producer .isOpen fun _ => false, producer := .idle
      }.Sound k all freed drained := by
  have hm := h.holds.coherent
  obtain ⟨hexit, hle⟩ := h.flags.joined (.inl (by simp [hplace, Producer.Joined]))
  have hview : ∀ t, s.memory.view t ≤
      (s.memory.modify .producer .isOpen fun _ => false).view t := fun t =>
    Memory.view_le_modify t
  have hcell : ∀ c, c ≠ .isOpen →
      (s.memory.modify .producer .isOpen fun _ => false).cell c = s.memory.cell c := fun c hc =>
    Memory.cell_modify_of_ne hc
  have hclosed : ((s.memory.modify .producer .isOpen fun _ => false).cell .isOpen).value = false :=
    Memory.value_modify
  refine h.goTo .idle s.todo hm.modify
    (Memory.undefined_modify h.defined (SinkMemory.ok_of_joined hm hle _)) (fun _ _ => rfl)
    (fun i => hcell _ (by simp)) hview ?_ trivial ?_ ?_ fun _ => ⟨rfl, hexit⟩
  · rw [SinkMemory.file, hcell _ (by simp)]
    rfl
  · exact h.flags.producer_step (by simp [hplace]) (by simp) hm.modify (fun _ _ _ => rfl) hview
      h.holds.last_tail (fun _ => ⟨rfl, .inr hclosed⟩)
      fun _ => ⟨hexit, View.le_trans hle (hview .producer)⟩
  · refine ⟨?_, fun hopen => ?_, fun hopen => ?_⟩
    · rw [Memory.written_modify_of_ne (by decide)]
      exact h.cells.pointer
    · exact absurd (hclosed.symm.trans hopen) (by simp)
    · exact absurd (hclosed.symm.trans hopen) (by simp)

/-- **A step of the producer**, whatever store it loads. -/
lemma produce (h : s.Sound k all freed drained) (io : IoOutcome) (load : ℕ) :
    s.Produced k all freed drained (s.produce io load).1 (s.produce io load).2 := by
  have hm := h.holds.coherent
  cases hplace : s.producer with
  | idle =>
    simp only [WeakSink.produce, hplace]
    exact h.begin hplace
  | tryWrite p w => exact h.tryWrite hplace io load
  | fwrite p | loadWerr p | storeWerr p | fflush =>
    have := h.producer
    rw [hplace] at this
    exact False.elim this
  | storeFlushReq =>
    have hopen := h.isOpen (by simp [hplace])
    have hflags := h.flags
    rw [hplace] at hflags
    simp only [WeakSink.produce, hplace]
    exact (h.goTo .loadFlushReq s.todo hm.storeRelease
      (Memory.undefined_storeRelease h.defined (h.flags.own_flushReq (by simp [hplace])))
      (by rintro a (rfl | rfl) <;> exact Memory.atomic_storeRelease_of_ne (by decide))
      (fun _ => rfl) (fun t => Memory.view_le_storeRelease t) rfl trivial
      (hflags.request hm h.holds.last_tail h.holds.own_tail hopen)
      (h.cells.frame (fun _ _ => rfl) fun _ _ => by simp [hplace, Producer.Joined])
      fun hc => absurd (hopen.symm.trans hc) (by simp)).produced
  | loadFlushReq =>
    have hopen := h.isOpen (by simp [hplace])
    have hflags := h.flags
    rw [hplace] at hflags
    have hnext : ∀ p' : Producer, p'.Weakly (s.memory.loadAcquire .producer .flushReq load).1 k
        all.length freed → SinkMemory.Flags (s.memory.loadAcquire .producer .flushReq load).1
          all.length drained p' s.writer →
        { s with memory := (s.memory.loadAcquire .producer .flushReq load).1, producer := p'
          }.Sound k all freed drained := fun p' hp' hf =>
      h.goTo p' s.todo hm.loadAcquire h.defined (fun _ _ => rfl) (fun _ => rfl)
        (fun t => Memory.view_le_loadAcquire t) rfl hp' hf
        (h.cells.frame (fun _ _ => rfl) fun _ _ => by simp [hplace, Producer.Joined])
        fun hc => absurd (hopen.symm.trans hc) (by simp)
    simp only [WeakSink.produce, hplace]
    by_cases hload : (s.memory.loadAcquire .producer .flushReq load).2 = true
    · rw [if_pos hload, ← hplace]
      exact (hnext s.producer (by rw [hplace]; trivial) (hplace ▸ hflags.await hm load)).produced
    · -- the request has been answered
      rw [if_neg hload]
      obtain ⟨hf, hall, hwerr⟩ := hflags.seesAnswer hm (Bool.eq_false_iff.mpr hload)
      refine ⟨?_, fun _ => ⟨hall, rfl, hwerr⟩⟩
      rw [grown_of_ne _ _ (by simp [WeakSink.returned])]
      exact hnext .idle trivial hf
  | storeStop =>
    have hopen := h.isOpen (by simp [hplace])
    have hflags := h.flags
    rw [hplace] at hflags
    simp only [WeakSink.produce, hplace]
    exact (h.goTo .join s.todo hm.storeRelease
      (Memory.undefined_storeRelease h.defined h.flags.own_stop)
      (by rintro a (rfl | rfl) <;> exact Memory.atomic_storeRelease_of_ne (by decide))
      (fun _ => rfl) (fun t => Memory.view_le_storeRelease t) rfl trivial
      (hflags.askToStop hm h.holds.last_tail h.holds.own_tail hopen)
      (h.cells.frame (fun _ _ => rfl) fun _ _ => by simp [hplace, Producer.Joined])
      fun hc => absurd (hopen.symm.trans hc) (by simp)).produced
  | join =>
    have hopen := h.isOpen (by simp [hplace])
    simp only [WeakSink.produce, hplace]
    by_cases hexit : s.writer = .exited
    · rw [if_pos hexit]
      have hview : ∀ t, s.memory.view t ≤ (s.memory.join .producer .writer).view t :=
        fun t => Memory.view_le_join t
      refine (h.goTo .lastFlush s.todo hm.join h.defined (fun _ _ => rfl) (fun _ => rfl)
        hview rfl trivial ?_ ?_ fun hc => absurd (hopen.symm.trans hc) (by simp)).produced
      · exact h.flags.producer_step (by simp [hplace]) (by simp) hm.join (fun _ _ _ => rfl) hview
          h.holds.last_tail (fun _ => ⟨rfl, .inl trivial⟩) fun _ =>
            ⟨hexit, show s.memory.view .writer ≤ _ from Memory.le_view_join⟩
      · exact h.cells.frame (fun _ _ => rfl) fun _ hj => absurd trivial hj
    · rw [if_neg hexit]
      exact h.produced
  | lastFlush =>
    have hj : s.producer.Joined := by simp [hplace, Producer.Joined]
    simp only [WeakSink.produce, hplace]
    exact (h.useFile hj _ File.passed_fflush .fclose trivial).produced
  | fclose =>
    have hj : s.producer.Joined := by simp [hplace, Producer.Joined]
    have hsound := h.useFile hj (fun f => (f.fflush io).1) File.passed_fflush .fclose trivial
    have hclosed := hsound.closeFile rfl
    have hvalue : (((s.memory.useFile .producer fun f => (f.fflush io).1).modify .producer .isOpen
        fun _ => false).cell .isOpen).value = false := Memory.value_modify
    simp only [WeakSink.produce, hplace]
    refine ⟨?_, fun _ => ⟨h.drained_of_exited (h.flags.joined (.inl hj)).1, ?_,
      hclosed.informed_of_joined (.inr hvalue)⟩⟩
    · rw [grown_of_ne _ _ (by simp [WeakSink.returned])]
      exact hclosed
    · exact hclosed.passed.trans h.passed.symm

end WeakSink.Sound

/-! ## Steps of the writer -/

namespace WeakSink.Sound

variable {k drained drained' : ℕ} {all : List Bytes} {freed freed' : ℕ → ℕ} {s : WeakSink}
  {m' : SinkMemory} {w' : Writer}

/-- A writer in its loop works for a sink that is open and that the producer has not joined. -/
lemma working (h : s.Sound k all freed drained) (hloop : s.writer ≠ .exited) :
    (s.memory.cell .isOpen).value = true ∧ ¬ s.producer.Joined :=
  ⟨Bool.eq_true_of_not_eq_false fun hclosed => hloop (h.closed hclosed).2,
    fun hj => hloop (h.flags.joined (.inl hj)).1⟩

/-- The writer goes to another place, in the loop. -/
lemma goOn (h : s.Sound k all freed drained) (hloop : s.writer ≠ .exited)
    (hholds : m'.Holds k all freed' drained') (hdef : m'.undefined = false)
    (hatomic : ∀ a, a ≠ .head → a ≠ .tail → m'.atomic a = s.memory.atomic a)
    (hfreed : ∀ n ≤ (s.memory.atomic .head).last, freed' n = freed n)
    (hslot : ∀ i, (m'.cell (.slot i)).value = (s.memory.cell (.slot i)).value)
    (hview : ∀ t, s.memory.view t ≤ m'.view t)
    (hisOpen : (m'.cell .isOpen).value = (s.memory.cell .isOpen).value)
    (hpassed : m'.file.passed = (all.take drained').flatten)
    (hw' : w'.Weakly m' k all.length freed' drained')
    (hdrained : drained = all.length → ¬ s.writer.Reporting →
      drained' = all.length ∧ ¬ w'.Reporting)
    (hflushing : w'.Flushing →
      (m'.view .writer).seen .flushReq = (s.memory.atomic .flushReq).last ∧
        ((s.memory.atomic .flushReq).store (s.memory.atomic .flushReq).last).1 = true ∧
          (m'.view .writer).seen .tail = all.length)
    (hstopping : w'.Stopping → (m'.view .writer).seen .tail = all.length ∧
      (s.producer.Closing ∨ (s.memory.cell .isOpen).value = false))
    (hcells : m'.Cells s.producer) :
    { s with memory := m', writer := w' }.Sound k all freed' drained' :=
  { h with
    defined := hdef
    holds := hholds
    passed := hpassed
    producer := h.producer.mono hholds.mono
      (hfreed _ (h.holds.coherent.view .producer .head).1) (hview _) hslot
    writer := hw'
    flags := h.flags.writer_step hholds.coherent hatomic hview hisOpen hloop hdrained hflushing
      hstopping
    cells := hcells
    closed := fun hc => absurd (h.closed (hisOpen.symm.trans hc)).2 hloop }

/-- What the writer knows of a request or of `stop_` stays known. -/
lemma still (h : s.Sound k all freed drained) (hm' : m'.Coherent)
    (hatomic : ∀ a, a = .flushReq ∨ a = .tail → m'.atomic a = s.memory.atomic a)
    (hview : ∀ t, s.memory.view t ≤ m'.view t) :
    (s.writer.Flushing → (m'.view .writer).seen .flushReq = (s.memory.atomic .flushReq).last ∧
      ((s.memory.atomic .flushReq).store (s.memory.atomic .flushReq).last).1 = true ∧
        (m'.view .writer).seen .tail = all.length) ∧
    (s.writer.Stopping → (m'.view .writer).seen .tail = all.length ∧
      (s.producer.Closing ∨ (s.memory.cell .isOpen).value = false)) := by
  have hlast := h.holds.last_tail
  have htail : (s.memory.view .writer).seen .tail = all.length →
      (m'.view .writer).seen .tail = all.length := fun hseen => by
    rw [← hlast] at hseen
    rw [Memory.seen_eq_last hm' hseen (by rw [hatomic _ (.inr rfl)]) (hview _),
      hatomic _ (.inr rfl), hlast]
  constructor
  · intro hf
    obtain ⟨hseen, htrue, hall⟩ := h.flags.flushing hf
    refine ⟨?_, htrue, htail hall⟩
    rw [Memory.seen_eq_last hm' hseen (by rw [hatomic _ (.inl rfl)]) (hview _),
      hatomic _ (.inl rfl)]
  · exact fun hs => (h.flags.stopping hs).imp_left htail

/-- It goes to another place after a step that is none of the ring. -/
lemma goOnWith (h : s.Sound k all freed drained) (hloop : s.writer ≠ .exited)
    (hm' : m'.Coherent) (hdef : m'.undefined = false) (hatomic : m'.atomic = s.memory.atomic)
    (hcell : ∀ i, m'.cell (.slot i) = s.memory.cell (.slot i))
    (hview : ∀ t, s.memory.view t ≤ m'.view t)
    (hisOpen : (m'.cell .isOpen).value = (s.memory.cell .isOpen).value)
    (hpassed : m'.file.passed = s.memory.file.passed) (hcells : m'.Cells s.producer)
    (hw' : w'.Weakly s.memory k all.length freed drained)
    (hreport : w'.Reporting → s.writer.Reporting)
    (hflushing : w'.Flushing →
      (m'.view .writer).seen .flushReq = (s.memory.atomic .flushReq).last ∧
        ((s.memory.atomic .flushReq).store (s.memory.atomic .flushReq).last).1 = true ∧
          (m'.view .writer).seen .tail = all.length)
    (hstopping : w'.Stopping → (m'.view .writer).seen .tail = all.length ∧
      (s.producer.Closing ∨ (s.memory.cell .isOpen).value = false)) :
    { s with memory := m', writer := w' }.Sound k all freed drained :=
  h.goOn hloop
    (h.holds.frame hm' (congrFun hatomic _) (congrFun hatomic _) hcell hview) hdef
    (fun a _ _ => congrFun hatomic a) (fun _ _ => rfl) (fun i => by rw [hcell]) hview hisOpen
    (hpassed.trans h.passed) (hw'.mono (congrFun hatomic _) (hview _))
    (fun hall hnot => ⟨hall, fun hr => hnot (hreport hr)⟩) hflushing hstopping hcells

/-- A load of the writer. -/
lemma load (h : s.Sound k all freed drained) (hloop : s.writer ≠ .exited) {a : SinkVar} {i : ℕ}
    (hw' : w'.Weakly s.memory k all.length freed drained)
    (hreport : w'.Reporting → s.writer.Reporting)
    (hflushing : w'.Flushing →
      ((s.memory.loadAcquire .writer a i).1.view .writer).seen .flushReq =
          (s.memory.atomic .flushReq).last ∧
        ((s.memory.atomic .flushReq).store (s.memory.atomic .flushReq).last).1 = true ∧
          ((s.memory.loadAcquire .writer a i).1.view .writer).seen .tail = all.length)
    (hstopping : w'.Stopping →
      ((s.memory.loadAcquire .writer a i).1.view .writer).seen .tail = all.length ∧
        (s.producer.Closing ∨ (s.memory.cell .isOpen).value = false)) :
    { s with memory := (s.memory.loadAcquire .writer a i).1, writer := w' }.Sound k all freed
      drained :=
  h.goOnWith hloop h.holds.coherent.loadAcquire h.defined rfl (fun _ => rfl)
    (fun t => Memory.view_le_loadAcquire t) rfl rfl
    (h.cells.frame (fun _ _ => rfl) fun _ hj => hj) hw' hreport hflushing hstopping

/-- A step of `drain`. -/
lemma drain (h : s.Sound k all freed drained) {d : Drain} (hplace : s.writer = .drain d)
    (io : IoOutcome) (load : ℕ) :
    ∃ freed' drained', drained ≤ drained' ∧ (s.consume io load).Sound k all freed' drained' := by
  have hloop : s.writer ≠ .exited := by simp [hplace]
  obtain ⟨hopen, hj⟩ := h.working hloop
  have hd : d.Weakly s.memory k freed drained := by
    simpa [hplace, Writer.Weakly] using h.writer
  have hring := h.holds.drain h.defined hd load
  rw [← h.mask_eq] at hring
  simp only [WeakSink.consume, hplace]
  rcases hdrain : s.memory.drain s.mask load d with ⟨m', d' | ⟨p, d'⟩ | n⟩
  all_goals
    rw [hdrain] at hring
    obtain ⟨hstep, hslot, freed', hfreed, hring⟩ := hring
    have hisOpen : m'.cell .isOpen = s.memory.cell .isOpen := hstep.cell _ fun i => by simp
    have hfile : m'.file = s.memory.file :=
      congrArg Cell.value (hstep.cell .file fun i => by simp)
    have hcells : m'.Cells s.producer := h.cells.frame hstep.cell fun _ hj => hj
  · -- the call goes on
    obtain ⟨hholds, hd'⟩ := hring
    refine ⟨freed', drained, le_rfl, ?_⟩
    exact h.goOn hloop hholds hstep.undefined hstep.atomic hfreed hslot hstep.view_le
      (by rw [hisOpen]) (by rw [hfile, h.passed]) hd' (fun hall _ => ⟨hall, id⟩) False.elim
      False.elim hcells
  · -- a record is passed to `fwrite`
    obtain ⟨hp, hholds, hd'⟩ := hring
    obtain ⟨hlt, hget⟩ := List.getElem?_eq_some_iff.mp hp
    have hm'' : (m'.useFile .writer fun f => (f.fwrite p io).1).Coherent :=
      SinkMemory.coherent_useFile hholds.coherent
    have hview : ∀ t, m'.view t ≤ (m'.useFile .writer fun f => (f.fwrite p io).1).view t :=
      fun t => SinkMemory.view_le_useFile t
    obtain ⟨hpointer, hwrite⟩ := hcells.writer_ok hholds.coherent (by rw [hisOpen, hopen]) hj
    refine ⟨freed', drained + 1, Nat.le_succ _, ?_⟩
    refine h.goOn hloop (hholds.frame hm'' rfl rfl SinkMemory.slot_useFile hview)
      (SinkMemory.undefined_useFile hstep.undefined hpointer hwrite) hstep.atomic hfreed
      (fun i => by rw [SinkMemory.slot_useFile, hslot])
      (fun t => View.le_trans (hstep.view_le t) (hview t))
      (by rw [SinkMemory.isOpen_useFile, hisOpen]) ?_ ?_ (fun hall => absurd hlt (by omega))
      ?_ ?_ hcells.writer_useFile
    · rw [SinkMemory.file_useFile, File.passed_fwrite, hfile, h.passed, List.take_add_one, hp,
        Option.toList_some, List.flatten_append, List.flatten_singleton]
    · have hd'' : d'.Weakly (m'.useFile .writer fun f => (f.fwrite p io).1) k freed'
          (drained + 1) := hd'.mono rfl (hview _)
      split_ifs <;> exact hd''
    · split_ifs <;> exact False.elim
    · split_ifs <;> exact False.elim
  · -- the slots are freed
    obtain ⟨hholds, hdrained⟩ := hring
    refine ⟨freed', drained, le_rfl, ?_⟩
    exact h.goOn hloop hholds hstep.undefined hstep.atomic hfreed hslot hstep.view_le
      (by rw [hisOpen]) (by rw [hfile, h.passed]) hdrained (fun hall _ => ⟨hall, id⟩) False.elim
      False.elim hcells

/-- A step of `empty`, after which the writer is at `w'`. -/
lemma empty (h : s.Sound k all freed drained) (hloop : s.writer ≠ .exited) {e : EmptyCheck}
    (he : e.Weakly k drained) (hdrained : drained = freed (s.memory.atomic .head).last)
    (load : ℕ) :
    let r := s.memory.empty load e
    (match r.2 with
      | .inl e' => e'.Weakly k drained
      | .inr b => b = true → drained = (s.memory.view .writer).seen .tail) ∧
    ∀ w' : Writer, w'.Weakly s.memory k all.length freed drained → ¬ w'.Reporting →
      (w'.Flushing → s.writer.Flushing) → (w'.Stopping → s.writer.Stopping) →
        { s with memory := r.1, writer := w' }.Sound k all freed drained := by
  intro r
  obtain ⟨hstep, hholds, hatomic, hcell, hresult⟩ := h.holds.empty h.defined he hdrained load
  obtain ⟨hflushing, hstopping⟩ := h.still hholds.coherent (fun a _ => congrFun hatomic a)
    hstep.view_le
  refine ⟨hresult, fun w' hw' hreport hf hs => ?_⟩
  exact h.goOnWith hloop hholds.coherent hstep.undefined hatomic (fun _ => by rw [hcell])
    hstep.view_le (by rw [hcell]) (by rw [SinkMemory.file, hcell]; rfl)
    (h.cells.frame (fun c _ => by rw [hcell]) fun _ hj => hj) hw' (fun hr => absurd hr hreport)
    (fun hf' => hflushing (hf hf')) fun hs' => hstopping (hs hs')

/-- **A step of the writer**, whatever store it loads. -/
lemma consume (h : s.Sound k all freed drained) (io : IoOutcome) (load : ℕ) :
    ∃ freed' drained', drained ≤ drained' ∧ (s.consume io load).Sound k all freed' drained' := by
  have hm := h.holds.coherent
  have hlast := h.holds.last_tail
  have hw := h.writer
  cases hplace : s.writer with
  | drain d => exact h.drain hplace io load
  | loadWerr d =>
    rw [hplace] at hw
    refine ⟨freed, drained, le_rfl, ?_⟩
    simp only [WeakSink.consume, hplace]
    refine h.load (by simp [hplace]) ?_ (fun _ => by simp [hplace, Writer.Reporting]) ?_ ?_
    · split_ifs <;> exact hw
    · split_ifs <;> exact False.elim
    · split_ifs <;> exact False.elim
  | storeWerr d =>
    have hflags := h.flags
    rw [hplace] at hw hflags
    have hview : ∀ t, s.memory.view t ≤ (s.memory.storeRelease .writer .werr true).view t :=
      fun t => Memory.view_le_storeRelease t
    have hring : ∀ a : SinkVar, a ≠ .werr →
        (s.memory.storeRelease .writer .werr true).atomic a = s.memory.atomic a := fun a ha =>
      Memory.atomic_storeRelease_of_ne ha
    refine ⟨freed, drained, le_rfl, ?_⟩
    simp only [WeakSink.consume, hplace]
    exact
      { h with
        defined := Memory.undefined_storeRelease h.defined h.flags.own_werr
        holds := h.holds.frame hm.storeRelease (hring _ (by decide)) (hring _ (by decide))
          (fun _ => rfl) hview
        producer := h.producer.mono h.holds.mono rfl (hview _) fun _ => rfl
        writer := Drain.Weakly.mono hw (hring _ (by decide)) (hview _)
        flags := hflags.note hm
        cells := h.cells.frame (fun _ _ => rfl) fun _ hj => hj
        closed := fun hc => absurd (h.closed hc).2 (by simp [hplace]) }
  | loadFlushReq n =>
    rw [hplace] at hw
    refine ⟨freed, drained, le_rfl, ?_⟩
    simp only [WeakSink.consume, hplace]
    by_cases hload : (s.memory.loadAcquire .writer .flushReq load).2 = true
    · rw [if_pos hload]
      exact h.load (by simp [hplace]) ⟨trivial, hw⟩ False.elim
        (fun _ => h.flags.seesRequest hm hlast hload) False.elim
    · rw [if_neg hload]
      exact h.load (by simp [hplace]) (weakly_afterFlush n hw)
        (fun hr => absurd hr (CsvSink.not_reporting_afterFlush n))
        (fun hf => absurd hf (not_flushing_afterFlush n))
        (fun hs => absurd hs (not_stopping_afterFlush n))
  | flushEmpty n e =>
    obtain ⟨-, -, hall⟩ := h.flags.flushing (by simp [hplace, Writer.Flushing])
    rw [hplace] at hw
    obtain ⟨hresult, hnext⟩ := h.empty (by simp [hplace]) hw.1 hw.2 load
    refine ⟨freed, drained, le_rfl, ?_⟩
    simp only [WeakSink.consume, hplace]
    rcases hempty : s.memory.empty load e with ⟨m', e' | b⟩
    all_goals rw [hempty] at hresult hnext
    · exact hnext (.flushEmpty n e') ⟨hresult, hw.2⟩ id (by simp [hplace, Writer.Flushing])
        False.elim
    · cases b with
      | true =>
        -- every record is drained, and the producer is waiting
        exact hnext (.fflush n) ⟨hw.2, (hresult rfl).trans hall⟩ id
          (by simp [hplace, Writer.Flushing]) False.elim
      | false =>
        exact hnext _ (weakly_afterFlush n hw.2) (CsvSink.not_reporting_afterFlush n)
          (fun hf => absurd hf (not_flushing_afterFlush n))
          (fun hs => absurd hs (not_stopping_afterFlush n))
  | fflush n =>
    have hloop : s.writer ≠ .exited := by simp [hplace]
    obtain ⟨hopen, hj⟩ := h.working hloop
    obtain ⟨hpointer, hfile⟩ := h.cells.writer_ok hm hopen hj
    have hview : ∀ t, s.memory.view t ≤
        (s.memory.useFile .writer fun f => (f.fflush io).1).view t :=
      fun t => SinkMemory.view_le_useFile t
    obtain ⟨hflushing, -⟩ := h.still (SinkMemory.coherent_useFile hm) (fun _ _ => rfl) hview
    rw [hplace] at hw
    refine ⟨freed, drained, le_rfl, ?_⟩
    simp only [WeakSink.consume, hplace]
    exact h.goOnWith hloop (SinkMemory.coherent_useFile hm)
      (SinkMemory.undefined_useFile h.defined hpointer hfile) rfl SinkMemory.slot_useFile hview
      SinkMemory.isOpen_useFile (by rw [SinkMemory.file_useFile, File.passed_fflush])
      h.cells.writer_useFile hw False.elim
      (fun _ => hflushing (by simp [hplace, Writer.Flushing])) False.elim
  | clearFlushReq n =>
    obtain ⟨hseen, -, -⟩ := h.flags.flushing (by simp [hplace, Writer.Flushing])
    have hflags := h.flags
    rw [hplace] at hw hflags
    obtain ⟨hdrained, rfl⟩ := hw
    have hview : ∀ t, s.memory.view t ≤ (s.memory.storeRelease .writer .flushReq false).view t :=
      fun t => Memory.view_le_storeRelease t
    have hring : ∀ a : SinkVar, a ≠ .flushReq →
        (s.memory.storeRelease .writer .flushReq false).atomic a = s.memory.atomic a := fun a ha =>
      Memory.atomic_storeRelease_of_ne ha
    refine ⟨freed, all.length, le_rfl, ?_⟩
    simp only [WeakSink.consume, hplace]
    exact
      { h with
        defined := Memory.undefined_storeRelease h.defined hseen
        holds := h.holds.frame hm.storeRelease (hring _ (by decide)) (hring _ (by decide))
          (fun _ => rfl) hview
        producer := h.producer.mono h.holds.mono rfl (hview _) fun _ => rfl
        writer := (weakly_afterFlush n hdrained).mono (hring _ (by decide)) (hview _)
        flags := hflags.answer hm
        cells := h.cells.frame (fun _ _ => rfl) fun _ hj => hj
        closed := fun hc => absurd (h.closed hc).2 (by simp [hplace]) }
  | loadStop =>
    rw [hplace] at hw
    refine ⟨freed, drained, le_rfl, ?_⟩
    simp only [WeakSink.consume, hplace]
    by_cases hload : (s.memory.loadAcquire .writer .stop load).2 = true
    · rw [if_pos hload]
      exact h.load (by simp [hplace]) ⟨trivial, hw⟩ False.elim False.elim
        fun _ => h.flags.seesStop hm hlast hload
    · rw [if_neg hload]
      exact h.load (by simp [hplace]) hw False.elim False.elim False.elim
  | stopEmpty e =>
    obtain ⟨hall, -⟩ := h.flags.stopping (by simp [hplace, Writer.Stopping])
    rw [hplace] at hw
    obtain ⟨hresult, hnext⟩ := h.empty (by simp [hplace]) hw.1 hw.2 load
    refine ⟨freed, drained, le_rfl, ?_⟩
    simp only [WeakSink.consume, hplace]
    rcases hempty : s.memory.empty load e with ⟨m', e' | b⟩
    all_goals rw [hempty] at hresult hnext
    · exact hnext (.stopEmpty e') ⟨hresult, hw.2⟩ id False.elim (by simp [hplace, Writer.Stopping])
    · cases b with
      | true =>
        -- every record is drained, and the producer writes no more
        exact hnext .exited ⟨hw.2, (hresult rfl).trans hall⟩ id False.elim
          (by simp [hplace, Writer.Stopping])
      | false => exact hnext (.drain .loadHead) hw.2 id False.elim False.elim
  | exited =>
    refine ⟨freed, drained, le_rfl, ?_⟩
    simp only [WeakSink.consume, hplace]
    exact h

end WeakSink.Sound

/-! ## Runs -/

namespace WeakSink

/-- The invariant, for the calls that have returned. -/
structure Fits (k : ℕ) (calls : List SinkCall) (returned : List SinkCall) (s : WeakSink) :
    Prop where
  sound : ∃ freed drained, s.Sound k (writtenRecords returned) freed drained
  isOpen : (s.memory.cell .isOpen).value = true ↔ .close ∉ returned
  calls_eq : returned ++ (s.producer.call.toList ++ s.todo) = calls

variable {k : ℕ} {calls returned : List SinkCall} {s : WeakSink}

/-- The records after another call. -/
lemma Fits.grown (h : s.Fits k calls returned) (call : Option SinkCall) :
    s.grown (writtenRecords returned) call = writtenRecords (returned ++ call.toList) := by
  rw [WeakSink.grown]
  by_cases hopen : (s.memory.cell .isOpen).value = true
  · rw [if_pos hopen, writtenRecords_append (h.isOpen.mp hopen)]
  · rw [if_neg hopen, List.append_nil,
      writtenRecords_append_of_closed (not_not.mp (mt h.isOpen.mpr hopen))]

/-- A step of one of the threads. -/
lemma Fits.step (h : s.Fits k calls returned) (m : WeakMove) :
    (s.step m).1.Fits k calls (returned ++ (s.step m).2.toList) := by
  obtain ⟨freed, drained, hsound⟩ := h.sound
  cases hthread : m.thread with
  | producer =>
    simp only [WeakSink.step, hthread]
    refine ⟨⟨freed, drained, ?_⟩, ?_, ?_⟩
    · rw [← h.grown]
      exact (hsound.produce m.io m.load).sound
    · rw [isOpen_produce, h.isOpen, List.mem_append, not_or, Option.mem_toList, ne_eq]
    · rw [List.append_assoc, ← List.append_assoc _ _ (s.produce m.io m.load).1.todo,
        calls_produce, h.calls_eq]
  | writer =>
    simp only [WeakSink.step, hthread, Option.toList_none, List.append_nil]
    obtain ⟨freed', drained', -, hsound'⟩ := hsound.consume m.io m.load
    obtain ⟨hproducer, htodo⟩ := todo_consume s m.io m.load
    refine ⟨⟨freed', drained', hsound'⟩, ?_, ?_⟩
    · rw [isOpen_consume]
      exact h.isOpen
    · rw [hproducer, htodo]
      exact h.calls_eq

lemma fits_run (k : ℕ) (calls : List SinkCall) (schedule : List WeakMove) :
    (run step (opened true (2 ^ k) calls) schedule).1.Fits k calls
      (returnedCalls (run step (opened true (2 ^ k) calls) schedule).2) := by
  refine run_induction (P := fun h (t : WeakSink) => t.Fits k calls (returnedCalls h)) ?_ ?_
    schedule
  · exact ⟨⟨_, 0, Sound.opened k calls⟩, iff_of_true rfl List.not_mem_nil, rfl⟩
  · intro h t m hfits
    rw [returnedCalls_concat]
    exact hfits.step m

/-- **The memory orders of the sink are strong enough.**  Whatever the calls, the size of the ring,
the behaviour of the device, the order in which the threads take their steps and the stores that
they load: no two accesses race, no slot is out of bounds and no store could be ordered before
another one.  What has been passed to `fwrite` is at every moment a prefix of the records that
have been written, and when a `flush` or a `close` returns it is all of them, as in synchronous
mode, and the producer sees the error flag as it is, if it looks at `failed()`. -/
theorem writes_as_inline_weakly (k : ℕ) (calls : List SinkCall) (schedule : List WeakMove) :
    let r := run step (opened true (2 ^ k) calls) schedule
    r.1.memory.undefined = false ∧ returnedCalls r.2 <+: calls ∧
      r.1.memory.file.passed <+: writtenBytes (returnedCalls r.2) ∧
      ∀ m call, (r.1.step m).2 = some call → call = .flush ∨ call = .close →
        (r.1.step m).1.memory.file.passed = writtenBytes (returnedCalls r.2 ++ [call]) ∧
        (r.1.step m).1.memory.file.passed = inlineBytes (returnedCalls r.2 ++ [call]) ∧
        ∀ load, (r.1.step m).1.failed load =
          (((r.1.step m).1.memory.atomic .werr).store
            ((r.1.step m).1.memory.atomic .werr).last).1 := by
  intro r
  have hfits : r.1.Fits k calls (returnedCalls r.2) := fits_run k calls schedule
  obtain ⟨freed, drained, hsound⟩ := hfits.sound
  refine ⟨hsound.defined, ⟨_, hfits.calls_eq⟩, ?_, ?_⟩
  · rw [hsound.passed, writtenBytes]
    refine ⟨((writtenRecords (returnedCalls r.2)).drop drained).flatten, ?_⟩
    rw [← List.flatten_append, List.take_append_drop]
  · intro m call hcall hne
    have hrecords : writtenRecords (returnedCalls r.2 ++ [call]) =
        writtenRecords (returnedCalls r.2) :=
      writtenRecords_concat_of_ne (by rcases hne with rfl | rfl <;> simp)
    cases hthread : m.thread with
    | producer =>
      simp only [step, hthread] at hcall ⊢
      have hproduced := hsound.produce m.io m.load
      rw [hcall] at hproduced
      obtain ⟨hall, hpassed, hinformed⟩ := hproduced.drained (by simpa using hne)
      have hbytes : (r.1.produce m.io m.load).1.memory.file.passed =
          writtenBytes (returnedCalls r.2 ++ [call]) := by
        rw [hpassed, hsound.passed, hall, List.take_length, writtenBytes, hrecords]
      refine ⟨hbytes, hbytes.trans (inlineBytes_eq _).symm, fun load => ?_⟩
      -- there is no other store that the producer could load
      exact Memory.loadAcquire_of_newest hinformed
    | writer =>
      -- the writer makes no call return
      simp [step, hthread] at hcall

/-- The producer asks for the newest stores, and every other load of the writer is outdated. -/
example :
    let calls : List SinkCall := [.write [1], .write [2], .flush]
    let r := run step (opened true (2 ^ 1) calls) (List.replicate 24
      [{ thread := .producer, load := 9 }, { thread := .writer },
        { thread := .writer, load := 9 }]).flatten
    returnedCalls r.2 = calls ∧ r.1.memory.file.passed = [1, 2] := by decide

end WeakSink

end LobCapture
