/-
# Every call returns

Nothing is said about the order in which the threads of a sink take their steps, but that neither
of them stops for ever.  Then a call that waits does not wait for ever: for a slot that becomes
free, for the answer to a request to flush, or for the writer to exit.  What the producer waits
for is a matter of the writer going round its loop, and the rank counts the places that are left
on the way.
-/
import LobCapture.Sink.Async
import LobCapture.Lib.Fair
import Mathlib.Data.Prod.Lex

namespace LobCapture

open Lib

/-! ## Slots in use -/

/-- The number of slots from `h` up to `t`. -/
def SpscByteRing.between (r : SpscByteRing) (h t : ℕ) : ℕ := (t + (r.mask + 1) - h) % (r.mask + 1)

/-- The slots in use. -/
def SpscByteRing.used (r : SpscByteRing) : ℕ := r.between r.head r.tail

namespace SpscByteRing.Holds

variable {r r' : SpscByteRing} {k freed drained : ℕ} {all : List Bytes}

lemma between_eq (h : r.Holds k all freed) {a b : ℕ} (hab : a ≤ b) (hlt : b < a + 2 ^ k) :
    r.between (a % 2 ^ k) (b % 2 ^ k) = b - a := by
  have hn : r.mask + 1 = 2 ^ k := by
    have := h.window.pos
    rw [h.mask_eq]
    omega
  have ha : a % 2 ^ k < 2 ^ k := Nat.mod_lt _ h.window.pos
  obtain ⟨d, rfl⟩ := Nat.exists_eq_add_of_le hab
  have hd : d < 2 ^ k := by omega
  rw [SpscByteRing.between, hn, Nat.add_mod a d, Nat.mod_eq_of_lt hd]
  -- the end of the range is behind its start, or has wrapped around
  rcases lt_or_ge (a % 2 ^ k + d) (2 ^ k) with hlt | hge
  · rw [Nat.mod_eq_of_lt hlt,
      show a % 2 ^ k + d + 2 ^ k - a % 2 ^ k = d + 2 ^ k by omega, Nat.add_mod_right,
      Nat.mod_eq_of_lt hd]
    omega
  · rw [Nat.mod_eq_sub_mod hge, Nat.mod_eq_of_lt (by omega : a % 2 ^ k + d - 2 ^ k < 2 ^ k),
      show a % 2 ^ k + d - 2 ^ k + 2 ^ k - a % 2 ^ k = d by omega, Nat.mod_eq_of_lt hd]
    omega

lemma used_eq (h : r.Holds k all freed) : r.used = all.length - freed := by
  rw [SpscByteRing.used, h.window.head_eq, h.window.tail_eq]
  exact h.between_eq h.window.freed_le h.window.length_lt

/-- A ring with more than one slot that is full is not empty. -/
lemma used_pos_of_full (h : r.Holds k all freed) (hk : 0 < k) (hfull : r.next r.tail = r.head) :
    0 < r.used := by
  rw [h.next_eq] at hfull
  have heq := h.window.full_iff.mp hfull
  have htwo : 2 ≤ 2 ^ k := Nat.le_self_pow hk.ne' 2
  rw [h.used_eq]
  omega

end SpscByteRing.Holds

/-! ## The writer -/

/-- The steps until a record has been freed, at most, when there is one. -/
def Drain.toFree (r : SpscByteRing) : Drain → ℕ
  | .loadHead => 3 * r.used + 3
  | .loadTail _ => 3 * r.used + 2
  | .loop h t count => if count = 0 ∧ h = t then 3 * r.used + 10 else 3 * r.between h t + 1

namespace Writer

/-- The steps until a record has been freed, at most, when there is one. -/
def toFree (r : SpscByteRing) : Writer → ℕ
  | .drain d => d.toFree r
  | .loadWerr d => d.toFree r + 2
  | .storeWerr d => d.toFree r + 1
  | .loadFlushReq _ => 3 * r.used + 9
  | .flushEmpty _ .loadHead => 3 * r.used + 8
  | .flushEmpty _ (.loadTail _) => 3 * r.used + 7
  | .loadStop => 3 * r.used + 6
  | .stopEmpty .loadHead => 3 * r.used + 5
  | .stopEmpty (.loadTail _) => 3 * r.used + 4
  | .fflush _ | .clearFlushReq _ | .exited => 0

/-- The steps until a request to flush has been answered, at most, when the ring is empty. -/
def toClear : Writer → ℕ
  | .loadWerr _ => 11
  | .storeWerr _ => 10
  | .loadStop => 9
  | .drain .loadHead => 8
  | .drain (.loadTail _) => 7
  | .drain (.loop _ _ _) => 6
  | .loadFlushReq _ => 5
  | .flushEmpty _ .loadHead => 4
  | .flushEmpty _ (.loadTail _) => 3
  | .fflush _ => 2
  | .clearFlushReq _ => 1
  | .stopEmpty _ | .exited => 0

/-- The steps until the writer has exited, at most, when it is to stop and the ring is empty. -/
def toExit : Writer → ℕ
  | .loadWerr _ => 10
  | .storeWerr _ => 9
  | .loadFlushReq n => if n = 0 then 4 else 8
  | .drain .loadHead => 7
  | .drain (.loadTail _) => 6
  | .drain (.loop _ _ _) => 5
  | .loadStop => 3
  | .stopEmpty .loadHead => 2
  | .stopEmpty (.loadTail _) => 1
  | .flushEmpty _ _ | .fflush _ | .clearFlushReq _ | .exited => 0

end Writer

lemma toFree_afterFlush (r : SpscByteRing) (n : ℕ) :
    (CsvSink.afterFlush n).toFree r ≤ 3 * r.used + 6 := by
  rw [CsvSink.afterFlush]
  split_ifs <;> simp [Writer.toFree, Drain.toFree]

/-- A step of `drain` in a ring that is not empty. -/
lemma SpscByteRing.Holds.toFree_drain {r : SpscByteRing} {k freed drained : ℕ} {all : List Bytes}
    (h : r.Holds k all freed) {d : Drain} (hd : d.At k all.length freed drained)
    (hused : 0 < r.used) :
    match r.drain d with
    | (r', .next d') => r' = r ∧ d'.toFree r < d.toFree r
    | (r', .record _ d') => r' = r ∧ d'.toFree r + 2 < d.toFree r
    | (r', .done _) => r'.used < r.used ∨ r' = r ∧ d.toFree r = 3 * r.used + 10 := by
  cases d with
  | loadHead => exact ⟨rfl, by simp [Drain.toFree]⟩
  | loadTail h' =>
    obtain ⟨rfl, rfl⟩ := hd
    refine ⟨rfl, ?_⟩
    have hbetween : r.between (drained % 2 ^ k) r.tail = r.used := by
      rw [← h.window.head_eq, SpscByteRing.used]
    have hne : drained % 2 ^ k ≠ r.tail := by
      rw [← h.window.head_eq]
      intro heq
      have := h.window.empty_iff.mp heq
      rw [h.used_eq] at hused
      omega
    simp only [Drain.toFree, hbetween, hne, and_false, if_false]
    omega
  | loop h' t count =>
    obtain ⟨rfl, hcount, e, rfl, hle, hlen⟩ := hd
    have hlt := h.window.length_lt
    have hindex := h.window.index_eq_iff (show freed ≤ drained by omega) hle hlen
    simp only [SpscByteRing.drain, ne_eq, ite_not, hindex]
    split_ifs with he hzero
    · subst he
      exact .inr ⟨rfl, by simp [Drain.toFree, hzero]⟩
    · -- the records that have been read are freed
      subst he
      refine .inl ?_
      have hnew : ({ r with head := drained % 2 ^ k } : SpscByteRing).Holds k all drained :=
        ⟨h.mask_eq, h.window.free (by omega) hlen⟩
      rw [hnew.used_eq, h.used_eq]
      omega
    · refine ⟨rfl, ?_⟩
      have hbetween := h.between_eq hle (by omega)
      have hnext : r.between ((drained + 1) % 2 ^ k) (e % 2 ^ k) = e - (drained + 1) :=
        h.between_eq (by omega) (by omega)
      rw [h.next_eq, Nat.mod_add_mod]
      simp only [Drain.toFree, hbetween, hnext, hindex, he, and_false, if_false,
        Nat.add_eq_zero_iff, one_ne_zero, false_and]
      omega

namespace CsvSink.Sound

variable {k freed drained : ℕ} {all : List Bytes} {s : CsvSink}

/-- The writer comes nearer to freeing a record. -/
lemma toFree_consume (h : s.Sound k all freed drained) (hused : 0 < s.ring.used) (io : IoOutcome) :
    (s.consume io).ring.used < s.ring.used ∨ (s.consume io).ring.used = s.ring.used ∧
      (s.consume io).writer.toFree (s.consume io).ring < s.writer.toFree s.ring := by
  have hw := h.writer
  have hne : freed ≠ all.length := by
    rw [h.holds.used_eq] at hused
    omega
  cases hplace : s.writer with
  | drain d =>
    have hd : d.At k all.length freed drained := by simpa [hplace, Writer.At] using hw
    have hring := h.holds.toFree_drain hd hused
    simp only [CsvSink.consume, hplace]
    rcases hstep : s.ring.drain d with ⟨ring, d' | ⟨p, d'⟩ | n⟩
    · rw [hstep] at hring
      obtain ⟨rfl, hlt⟩ := hring
      exact .inr ⟨rfl, hlt⟩
    · rw [hstep] at hring
      obtain ⟨rfl, hlt⟩ := hring
      refine .inr ⟨rfl, ?_⟩
      dsimp only
      split_ifs <;> simp only [Writer.toFree] <;> omega
    · rw [hstep] at hring
      rcases hring with hlt | ⟨rfl, heq⟩
      · exact .inl hlt
      · exact .inr ⟨rfl, by simp only [Writer.toFree, heq]; omega⟩
  | loadWerr d =>
    refine .inr ?_
    simp only [CsvSink.consume, hplace]
    split_ifs <;> simp [Writer.toFree]
  | storeWerr d => exact .inr (by simp [CsvSink.consume, hplace, Writer.toFree])
  | loadFlushReq n =>
    refine .inr ?_
    have hafter := toFree_afterFlush s.ring n
    simp only [CsvSink.consume, hplace]
    split_ifs
    · simp [Writer.toFree]
    · exact ⟨trivial, hafter.trans_lt (Nat.add_lt_add_left (by decide) _)⟩
  | flushEmpty n e =>
    obtain ⟨he, -⟩ : e.At s.ring ∧ drained = freed := by simpa [hplace, Writer.At] using hw
    have hempty := h.holds.empty he
    have hafter := toFree_afterFlush s.ring n
    refine .inr ?_
    simp only [CsvSink.consume, hplace]
    cases e with
    | loadHead => simp [SpscByteRing.empty, Writer.toFree]
    | loadTail h' =>
      simp only [SpscByteRing.empty] at hempty ⊢
      have hfull : ¬ (decide (h' = s.ring.tail) = true) := fun hb => hne (hempty.mp hb)
      simp only [hfull, Bool.false_eq_true, if_false]
      exact ⟨trivial, hafter.trans_lt (Nat.add_lt_add_left (by decide) _)⟩
  | fflush n | clearFlushReq n | exited =>
    simp only [hplace, Writer.At] at hw
    exact absurd hw.2 hne
  | loadStop =>
    refine .inr ?_
    simp only [CsvSink.consume, hplace]
    split_ifs <;> simp [Writer.toFree, Drain.toFree]
  | stopEmpty e =>
    obtain ⟨he, -⟩ : e.At s.ring ∧ drained = freed := by simpa [hplace, Writer.At] using hw
    have hempty := h.holds.empty he
    refine .inr ?_
    simp only [CsvSink.consume, hplace]
    cases e with
    | loadHead => simp [SpscByteRing.empty, Writer.toFree]
    | loadTail h' =>
      simp only [SpscByteRing.empty] at hempty ⊢
      have hfull : ¬ (decide (h' = s.ring.tail) = true) := fun hb => hne (hempty.mp hb)
      simp [hfull, Writer.toFree, Drain.toFree]

/-- In an empty ring there is nothing to drain. -/
lemma drain_empty (h : s.Sound k all all.length drained) {h' t count : ℕ}
    (hplace : s.writer = .drain (.loop h' t count)) :
    s.ring.drain (.loop h' t count) = (s.ring, .done 0) := by
  have hd : Drain.At k all.length all.length drained (.loop h' t count) := by
    have := h.writer
    rwa [hplace] at this
  obtain ⟨rfl, hcount, e, rfl, hle, hlen⟩ := hd
  obtain rfl : e = drained := by omega
  obtain rfl : count = 0 := by omega
  simp [SpscByteRing.drain]

/-- The writer comes nearer to the answer to a request. -/
lemma toClear_consume (h : s.Sound k all all.length drained) (hreq : s.flushReq = true)
    (hstop : s.stop = false) (io : IoOutcome) :
    (s.consume io).flushReq = false ∨ (s.consume io).flushReq = true ∧
      (s.consume io).ring = s.ring ∧ (s.consume io).writer.toClear < s.writer.toClear := by
  have hw := h.writer
  cases hplace : s.writer with
  | drain d =>
    refine .inr ?_
    cases d with
    | loop h' t count =>
      simp only [CsvSink.consume, hplace, h.drain_empty hplace]
      exact ⟨hreq, trivial, by simp [Writer.toClear]⟩
    | _ =>
      simp only [CsvSink.consume, hplace, SpscByteRing.drain]
      exact ⟨hreq, trivial, by simp [Writer.toClear]⟩
  | loadWerr d =>
    refine .inr ?_
    simp only [CsvSink.consume, hplace]
    exact ⟨hreq, trivial, by cases d <;> split_ifs <;> simp [Writer.toClear]⟩
  | storeWerr d =>
    refine .inr ?_
    simp only [CsvSink.consume, hplace]
    exact ⟨hreq, trivial, by cases d <;> simp [Writer.toClear]⟩
  | loadFlushReq n => exact .inr (by simp [CsvSink.consume, hplace, hreq, Writer.toClear])
  | flushEmpty n e =>
    obtain ⟨he, -⟩ : e.At s.ring ∧ drained = all.length := by simpa [hplace, Writer.At] using hw
    have hempty := h.holds.empty he
    refine .inr ?_
    simp only [CsvSink.consume, hplace]
    cases e with
    | loadHead => exact ⟨hreq, rfl, by simp [SpscByteRing.empty, Writer.toClear]⟩
    | loadTail h' =>
      simp only [SpscByteRing.empty] at hempty ⊢
      simp [of_decide_eq_true (hempty.mpr trivial), hreq, Writer.toClear]
  | fflush n => exact .inr (by simp [CsvSink.consume, hplace, hreq, Writer.toClear])
  | clearFlushReq n => exact .inl (by simp [CsvSink.consume, hplace])
  | loadStop => exact .inr (by simp [CsvSink.consume, hplace, hreq, hstop, Writer.toClear])
  | stopEmpty e | exited =>
    exact absurd (h.stopping (by simp [hplace, Writer.Stopping])) (by simp [hstop])

/-- The writer comes nearer to its exit. -/
lemma toExit_consume (h : s.Sound k all all.length drained) (hreq : s.flushReq = false)
    (hstop : s.stop = true) (hne : s.writer ≠ .exited) (io : IoOutcome) :
    (s.consume io).writer = .exited ∨
      (s.consume io).ring = s.ring ∧ (s.consume io).writer.toExit < s.writer.toExit := by
  have hw := h.writer
  cases hplace : s.writer with
  | drain d =>
    refine .inr ?_
    cases d with
    | loop h' t count =>
      simp only [CsvSink.consume, hplace, h.drain_empty hplace]
      exact ⟨trivial, by simp [Writer.toExit]⟩
    | _ =>
      simp only [CsvSink.consume, hplace, SpscByteRing.drain]
      exact ⟨trivial, by simp [Writer.toExit]⟩
  | loadWerr d =>
    refine .inr ?_
    simp only [CsvSink.consume, hplace]
    exact ⟨trivial, by cases d <;> split_ifs <;> simp [Writer.toExit]⟩
  | storeWerr d =>
    refine .inr ?_
    simp only [CsvSink.consume, hplace]
    exact ⟨trivial, by cases d <;> simp [Writer.toExit]⟩
  | loadFlushReq n =>
    refine .inr ?_
    simp only [CsvSink.consume, hplace, hreq, Bool.false_eq_true, if_false]
    refine ⟨trivial, ?_⟩
    rw [CsvSink.afterFlush]
    split_ifs with hn <;> simp [Writer.toExit, hn]
  | flushEmpty n e | fflush n | clearFlushReq n =>
    exact absurd (h.flushing (by simp [hplace, Writer.Flushing])) (by simp [hreq])
  | loadStop => exact .inr (by simp [CsvSink.consume, hplace, hstop, Writer.toExit])
  | stopEmpty e =>
    obtain ⟨he, -⟩ : e.At s.ring ∧ drained = all.length := by simpa [hplace, Writer.At] using hw
    have hempty := h.holds.empty he
    simp only [CsvSink.consume, hplace]
    cases e with
    | loadHead => exact .inr (by simp [SpscByteRing.empty, Writer.toExit])
    | loadTail h' =>
      simp only [SpscByteRing.empty] at hempty ⊢
      exact .inl (by simp [of_decide_eq_true (hempty.mpr trivial)])
  | exited => exact absurd hplace hne

end CsvSink.Sound

/-! ## The producer -/

namespace CsvSink

/-- The ring has no room for another record. -/
def full (s : CsvSink) : Bool := s.ring.next s.ring.tail = s.ring.head

/-- The producer waits for the writer. -/
def waits (s : CsvSink) : Bool :=
  match s.producer with
  | .tryWrite _ .loadTail | .tryWrite _ (.loadHead _) => s.full
  | .loadFlushReq => s.flushReq
  | .join => s.writer ≠ .exited
  | _ => false

/-- Who has to take a step. -/
def helper (s : CsvSink) : Thread := if s.waits then .writer else .producer

/-- The stages of the call that are left. -/
def stage (s : CsvSink) : ℕ :=
  match s.producer with
  | .idle => 7
  | .tryWrite _ .loadTail => if s.full then 5 else 4
  | .tryWrite _ (.loadHead _) => if s.full then 5 else 3
  | .tryWrite _ (.assign _) => 2
  | .tryWrite _ (.storeTail _) => 1
  | .storeFlushReq => 3
  | .loadFlushReq => if s.flushReq then 2 else 1
  | .storeStop => 6
  | .join => if s.writer = .exited then 3 else 4
  | .fwrite _ => 3
  | .loadWerr _ | .lastFlush => 2
  | .storeWerr _ | .fflush | .fclose => 1

/-- The calls that have not returned. -/
def callsLeft (s : CsvSink) : ℕ := s.producer.call.toList.length + s.todo.length

/-- The steps of the writer that the producer waits for, in a round in which nothing is freed. -/
def writerSteps (s : CsvSink) : ℕ :=
  if 0 < s.ring.used then s.writer.toFree s.ring
  else if s.producer = .join then s.writer.toExit else s.writer.toClear

/-- How far the producer is from the end of its calls. -/
def rank (s : CsvSink) : ℕ ×ₗ ℕ ×ₗ ℕ ×ₗ ℕ :=
  toLex (s.callsLeft, toLex (s.stage,
    if s.waits then toLex (s.ring.used, s.writerSteps) else toLex (0, 0)))

variable {s s' : CsvSink}

lemma rank_lt_of_stage
    (h : s'.callsLeft < s.callsLeft ∨ s'.callsLeft = s.callsLeft ∧ s'.stage < s.stage) :
    s'.rank < s.rank := by
  rw [rank, rank, Prod.Lex.toLex_lt_toLex, Prod.Lex.toLex_lt_toLex]
  exact h.imp id fun h => ⟨h.1, .inl h.2⟩

lemma rank_lt_of_steps (hcalls : s'.callsLeft = s.callsLeft) (hstage : s'.stage = s.stage)
    (hwaits : s.waits = true) (hwaits' : s'.waits = true)
    (h : s'.ring.used < s.ring.used ∨
      s'.ring.used = s.ring.used ∧ s'.writerSteps < s.writerSteps) : s'.rank < s.rank := by
  rw [rank, rank, hcalls, hstage, if_pos hwaits, if_pos hwaits', Prod.Lex.toLex_lt_toLex,
    Prod.Lex.toLex_lt_toLex, Prod.Lex.toLex_lt_toLex]
  exact .inr ⟨rfl, .inr ⟨rfl, h⟩⟩

/-- What holds in both modes. -/
structure Works (k : ℕ) (s : CsvSink) : Prop where
  mode : (∃ all freed drained, s.Sound k all freed drained) ∨ ∃ all, s.Inline all
  stopped : s.producer = .join → s.stop = true

lemma stage_lt (h : s.producer ≠ .idle) : s.stage < 7 := by
  rw [stage]
  split <;> first | contradiction | (split_ifs <;> decide) | decide

/-! ### Steps of the producer -/

lemma callsLeft_produce (s : CsvSink) (io : IoOutcome) :
    (s.produce io).1.callsLeft + (s.produce io).2.toList.length = s.callsLeft := by
  have h := congrArg List.length (calls_produce s io)
  simp only [List.length_append] at h
  rw [callsLeft, callsLeft]
  omega

lemma join_produce (h : s.producer = .join → s.stop = true) (io : IoOutcome)
    (hjoin : (s.produce io).1.producer = .join) : (s.produce io).1.stop = true := by
  cases hplace : s.producer with
  | idle =>
    simp only [produce, hplace, begin] at hjoin
    cases htodo : s.todo with
    | nil => simp [htodo, hplace] at hjoin
    | cons call rest =>
      cases call <;> cases hopen : s.isOpen <;> cases hasync : s.async <;>
        simp [htodo, hopen, hasync, returned] at hjoin
  | tryWrite p w =>
    simp only [produce, hplace] at hjoin
    rcases htry : s.ring.tryWrite p w with ⟨ring, w' | b⟩
    · simp [htry] at hjoin
    · cases b <;> simp [htry, returned] at hjoin
  | join =>
    simp only [produce, hplace] at hjoin ⊢
    split_ifs at hjoin ⊢
    exact h hplace
  | fwrite p | loadWerr p | loadFlushReq =>
    simp only [produce, hplace] at hjoin
    split_ifs at hjoin <;> simp [returned, hplace] at hjoin
  | storeStop => simp [produce, hplace]
  | storeWerr p | storeFlushReq | fflush | lastFlush | fclose =>
    simp [produce, hplace, returned] at hjoin

lemma Works.produce {k : ℕ} (h : s.Works k) (io : IoOutcome) : (s.produce io).1.Works k where
  mode := h.mode.imp
    (fun ⟨_, _, _, hsound⟩ => ⟨_, _, _, (hsound.produce io).sound⟩)
    (fun ⟨_, hinline⟩ => ⟨_, hinline.produce io⟩)
  stopped := join_produce h.stopped io

/-- The producer goes on, unless it waits. -/
lemma rank_produce {k : ℕ} (h : s.Works k) (hdone : s.producer = .idle → s.todo ≠ [])
    (hwaits : s.waits = false) (io : IoOutcome) : (s.produce io).1.rank < s.rank := by
  refine rank_lt_of_stage ?_
  have hcalls := callsLeft_produce s io
  cases hret : (s.produce io).2 with
  | some call =>
    rw [hret, Option.toList_some, List.length_singleton] at hcalls
    exact .inl (by omega)
  | none =>
    rw [hret, Option.toList_none, List.length_nil, add_zero] at hcalls
    refine .inr ⟨hcalls, ?_⟩
    cases hplace : s.producer with
    | idle =>
      have hseven : s.stage = 7 := by simp [stage, hplace]
      rw [hseven]
      refine stage_lt ?_
      simp only [CsvSink.produce, hplace, begin] at hret ⊢
      cases htodo : s.todo with
      | nil => exact absurd htodo (hdone hplace)
      | cons call rest =>
        cases hopen : s.isOpen
        · simp [htodo, hopen, returned] at hret
        · cases call <;> cases hasync : s.async <;> simp
    | tryWrite p w =>
      obtain ⟨all, freed, drained, hsound⟩ : ∃ all freed drained, s.Sound k all freed drained := by
        refine h.mode.resolve_right ?_
        rintro ⟨all, hinline⟩
        have := hinline.producer
        rw [hplace] at this
        exact this
      cases w with
      | loadTail =>
        have hfull : s.full = false := by simpa [waits, hplace] using hwaits
        have hfull' : ∀ place, full { s with producer := place } = false := fun _ => hfull
        simp [CsvSink.produce, hplace, SpscByteRing.tryWrite, stage, hfull, hfull']
      | loadHead t =>
        obtain rfl : t = s.ring.tail := by
          have := hsound.producer
          rwa [hplace] at this
        have hfull : s.full = false := by simpa [waits, hplace] using hwaits
        have hroom : s.ring.next s.ring.tail ≠ s.ring.head := of_decide_eq_false hfull
        simp [CsvSink.produce, hplace, SpscByteRing.tryWrite, stage, hroom, hfull]
      | assign t => simp [CsvSink.produce, hplace, SpscByteRing.tryWrite, stage]
      | storeTail t => simp [CsvSink.produce, hplace, SpscByteRing.tryWrite, returned] at hret
    | fwrite p =>
      simp only [CsvSink.produce, hplace] at hret ⊢
      split_ifs at hret ⊢
      · simp [stage, hplace]
      · simp [returned] at hret
    | loadWerr p =>
      simp only [CsvSink.produce, hplace] at hret ⊢
      split_ifs at hret ⊢
      · simp [returned] at hret
      · simp [stage, hplace]
    | loadFlushReq =>
      have hreq : s.flushReq = false := by simpa [waits, hplace] using hwaits
      simp [CsvSink.produce, hplace, hreq, returned] at hret
    | join =>
      have hexit : s.writer = .exited := by simpa [waits, hplace] using hwaits
      simp [CsvSink.produce, hplace, hexit, stage]
    | storeFlushReq | lastFlush => simp [CsvSink.produce, hplace, stage]
    | storeStop =>
      simp only [CsvSink.produce, hplace, stage]
      split_ifs <;> simp
    | storeWerr p | fflush | fclose => simp [CsvSink.produce, hplace, returned] at hret

/-- A producer that waits for a slot looks at the indices again and again. -/
lemma rank_tryWrite (hfull : s.full = true) {p : Bytes} {w w' : TryWrite}
    (hplace : s.producer = .tryWrite p w) (hw : w = .loadTail ∨ ∃ t, w = .loadHead t)
    (hw' : w' = .loadTail ∨ ∃ t, w' = .loadHead t) :
    ({ s with producer := .tryWrite p w' } : CsvSink).rank = s.rank ∧
      ({ s with producer := .tryWrite p w' } : CsvSink).waits = true := by
  have hfull' : ∀ place, full { s with producer := place } = true := fun _ => hfull
  rcases hw with rfl | ⟨t, rfl⟩ <;> rcases hw' with rfl | ⟨t', rfl⟩ <;>
    simp [rank, callsLeft, stage, waits, writerSteps, Producer.call, hplace, hfull, hfull']

/-- A producer that waits leaves the rank as it is. -/
lemma rank_produce_of_waits {k : ℕ} (h : s.Works k) (hwaits : s.waits = true) (io : IoOutcome) :
    (s.produce io).1.rank = s.rank ∧ (s.produce io).1.waits = true := by
  cases hplace : s.producer with
  | tryWrite p w =>
    cases w with
    | loadTail =>
      have hfull : s.full = true := by simpa [waits, hplace] using hwaits
      simp only [CsvSink.produce, hplace, SpscByteRing.tryWrite]
      exact rank_tryWrite hfull hplace (.inl rfl) (.inr ⟨_, rfl⟩)
    | loadHead t =>
      have hfull : s.full = true := by simpa [waits, hplace] using hwaits
      obtain rfl : t = s.ring.tail := by
        rcases h.mode with ⟨all, freed, drained, hsound⟩ | ⟨all, hinline⟩
        · have := hsound.producer
          rwa [hplace] at this
        · have := hinline.producer
          rw [hplace] at this
          exact this.elim
      simp only [CsvSink.produce, hplace, SpscByteRing.tryWrite, if_pos (of_decide_eq_true hfull)]
      exact rank_tryWrite hfull hplace (.inr ⟨_, rfl⟩) (.inl rfl)
    | assign t => simp [waits, hplace] at hwaits
    | storeTail t => simp [waits, hplace] at hwaits
  | loadFlushReq =>
    have hreq : s.flushReq = true := by simpa [waits, hplace] using hwaits
    simp only [CsvSink.produce, hplace, hreq, if_true]
    exact ⟨trivial, hwaits⟩
  | join =>
    have hexit : s.writer ≠ .exited := by simpa [waits, hplace] using hwaits
    simp only [CsvSink.produce, hplace, hexit, if_false]
    exact ⟨trivial, hwaits⟩
  | _ => simp [waits, hplace] at hwaits

/-! ### Steps of the writer -/

lemma consume_stop (s : CsvSink) (io : IoOutcome) :
    (s.consume io).stop = s.stop ∧ ((s.consume io).flushReq = true → s.flushReq = true) := by
  rw [consume]
  split
  case h_1 => split <;> exact ⟨rfl, id⟩
  all_goals first
    | exact ⟨rfl, id⟩
    | exact ⟨rfl, fun h => absurd h (by simp)⟩
    | (split <;> exact ⟨rfl, id⟩)

lemma consume_exited (h : s.writer = .exited) (io : IoOutcome) : s.consume io = s := by
  simp only [consume, h]

lemma Works.consume {k : ℕ} (h : s.Works k) (io : IoOutcome) : (s.consume io).Works k where
  mode := by
    refine h.mode.imp ?_ ?_
    · rintro ⟨all, freed, drained, hsound⟩
      obtain ⟨freed', drained', -, hsound'⟩ := hsound.consume io
      exact ⟨all, freed', drained', hsound'⟩
    · rintro ⟨all, hinline⟩
      exact ⟨all, by rwa [consume_exited hinline.writer]⟩
  stopped hjoin := by
    rw [(consume_stop s io).1]
    exact h.stopped ((todo_consume s io).1 ▸ hjoin)

lemma callsLeft_consume (s : CsvSink) (io : IoOutcome) :
    (s.consume io).callsLeft = s.callsLeft := by
  rw [callsLeft, callsLeft, (todo_consume s io).1, (todo_consume s io).2]

/-- The ring is full as long as nothing is freed. -/
lemma full_iff {k freed drained : ℕ} {all : List Bytes} (h : s.Sound k all freed drained) :
    s.full = true ↔ s.ring.used + 1 = 2 ^ k := by
  have hle := h.holds.window.freed_le
  rw [full, decide_eq_true_iff, h.holds.next_eq, h.holds.window.full_iff, h.holds.used_eq]
  omega

lemma eq_length_of_used {k freed drained : ℕ} {all : List Bytes}
    (h : s.Sound k all freed drained) (hzero : s.ring.used = 0) : freed = all.length := by
  have hle := h.holds.window.freed_le
  rw [h.holds.used_eq] at hzero
  omega

lemma ring_consume {k drained : ℕ} {all : List Bytes} (h : s.Sound k all all.length drained)
    (io : IoOutcome) : (s.consume io).ring = s.ring := by
  cases hplace : s.writer with
  | drain d =>
    cases d with
    | loop h' t count => simp only [consume, hplace, h.drain_empty hplace]
    | _ => simp only [consume, hplace, SpscByteRing.drain]
  | flushEmpty n e | stopEmpty e =>
    simp only [consume, hplace]
    split <;> rfl
  | _ => simp only [consume, hplace]

/-- The writer takes no slot. -/
lemma used_consume {k freed drained : ℕ} {all : List Bytes} (h : s.Sound k all freed drained)
    (io : IoOutcome) : (s.consume io).ring.used ≤ s.ring.used := by
  rcases Nat.eq_zero_or_pos s.ring.used with hzero | hpos
  · obtain rfl := eq_length_of_used h hzero
    rw [ring_consume h io]
  · rcases h.toFree_consume hpos io with hlt | ⟨heq, -⟩
    · exact hlt.le
    · exact heq.le

lemma full_consume {k freed drained : ℕ} {all : List Bytes} (h : s.Sound k all freed drained)
    (io : IoOutcome) :
    (s.consume io).full = true ↔ s.full = true ∧ (s.consume io).ring.used = s.ring.used := by
  have hle := used_consume h io
  obtain ⟨freed', drained', -, h'⟩ := h.consume io
  have hlt := h.holds.window.length_lt
  rw [full_iff h, full_iff h']
  rw [h.holds.used_eq] at hle ⊢
  omega

/-- The steps of the writer do not matter to a producer that does not wait. -/
lemma rank_consume {k : ℕ} (h : s.Works k) (hwaits : s.waits = false) (io : IoOutcome) :
    (s.consume io).rank = s.rank ∧ (s.consume io).waits = false := by
  rcases h.mode with ⟨all, freed, drained, hsound⟩ | ⟨all, hinline⟩
  · have hproducer := (todo_consume s io).1
    have hcalls := callsLeft_consume s io
    have hwaits' : (s.consume io).waits = false ∧ (s.consume io).stage = s.stage := by
      cases hplace : s.producer with
      | tryWrite p w =>
        have hfull : ¬ s.full = true → (s.consume io).full = false := fun hn =>
          Bool.eq_false_iff.mpr fun hf => hn ((full_consume hsound io).mp hf).1
        cases w with
        | loadTail | loadHead t =>
          have hn : s.full = false := by simpa [waits, hplace] using hwaits
          simp [waits, stage, hproducer, hplace, hn, hfull (by simp [hn])]
        | assign t | storeTail t => simp [waits, stage, hproducer, hplace]
      | loadFlushReq =>
        have hreq : s.flushReq = false := by simpa [waits, hplace] using hwaits
        have hreq' : (s.consume io).flushReq = false :=
          Bool.eq_false_iff.mpr fun hf => Bool.eq_false_iff.mp hreq ((consume_stop s io).2 hf)
        simp [waits, stage, hproducer, hplace, hreq, hreq']
      | join =>
        have hexit : s.writer = .exited := by simpa [waits, hplace] using hwaits
        rw [consume_exited hexit]
        exact ⟨hwaits, rfl⟩
      | _ => simp [waits, stage, hproducer, hplace]
    refine ⟨?_, hwaits'.1⟩
    simp only [rank, hcalls, hwaits'.2, hwaits'.1, hwaits, Bool.false_eq_true, if_false]
  · rw [consume_exited hinline.writer]
    exact ⟨rfl, hwaits⟩

lemma rank_consume_of_used {k freed drained : ℕ} {all : List Bytes}
    (h : s.Sound k all freed drained) (hused : 0 < s.ring.used) {io : IoOutcome}
    (hstage : (s.consume io).stage = s.stage) (hwaits : s.waits = true)
    (hwaits' : (s.consume io).waits = true) : (s.consume io).rank < s.rank := by
  refine rank_lt_of_steps (callsLeft_consume s io) hstage hwaits hwaits' ?_
  refine (h.toFree_consume hused io).imp_right fun ⟨heq, hlt⟩ => ⟨heq, ?_⟩
  rw [writerSteps, writerSteps, heq, if_pos hused, if_pos hused]
  exact hlt

/-- The writer helps a producer that waits. -/
lemma rank_consume_of_waits {k : ℕ} (hk : 0 < k) (h : s.Works k) (hwaits : s.waits = true)
    (io : IoOutcome) : (s.consume io).rank < s.rank := by
  obtain ⟨all, freed, drained, hsound⟩ : ∃ all freed drained, s.Sound k all freed drained := by
    refine h.mode.resolve_right ?_
    rintro ⟨all, hinline⟩
    have := hinline.producer
    cases hplace : s.producer <;> simp [hplace, waits, Producer.Inline] at hwaits this
  have hproducer := (todo_consume s io).1
  have hcalls := callsLeft_consume s io
  cases hplace : s.producer with
  | tryWrite p w =>
    cases w with
    | loadTail | loadHead t =>
      have hfull : s.full = true := by simpa [waits, hplace] using hwaits
      have hused := hsound.holds.used_pos_of_full hk (of_decide_eq_true hfull)
      cases hfull' : (s.consume io).full
      · -- a slot has become free
        exact rank_lt_of_stage (.inr ⟨hcalls, by simp [stage, hproducer, hplace, hfull, hfull']⟩)
      · exact rank_consume_of_used hsound hused
          (by simp [stage, hproducer, hplace, hfull, hfull']) hwaits
          (by simp [waits, hproducer, hplace, hfull'])
    | assign t | storeTail t => simp [waits, hplace] at hwaits
  | loadFlushReq =>
    have hreq : s.flushReq = true := by simpa [waits, hplace] using hwaits
    cases hreq' : (s.consume io).flushReq
    · -- the request has been answered
      exact rank_lt_of_stage (.inr ⟨hcalls, by simp [stage, hproducer, hplace, hreq, hreq']⟩)
    have hstage : (s.consume io).stage = s.stage := by
      simp [stage, hproducer, hplace, hreq, hreq']
    have hwaits' : (s.consume io).waits = true := by simp [waits, hproducer, hplace, hreq']
    rcases Nat.eq_zero_or_pos s.ring.used with hzero | hpos
    · obtain rfl := eq_length_of_used hsound hzero
      have hopen := hsound.isOpen (by simp [hplace])
      have hstop : s.stop = false := Bool.eq_false_iff.mpr fun hs => by
        rcases hsound.stopped hs with hc | hc
        · simp [hplace, Producer.Closing] at hc
        · simp [hopen] at hc
      rcases hsound.toClear_consume hreq hstop io with hf | ⟨-, hring, hlt⟩
      · simp [hreq'] at hf
      refine rank_lt_of_steps hcalls hstage hwaits hwaits' (.inr ⟨by rw [hring], ?_⟩)
      simpa [writerSteps, hring, hzero, hproducer, hplace] using hlt
    · exact rank_consume_of_used hsound hpos hstage hwaits hwaits'
  | join =>
    have hexit : s.writer ≠ .exited := by simpa [waits, hplace] using hwaits
    by_cases hexit' : (s.consume io).writer = .exited
    · exact rank_lt_of_stage (.inr ⟨hcalls, by simp [stage, hproducer, hplace, hexit, hexit']⟩)
    have hstage : (s.consume io).stage = s.stage := by
      simp [stage, hproducer, hplace, hexit, hexit']
    have hwaits' : (s.consume io).waits = true := by simp [waits, hproducer, hplace, hexit']
    rcases Nat.eq_zero_or_pos s.ring.used with hzero | hpos
    · obtain rfl := eq_length_of_used hsound hzero
      have hreq : s.flushReq = false := Bool.eq_false_iff.mpr fun hf => by
        have := hsound.requested hf
        simp [hplace] at this
      rcases hsound.toExit_consume hreq (h.stopped hplace) hexit io with hf | ⟨hring, hlt⟩
      · exact absurd hf hexit'
      refine rank_lt_of_steps hcalls hstage hwaits hwaits' (.inr ⟨by rw [hring], ?_⟩)
      simpa [writerSteps, hring, hzero, hproducer, hplace] using hlt
    · exact rank_consume_of_used hsound hpos hstage hwaits hwaits'
  | _ => simp [waits, hplace] at hwaits

end CsvSink

/-! ## Result -/

/-- Both threads go on for ever. -/
def FairSchedule (es : ℕ → Move) : Prop := ∀ thread n, ∃ m, n ≤ m ∧ (es m).thread = thread

/-- **No call waits for ever.** In both modes, with any ring of more than one slot and any device,
all calls of the producer return as long as both threads go on, in whatever order they do. -/
theorem calls_return (async : Bool) {k : ℕ} (hk : 0 < k) (calls : List SinkCall)
    {es : ℕ → Move} (hfair : FairSchedule es) :
    ∃ n, returnedCalls
      (run CsvSink.step (.opened async (2 ^ k) calls) ((List.range n).map es)).2 = calls := by
  have hworks : ∀ n, (states CsvSink.step (.opened async (2 ^ k) calls) es n).Works k := by
    refine states_invariant ⟨?_, fun h => absurd h (by simp [CsvSink.opened])⟩ ?_
    · cases async
      · exact .inr ⟨[], CsvSink.Inline.opened _ calls⟩
      · exact .inl ⟨[], 0, 0, CsvSink.Sound.opened k calls⟩
    · rintro s m h
      cases hthread : m.thread <;> simp only [CsvSink.step, hthread]
      · exact h.produce m.io
      · exact h.consume m.io
  have hleads : Fair CsvSink.step (fun m : Move => some m.thread) (fun _ _ => True)
      (.opened async (2 ^ k) calls) es := fun thread n _ => by
    obtain ⟨m, hm, heq⟩ := hfair thread n
    exact ⟨m, hm, congrArg some heq⟩
  have hend : ∃ n, 0 ≤ n ∧
      (states CsvSink.step (.opened async (2 ^ k) calls) es n).producer = .idle ∧
      (states CsvSink.step (.opened async (2 ^ k) calls) es n).todo = [] := by
    refine hleads.leadsTo (P := fun s => s.Works k)
      (Q := fun s => s.producer = .idle ∧ s.todo = []) (r := CsvSink.rank) (k := CsvSink.helper)
      (fun _ _ _ => trivial) (fun m _ h hdone => .inr ⟨hworks (m + 1), ?_⟩) (hworks 0)
    generalize states CsvSink.step (.opened async (2 ^ k) calls) es m = s at h hdone
    have hdone : s.producer = .idle → s.todo ≠ [] := fun hidle htodo => hdone ⟨hidle, htodo⟩
    cases hthread : (es m).thread with
    | producer =>
      simp only [CsvSink.step, hthread]
      cases hwaits : s.waits
      · exact .inl (CsvSink.rank_produce h hdone hwaits _)
      · obtain ⟨hrank, hwaits'⟩ := CsvSink.rank_produce_of_waits h hwaits (es m).io
        exact .inr ⟨hrank, by simp [CsvSink.helper, hwaits, hwaits'],
          by simp [CsvSink.helper, hwaits]⟩
    | writer =>
      simp only [CsvSink.step, hthread]
      cases hwaits : s.waits
      · obtain ⟨hrank, hwaits'⟩ := CsvSink.rank_consume h hwaits (es m).io
        exact .inr ⟨hrank, by simp [CsvSink.helper, hwaits, hwaits'],
          by simp [CsvSink.helper, hwaits]⟩
      · exact .inl (CsvSink.rank_consume_of_waits hk h hwaits _)
  obtain ⟨n, -, hidle, htodo⟩ := hend
  refine ⟨n, ?_⟩
  have hcalls := CsvSink.calls_run async (2 ^ k) calls ((List.range n).map es)
  rw [← states_eq_run, hidle, htodo] at hcalls
  simpa [Producer.call] using hcalls

/-- The threads take turns. -/
theorem calls_return_in_turn :
    ∃ n, returnedCalls (run CsvSink.step (.opened true (2 ^ 1) [.write [1], .write [2], .close])
      ((List.range n).map fun i =>
        { thread := if i % 2 = 0 then .producer else .writer })).2 =
          [.write [1], .write [2], .close] := by
  refine calls_return true (by decide) _ fun thread n => ?_
  cases thread
  · exact ⟨2 * n, by omega, by simp⟩
  · exact ⟨2 * n + 1, by omega, by simp [Nat.add_mod]⟩

end LobCapture
