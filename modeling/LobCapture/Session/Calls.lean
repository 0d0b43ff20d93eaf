/-
# What the calls of a session do

One lemma for `on_diff` and one for `on_snapshot`, which say everything these calls can do to a
session.  The loop over the buffer is described by a derivation (`Consumes`) with one rule for
each way in which the loop handles the event at the front; facts about the loop are inductions
over it.
-/
import LobCapture.Lib.Run
import LobCapture.Session.BookSession

namespace LobCapture.BookSession

open Lib

variable {s : BookSession} {v : Venue} {S : UInt64} {ev : DepthEvent} {l rest : List DepthEvent}
  {b b' : OrderBook} {cbs : List (DepthEvent × OrderBook)}

/-! ## The diff call -/

/-- The session applies diffs as they arrive. -/
def Synced (s : BookSession) : Prop := s.resyncPending = false ∧ s.ob.initialized = true

lemma not_synced : ¬ s.Synced ↔ s.resyncPending = true ∨ s.ob.initialized = false := by
  rw [Synced, not_and_or, Bool.not_eq_false, Bool.not_eq_true]

/-- The test of the drivers before they write a row. -/
lemma not_or_of_synced (h : s.Synced) : ¬ (s.initialized = false ∨ s.resyncPending = true) := by
  rintro (hinit | hp)
  · exact absurd h.2 (by simpa [initialized] using hinit)
  · exact absurd h.1 (by simp [hp])

@[simp] lemma venue_bufferEvent : (s.bufferEvent ev).venue = s.venue := by
  unfold bufferEvent
  split <;> rfl

lemma bufferEvent_of_lt (h : s.buffer.length < kMaxBuffer) :
    s.bufferEvent ev = { s with buffer := s.buffer ++ [ev] } := by
  simp only [bufferEvent, ge_iff_le, not_le_of_gt h, if_false]

lemma bufferEvent_of_full (h : kMaxBuffer ≤ s.buffer.length) :
    s.bufferEvent ev =
      { s with
        overflows := s.overflows + 1
        buffer := [ev]
        resyncPending := true
        ob := s.ob.reset } := by
  simp only [bufferEvent, ge_iff_le, h, if_true, List.nil_append]

/-- An event that is buffered without an overflow leaves the overflow count as it is, and the
other way around. -/
lemma overflows_bufferEvent :
    (s.bufferEvent ev).overflows = s.overflows ↔ s.buffer.length < kMaxBuffer := by
  rcases lt_or_ge s.buffer.length kMaxBuffer with h | h
  · rw [bufferEvent_of_lt h]
    exact iff_of_true rfl h
  · rw [bufferEvent_of_full h]
    refine iff_of_false (fun heq => ?_) (not_lt_of_ge h)
    have := congrArg UInt64.toNat heq
    have hlt := s.overflows.toNat_lt
    simp only [UInt64.toNat_add, UInt64.toNat_one] at this
    omega

/-- What `apply_one` does to a book that has been seeded. -/
lemma applyOne_eq (hinit : s.ob.initialized = true) (ev : DepthEvent) :
    s.applyOne ev =
      if ev.u ≤ s.ob.lastUpdateId then (.dropped, s)
      else if s.ob.Bridges s.venue ev then (.applied, { s with ob := s.ob.advance ev })
      else (.resyncNeeded, { s with resyncPending := true }) := by
  have hne : ¬ s.ob.initialized = false := by simp [hinit]
  rw [applyOne, OrderBook.applyEvent_eq, if_neg hne]
  split_ifs <;> rfl

/-- **What `on_diff` does.** -/
lemma onDiff_cases (s : BookSession) (ev : DepthEvent) :
    (¬ s.Synced ∧ s.onDiff ev = (.buffered, s.bufferEvent ev)) ∨
    (s.Synced ∧ ev.u ≤ s.ob.lastUpdateId ∧ s.onDiff ev = (.dropped, s)) ∨
    (s.Synced ∧ s.ob.lastUpdateId < ev.u ∧ s.ob.Bridges s.venue ev ∧
      s.onDiff ev = (.applied, { s with ob := s.ob.advance ev })) ∨
    (s.Synced ∧ s.ob.lastUpdateId < ev.u ∧ ¬ s.ob.Bridges s.venue ev ∧
      s.onDiff ev = (.resyncNeeded, { s with resyncPending := true }.bufferEvent ev)) := by
  by_cases hs : s.Synced
  · have hbranch : ¬ (s.resyncPending = true ∨ s.ob.initialized = false) :=
      fun h => not_synced.mpr h hs
    rw [onDiff, if_neg hbranch, applyOne_eq hs.2]
    by_cases hold : ev.u ≤ s.ob.lastUpdateId
    · simp [hs, hold]
    by_cases hb : s.ob.Bridges s.venue ev
    · simp [hs, hold, hb, lt_of_not_ge hold]
    · simp [hs, hold, hb, lt_of_not_ge hold]
  · refine .inl ⟨hs, ?_⟩
    rw [onDiff, if_pos (not_synced.mp hs)]

/-- When `on_diff` applies an event. -/
lemma onDiff_applied :
    (s.onDiff ev).1 = .applied ↔
      s.Synced ∧ s.ob.lastUpdateId < ev.u ∧ s.ob.Bridges s.venue ev := by
  rcases s.onDiff_cases ev with ⟨hs, heq⟩ | ⟨hs, hold, heq⟩ | ⟨hs, hnew, hb, heq⟩ |
    ⟨hs, hnew, hb, heq⟩
  · simp [heq, hs]
  · simp [heq, not_lt_of_ge hold]
  · simp [heq, hs, hnew, hb]
  · simp [heq, hb]

/-- An event that has been applied leaves the session ready. -/
lemma synced_onDiff (h : (s.onDiff ev).1 = .applied) : (s.onDiff ev).2.Synced := by
  rcases s.onDiff_cases ev with ⟨-, heq⟩ | ⟨-, -, heq⟩ | ⟨hs, -, -, heq⟩ | ⟨-, -, -, heq⟩
  · simp [heq] at h
  · simp [heq] at h
  · rw [heq]
    exact ⟨hs.1, (OrderBook.initialized_advance ev s.ob).trans hs.2⟩
  · simp [heq] at h

/-! ## The snapshot call -/

/-- `Consumes v S b l b' cbs rest`: the loop of `on_snapshot` takes the book from `b` to `b'`
with the callbacks `cbs` and leaves `rest` of the buffer `l`. -/
inductive Consumes (v : Venue) (S : UInt64) :
    OrderBook → List DepthEvent → OrderBook → List (DepthEvent × OrderBook) →
      List DepthEvent → Prop
  | done (b : OrderBook) : Consumes v S b [] b [] []
  | skip {b b' : OrderBook} {ev : DepthEvent} {l rest : List DepthEvent}
      {cbs : List (DepthEvent × OrderBook)} (hold : ev.u ≤ S ∨ ev.u ≤ b.lastUpdateId)
      (h : Consumes v S b l b' cbs rest) : Consumes v S b (ev :: l) b' cbs rest
  | apply {b b' : OrderBook} {ev : DepthEvent} {l rest : List DepthEvent}
      {cbs : List (DepthEvent × OrderBook)} (hS : S < ev.u) (hnew : b.lastUpdateId < ev.u)
      (hb : b.Bridges v ev) (h : Consumes v S (b.advance ev) l b' cbs rest) :
      Consumes v S b (ev :: l) b' ((ev, b.advance ev) :: cbs) rest
  | gap {b : OrderBook} {ev : DepthEvent} {l : List DepthEvent} (hS : S < ev.u)
      (hnew : b.lastUpdateId < ev.u) (hb : ¬ b.Bridges v ev) :
      Consumes v S b (ev :: l) b [] (ev :: l)

/-- The loop goes through the buffer by these rules, and the session is pending again exactly
when it stopped early. -/
lemma replayBuffer_consumes (hinit : s.ob.initialized = true) (hp : s.resyncPending = false)
    (l : List DepthEvent) :
    ∃ b' cbs rest, Consumes s.venue S s.ob l b' cbs rest ∧
      replayBuffer S l s =
        ⟨{ s with ob := b', resyncPending := !rest.isEmpty, buffer := rest }, cbs.length, cbs⟩ := by
  induction l generalizing s with
  | nil => exact ⟨_, _, _, .done _, by simp [replayBuffer, hp]⟩
  | cons ev l ih =>
    rw [replayBuffer]
    -- stale events are skipped by the loop, and those that the book contains by `apply_one`
    by_cases hS : ev.u ≤ S
    · obtain ⟨b', cbs, rest, hc, heq⟩ := ih hinit hp
      exact ⟨b', cbs, rest, .skip (.inl hS) hc, by rw [if_pos hS, heq]⟩
    rw [if_neg hS, applyOne_eq hinit]
    by_cases hold : ev.u ≤ s.ob.lastUpdateId
    · obtain ⟨b', cbs, rest, hc, heq⟩ := ih hinit hp
      exact ⟨b', cbs, rest, .skip (.inr hold) hc, by rw [if_pos hold]; exact heq⟩
    rw [if_neg hold]
    by_cases hb : s.ob.Bridges s.venue ev
    · obtain ⟨b', cbs, rest, hc, heq⟩ :=
        @ih { s with ob := s.ob.advance ev } (by simpa using hinit) hp
      refine ⟨b', (ev, s.ob.advance ev) :: cbs, rest,
        .apply (lt_of_not_ge hS) (lt_of_not_ge hold) hb hc, ?_⟩
      rw [if_pos hb]
      simp only [heq, List.length_cons]
    · -- a gap ends the loop and leaves the rest in the buffer
      exact ⟨s.ob, [], ev :: l, .gap (lt_of_not_ge hS) (lt_of_not_ge hold) hb,
        by rw [if_neg hb]; rfl⟩

/-- **What `on_snapshot` does.** -/
lemma onSnapshot_cases (s : BookSession) (bids asks : List Level) (S : UInt64) :
    ∃ b' cbs rest,
      Consumes s.venue S (s.ob.setSnapshot .stored bids asks S) s.buffer b' cbs rest ∧
      s.onSnapshot bids asks S =
        ⟨{ s with ob := b', resyncPending := !rest.isEmpty, buffer := rest }, cbs.length, cbs⟩ :=
  replayBuffer_consumes (s := { s with
    ob := s.ob.setSnapshot .stored bids asks S, resyncPending := false }) rfl rfl s.buffer

namespace Consumes

lemma initialized (h : Consumes v S b l b' cbs rest) : b'.initialized = b.initialized := by
  induction h with
  | done b => rfl
  | skip hold h ih => exact ih
  | apply hS hnew hb h ih => simpa using ih
  | gap hS hnew hb => rfl

/-- What is left is a suffix of the buffer. -/
lemma suffix (h : Consumes v S b l b' cbs rest) : rest <:+ l := by
  induction h with
  | done b => exact List.suffix_rfl
  | skip hold h ih => exact ih.trans (List.suffix_cons _ _)
  | apply hS hnew hb h ih => exact ih.trans (List.suffix_cons _ _)
  | gap hS hnew hb => exact List.suffix_rfl

/-- The loop stops early only on a gap. -/
lemma front (h : Consumes v S b l b' cbs (ev :: rest)) :
    S < ev.u ∧ b'.lastUpdateId < ev.u ∧ ¬ b'.Bridges v ev := by
  generalize hr : ev :: rest = r at h
  induction h with
  | done b => cases hr
  | skip hold h ih => exact ih hr
  | apply hS hnew hb h ih => exact ih hr
  | gap hS hnew hb =>
    cases hr
    exact ⟨hS, hnew, hb⟩

/-- The rule for what holds of the book throughout the loop, and so at every callback. -/
lemma invariant {P : OrderBook → Prop} (h : Consumes v S b l b' cbs rest)
    (next : ∀ b, ∀ ev ∈ l, b.lastUpdateId < ev.u → b.Bridges v ev → P b → P (b.advance ev))
    (hP : P b) : P b' ∧ ∀ x ∈ cbs, P x.2 := by
  induction h with
  | done b => exact ⟨hP, by simp⟩
  | skip hold h ih => exact ih (fun b ev hev => next b ev (List.mem_cons_of_mem _ hev)) hP
  | @apply b b' ev l rest cbs hS hnew hb h ih =>
    have hnext : P (b.advance ev) := next b ev List.mem_cons_self hnew hb hP
    have hrest := ih (fun b ev hev => next b ev (List.mem_cons_of_mem _ hev)) hnext
    refine ⟨hrest.1, ?_⟩
    rintro x (_ | ⟨_, hx⟩)
    · exact hnext
    · exact hrest.2 x hx
  | gap hS hnew hb => exact ⟨hP, by simp⟩

end Consumes

/-- The id of the symbol stays as it is. -/
lemma id_step (s : BookSession) (c : Call) : (step s c).1.ob.id = s.ob.id := by
  have hbuffer : ∀ (s : BookSession) (ev : DepthEvent), (s.bufferEvent ev).ob.id = s.ob.id := by
    intro s ev
    unfold bufferEvent
    split <;> rfl
  cases c with
  | onDiff ev =>
    show (s.onDiff ev).2.ob.id = s.ob.id
    rcases s.onDiff_cases ev with ⟨-, heq⟩ | ⟨-, -, heq⟩ | ⟨-, -, -, heq⟩ | ⟨-, -, -, heq⟩
    · rw [heq]
      exact hbuffer _ _
    · rw [heq]
    · rw [heq]
      exact OrderBook.id_advance ev s.ob
    · rw [heq]
      exact hbuffer _ _
  | onSnapshot bids asks S =>
    obtain ⟨b', cbs, rest, hc, heq⟩ := s.onSnapshot_cases bids asks S
    simp only [step, heq]
    refine (hc.invariant (P := fun b => b.id = s.ob.id) (fun b ev _ _ _ hb => ?_) rfl).1
    rw [OrderBook.id_advance, hb]
  | requestResync => rfl

end LobCapture.BookSession
