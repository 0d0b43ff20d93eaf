/-
# The invariant of a session

A session that is not waiting for a snapshot has a seeded book and an empty buffer.  This is what
makes the rejection of a diff atomic: the event that shows a gap always finds room in the buffer,
so the branch of `buffer_event` that resets the book is not reached on the error path.
-/
import LobCapture.Session.Calls

namespace LobCapture.BookSession

open Lib

variable {s : BookSession} {ev : DepthEvent}

/-- What holds of a session between two calls. -/
structure Inv (s : BookSession) : Prop where
  synced : s.resyncPending = false → s.ob.initialized = true ∧ s.buffer = []
  bounded : s.buffer.length ≤ kMaxBuffer

lemma inv_new (id : Int32) (v : Venue) : (new id v).Inv := ⟨by simp [new], Nat.zero_le _⟩

namespace Inv

lemma synced_iff (h : s.Inv) : s.Synced ↔ s.resyncPending = false :=
  ⟨fun hs => hs.1, fun hp => ⟨hp, (h.synced hp).1⟩⟩

/-- The event that shows a gap becomes the whole buffer, and nothing else changes. -/
lemma bufferEvent_gap (h : s.Inv) (hs : s.Synced) (ev : DepthEvent) :
    { s with resyncPending := true }.bufferEvent ev =
      { s with resyncPending := true, buffer := [ev] } := by
  have hempty : s.buffer = [] := (h.synced hs.1).2
  rw [bufferEvent_of_lt (by simp [hempty, kMaxBuffer])]
  simp [hempty]

lemma bufferEvent (h : s.Inv) (hs : ¬ s.Synced) (ev : DepthEvent) : (s.bufferEvent ev).Inv := by
  have hp : s.resyncPending = true := by simpa [h.synced_iff] using hs
  rcases lt_or_ge s.buffer.length kMaxBuffer with hlt | hge
  · rw [bufferEvent_of_lt hlt]
    exact ⟨by simp [hp], by simpa using Nat.succ_le_of_lt hlt⟩
  · rw [bufferEvent_of_full hge]
    exact ⟨by simp, by simp [kMaxBuffer]⟩

lemma onDiff (h : s.Inv) (ev : DepthEvent) : (s.onDiff ev).2.Inv := by
  rcases s.onDiff_cases ev with ⟨hs, heq⟩ | ⟨hs, -, heq⟩ | ⟨hs, -, -, heq⟩ | ⟨hs, -, -, heq⟩
  · rw [heq]
    exact h.bufferEvent hs ev
  · rw [heq]
    exact h
  · rw [heq]
    exact ⟨fun hp => by simpa using h.synced hp, h.bounded⟩
  · rw [heq, h.bufferEvent_gap hs]
    exact ⟨by simp, by simp [kMaxBuffer]⟩

lemma onSnapshot (h : s.Inv) (bids asks : List Level) (S : UInt64) :
    (s.onSnapshot bids asks S).session.Inv := by
  obtain ⟨b', cbs, rest, hc, heq⟩ := s.onSnapshot_cases bids asks S
  rw [heq]
  constructor
  · intro hp
    exact ⟨hc.initialized, by simpa using hp⟩
  · exact hc.suffix.length_le.trans h.bounded

lemma step (h : s.Inv) (c : Call) : (BookSession.step s c).1.Inv := by
  cases c with
  | onDiff ev => exact h.onDiff ev
  | onSnapshot bids asks S => exact h.onSnapshot bids asks S
  | requestResync => exact ⟨by simp [BookSession.step, requestResync], Nat.zero_le _⟩

end Inv

/-- The invariant holds after every run. -/
lemma inv_run (id : Int32) (v : Venue) (calls : List Call) :
    (run step (new id v) calls).1.Inv :=
  run_invariant (inv_new id v) (fun _ c h => h.step c) calls

/-! ## What `apply_one` gets to see -/

/-- `apply_one`, which writes down the result of the book. -/
def applyOneLogged (x : BookSession × List ApplyResult) (ev : DepthEvent) :
    Outcome × BookSession × List ApplyResult :=
  ((x.1.applyOne ev).1, (x.1.applyOne ev).2, x.2 ++ [(x.1.ob.applyEvent x.1.venue ev).1])

/-- `on_diff` with the results of the book. -/
def onDiffLogged (s : BookSession) (ev : DepthEvent) : (Outcome × BookSession) × List ApplyResult :=
  if s.resyncPending = true ∨ s.ob.initialized = false then ((.buffered, s.bufferEvent ev), [])
  else
    let (o, s', log) := applyOneLogged (s, []) ev
    if o = .resyncNeeded then ((o, s'.bufferEvent ev), log) else ((o, s'), log)

/-- The loop of `on_snapshot` with the results of the book. -/
def replayBufferLogged (S : UInt64) :
    List DepthEvent → BookSession × List ApplyResult → Replayed × List ApplyResult
  | [], x => (⟨{ x.1 with buffer := [] }, 0, []⟩, x.2)
  | ev :: rest, x =>
    if ev.u ≤ S then replayBufferLogged S rest x
    else
      match applyOneLogged x ev with
      | (.resyncNeeded, s', log) => (⟨{ s' with buffer := ev :: rest }, 0, []⟩, log)
      | (.applied, s', log) =>
        let r := replayBufferLogged S rest (s', log)
        (⟨r.1.session, r.1.applied + 1, (ev, s'.ob) :: r.1.callbacks⟩, r.2)
      | (_, x') => replayBufferLogged S rest x'

/-- A call with the results of the book. -/
def stepLogged (s : BookSession) : Call → (BookSession × Reply) × List ApplyResult
  | .onDiff ev =>
    let ((o, s'), log) := s.onDiffLogged ev
    ((s', .outcome o), log)
  | .onSnapshot bids asks S =>
    let (r, log) := replayBufferLogged S s.buffer
      ({ s with ob := s.ob.setSnapshot .stored bids asks S, resyncPending := false }, [])
    ((r.session, .replayed r.applied r.callbacks), log)
  | .requestResync => ((s.requestResync, .done), [])

/-- The results of the book that `apply_one` sees during a call. -/
def bookResults (s : BookSession) (c : Call) : List ApplyResult := (s.stepLogged c).2

lemma fst_onDiffLogged (s : BookSession) (ev : DepthEvent) :
    (s.onDiffLogged ev).1 = s.onDiff ev := by
  rw [onDiffLogged, onDiff, applyOneLogged]
  by_cases hs : s.resyncPending = true ∨ s.ob.initialized = false
  · rw [if_pos hs, if_pos hs]
  · rw [if_neg hs, if_neg hs]
    dsimp only
    split_ifs <;> rfl

lemma fst_replayBufferLogged (S : UInt64) (l : List DepthEvent)
    (x : BookSession × List ApplyResult) :
    (replayBufferLogged S l x).1 = replayBuffer S l x.1 := by
  induction l generalizing x with
  | nil => rfl
  | cons ev l ih =>
    rw [replayBufferLogged, replayBuffer, applyOneLogged]
    split_ifs
    · exact ih x
    · rcases x.1.applyOne ev with ⟨_ | _ | _ | _, s'⟩
      · exact ih _
      · simp only [ih]
      · rfl
      · exact ih _

/-- **The log changes nothing**: without it a call is the call itself. -/
lemma fst_stepLogged (s : BookSession) (c : Call) : (s.stepLogged c).1 = s.step c := by
  cases c with
  | onDiff ev =>
    rw [stepLogged, step, ← fst_onDiffLogged]
  | onSnapshot bids asks S =>
    rw [stepLogged, step, onSnapshot, ← fst_replayBufferLogged S s.buffer (_, [])]
  | requestResync => rfl

lemma applyEvent_ne_needSnapshot {v : Venue} {b : OrderBook} (h : b.initialized = true) :
    (b.applyEvent v ev).1 ≠ .needSnapshot := by
  rw [OrderBook.applyEvent_eq, if_neg (by simp [h])]
  split_ifs <;> simp

/-- `apply_one` on a seeded book, which stays seeded. -/
lemma needSnapshot_notMem_applyOneLogged {x : BookSession × List ApplyResult}
    (hinit : x.1.ob.initialized = true) (hlog : .needSnapshot ∉ x.2) (ev : DepthEvent) :
    (applyOneLogged x ev).2.1.ob.initialized = true ∧
      .needSnapshot ∉ (applyOneLogged x ev).2.2 := by
  constructor
  · rw [applyOneLogged, applyOne_eq hinit]
    split_ifs <;> simpa using hinit
  · rw [applyOneLogged, List.mem_append, List.mem_singleton, not_or]
    exact ⟨hlog, (applyEvent_ne_needSnapshot hinit).symm⟩

lemma needSnapshot_notMem_replayBufferLogged {S : UInt64} {l : List DepthEvent}
    {x : BookSession × List ApplyResult} (hinit : x.1.ob.initialized = true)
    (hlog : .needSnapshot ∉ x.2) : .needSnapshot ∉ (replayBufferLogged S l x).2 := by
  induction l generalizing x with
  | nil => exact hlog
  | cons ev l ih =>
    rw [replayBufferLogged]
    split_ifs with hS
    · exact ih hinit hlog
    · obtain ⟨hinit', hlog'⟩ := needSnapshot_notMem_applyOneLogged hinit hlog ev
      rcases happly : applyOneLogged x ev with ⟨_ | _ | _ | _, x'⟩ <;> rw [happly] at hinit' hlog'
      · exact ih hinit' hlog'
      · exact ih hinit' hlog'
      · exact hlog'
      · exact ih hinit' hlog'

lemma needSnapshot_notMem_bookResults (s : BookSession) (c : Call) :
    .needSnapshot ∉ s.bookResults c := by
  cases c with
  | onDiff ev =>
    simp only [bookResults, stepLogged, onDiffLogged]
    split_ifs with hs ho
    · simp
    all_goals
      rw [← not_synced, not_not] at hs
      exact (needSnapshot_notMem_applyOneLogged hs.2 (by simp) ev).2
  | onSnapshot bids asks S => exact needSnapshot_notMem_replayBufferLogged rfl (by simp)
  | requestResync => simp [bookResults, stepLogged]

/-! ## The invariant and atomic rejection -/

/-- After `on_snapshot` a session is pending exactly when events are left, and the first of them
is a gap for the book. -/
lemma onSnapshot_pending (s : BookSession) (bids asks : List Level) (S : UInt64) :
    let s' := (s.onSnapshot bids asks S).session
    (s'.resyncPending = true ↔ s'.buffer ≠ []) ∧
      ∀ ev rest, s'.buffer = ev :: rest → (s'.ob.applyEvent s'.venue ev).1 = .gap := by
  obtain ⟨b', cbs, rest, hc, heq⟩ := s.onSnapshot_cases bids asks S
  rw [heq]
  constructor
  · simp
  · rintro ev l rfl
    obtain ⟨-, hnew, hb⟩ := hc.front
    have hinit : ¬ b'.initialized = false := by simp [hc.initialized, OrderBook.setSnapshot]
    show (b'.applyEvent s.venue ev).1 = .gap
    rw [OrderBook.applyEvent_eq, if_neg hinit, if_neg (not_le_of_gt hnew), if_neg hb]

/-- **The session invariant**, and what follows from it: a diff that shows a gap changes nothing
but the pending flag and the buffer, a dropped diff changes nothing, and `apply_one` never meets
a book without a snapshot. -/
theorem session_invariant (id : Int32) (v : Venue) (calls : List Call) :
    let s := (run step (new id v) calls).1
    (s.resyncPending = false → s.ob.initialized = true ∧ s.buffer = []) ∧
      s.buffer.length ≤ 65536 ∧
      (∀ bids asks S,
        let s' := (s.onSnapshot bids asks S).session
        (s'.resyncPending = true ↔ s'.buffer ≠ []) ∧
          ∀ ev rest, s'.buffer = ev :: rest → (s'.ob.applyEvent s'.venue ev).1 = .gap) ∧
      (∀ ev, (s.onDiff ev).1 = .resyncNeeded →
        (s.onDiff ev).2 = { s with resyncPending := true, buffer := [ev] }) ∧
      (∀ ev, (s.onDiff ev).1 = .dropped → (s.onDiff ev).2 = s) ∧
      ∀ c, .needSnapshot ∉ s.bookResults c := by
  intro s
  have h : s.Inv := inv_run id v calls
  refine ⟨h.synced, h.bounded, s.onSnapshot_pending, fun ev hev => ?_, fun ev hev => ?_,
    s.needSnapshot_notMem_bookResults⟩
  · rcases s.onDiff_cases ev with ⟨hs, heq⟩ | ⟨hs, -, heq⟩ | ⟨hs, -, -, heq⟩ | ⟨hs, -, -, heq⟩
    · simp [heq] at hev
    · simp [heq] at hev
    · simp [heq] at hev
    · rw [heq, h.bufferEvent_gap hs]
  · rcases s.onDiff_cases ev with ⟨hs, heq⟩ | ⟨hs, -, heq⟩ | ⟨hs, -, -, heq⟩ | ⟨hs, -, -, heq⟩
    · simp [heq] at hev
    · rw [heq]
    · simp [heq] at hev
    · simp [heq] at hev

end LobCapture.BookSession
