/-
# The fate of every diff

A ledger is kept beside the session.  It numbers the diffs in the order in which they are fed,
carries the numbers of those in the buffer along, and writes down what becomes of each of the
others.  The books balance after every run: every number is either settled once or waiting once.
-/
import LobCapture.Session.History

namespace LobCapture.BookSession

open Lib

/-- What became of a diff that is no longer buffered. -/
inductive Fate where
  /-- by `on_diff` or with a callback -/
  | applied
  /-- not newer than the snapshot -/
  | stale (S : UInt64)
  /-- not newer than the book at that moment -/
  | old (lastUpdateId : UInt64)
  /-- discarded by `request_resync` -/
  | resynced
  /-- discarded by a counted overflow of the buffer -/
  | overflowed
  /-- taken from the buffer for no reason -/
  | lost
deriving DecidableEq

/-- The diffs among the calls. -/
def diffs (calls : List Call) : List DepthEvent :=
  calls.filterMap fun
    | .onDiff ev => some ev
    | _ => none

structure Ledger where
  /-- the number of the next diff -/
  next : ℕ := 0
  /-- the buffered diffs with their numbers -/
  waiting : List (ℕ × DepthEvent) := []
  /-- the numbers of the others, with what became of them -/
  log : List (ℕ × Fate) := []

/-- The loop of `on_snapshot` over the numbered buffer: what it settles, and what it leaves. -/
def settle (S : UInt64) :
    List (ℕ × DepthEvent) → BookSession → List (ℕ × Fate) × List (ℕ × DepthEvent)
  | [], _ => ([], [])
  | x :: rest, s =>
    if x.2.u ≤ S then
      let (log, left) := settle S rest s
      ((x.1, .stale S) :: log, left)
    else
      match s.applyOne x.2 with
      | (.resyncNeeded, _) => ([], x :: rest)
      | (.applied, s') =>
        let (log, left) := settle S rest s'
        ((x.1, .applied) :: log, left)
      | (.dropped, s') =>
        let (log, left) := settle S rest s'
        ((x.1, .old s.ob.lastUpdateId) :: log, left)
      | (.buffered, s') =>
        let (log, left) := settle S rest s'
        ((x.1, .lost) :: log, left)

/-- The entry for one call of a session. -/
def Ledger.record (g : Ledger) (s : BookSession) : Call → Ledger
  | .onDiff ev =>
    match s.onDiff ev with
    | (.applied, _) => { g with next := g.next + 1, log := g.log ++ [(g.next, .applied)] }
    | (.dropped, _) =>
      { g with next := g.next + 1, log := g.log ++ [(g.next, .old s.ob.lastUpdateId)] }
    | (_, s') =>
      if s'.overflows = s.overflows then
        { g with next := g.next + 1, waiting := g.waiting ++ [(g.next, ev)] }
      else
        { next := g.next + 1
          waiting := [(g.next, ev)]
          log := g.log ++ g.waiting.map fun x => (x.1, .overflowed) }
  | .onSnapshot bids asks S =>
    let (log, left) := settle S g.waiting
      { s with ob := s.ob.setSnapshot .stored bids asks S, resyncPending := false }
    { g with waiting := left, log := g.log ++ log }
  | .requestResync =>
    { g with waiting := [], log := g.log ++ g.waiting.map fun x => (x.1, .resynced) }

/-- The ledger of a run. -/
def ledger (id : Int32) (v : Venue) (calls : List Call) : Ledger :=
  (run (besides step Ledger.record) (new id v, {}) calls).1.2

/-- The numbers of the applied diffs, in the order in which they were applied. -/
def appliedNumbers (log : List (ℕ × Fate)) : List ℕ :=
  (log.filter (·.2 = .applied)).map Prod.fst

/-- A fate is in order: a diff is only dropped when it is not newer than the id it is compared
with, and no diff is lost. -/
def Fate.Justified (ev : DepthEvent) : Fate → Prop
  | .stale S => ev.u ≤ S
  | .old lastUpdateId => ev.u ≤ lastUpdateId
  | .lost => False
  | _ => True

variable {s : BookSession} {S : UInt64} {w : List (ℕ × DepthEvent)} {log : List (ℕ × Fate)}

lemma appliedNumbers_append (log log' : List (ℕ × Fate)) :
    appliedNumbers (log ++ log') = appliedNumbers log ++ appliedNumbers log' := by
  simp [appliedNumbers]

lemma appliedNumbers_sublist (log : List (ℕ × Fate)) :
    (appliedNumbers log).Sublist (log.map Prod.fst) :=
  List.filter_sublist.map _

/-! ## The loop -/

/-- What a settled part of the buffer looks like: `used` has been taken from it, every diff in
`used` has one entry in `log`, and those in `hit` have been applied. -/
structure Settles (used : List (ℕ × DepthEvent)) (log : List (ℕ × Fate))
    (applied : List DepthEvent) : Prop where
  numbers : log.map Prod.fst = used.map Prod.fst
  justified : ∀ y ∈ log, ∃ x ∈ used, x.1 = y.1 ∧ y.2.Justified x.2
  applied : ∃ hit : List (ℕ × DepthEvent), hit.Sublist used ∧
    appliedNumbers log = hit.map Prod.fst ∧ applied = hit.map Prod.snd

namespace Settles

variable {used : List (ℕ × DepthEvent)} {applied : List DepthEvent}

lemma nil : Settles [] [] [] := ⟨rfl, by simp, [], List.Sublist.refl _, rfl, rfl⟩

lemma drop (h : Settles used log applied) (x : ℕ × DepthEvent) {f : Fate} (hf : f ≠ .applied)
    (hj : f.Justified x.2) : Settles (x :: used) ((x.1, f) :: log) applied := by
  obtain ⟨hit, hsub, hnum, happ⟩ := h.applied
  refine ⟨by simp [h.numbers], ?_, hit, hsub.cons x, by simpa [appliedNumbers, hf] using hnum,
    happ⟩
  rintro y (_ | ⟨_, hy⟩)
  · exact ⟨x, List.mem_cons_self, rfl, hj⟩
  · obtain ⟨z, hz, hzy⟩ := h.justified y hy
    exact ⟨z, List.mem_cons_of_mem _ hz, hzy⟩

lemma apply (h : Settles used log applied) (x : ℕ × DepthEvent) :
    Settles (x :: used) ((x.1, .applied) :: log) (x.2 :: applied) := by
  obtain ⟨hit, hsub, hnum, happ⟩ := h.applied
  refine ⟨by simp [h.numbers], ?_, x :: hit, hsub.cons_cons x, ?_, by simp [happ]⟩
  · rintro y (_ | ⟨_, hy⟩)
    · exact ⟨x, List.mem_cons_self, rfl, trivial⟩
    · obtain ⟨z, hz, hzy⟩ := h.justified y hy
      exact ⟨z, List.mem_cons_of_mem _ hz, hzy⟩
  · rw [List.map_cons, ← hnum]
    simp [appliedNumbers]

lemma discard {f : Fate} (hf : f ≠ .applied) (hj : ∀ ev, f.Justified ev)
    (w : List (ℕ × DepthEvent)) : Settles w (w.map fun x => (x.1, f)) [] := by
  induction w with
  | nil => exact nil
  | cons x w ih => exact ih.drop x hf (hj x.2)

end Settles

/-- The numbered loop does what the loop of `on_snapshot` does. -/
lemma settle_spec (hinit : s.ob.initialized = true) (w : List (ℕ × DepthEvent)) :
    ∃ used, w = used ++ (settle S w s).2 ∧
      (settle S w s).2.map Prod.snd = (replayBuffer S (w.map Prod.snd) s).session.buffer ∧
      Settles used (settle S w s).1
        ((replayBuffer S (w.map Prod.snd) s).callbacks.map Prod.fst) := by
  induction w generalizing s with
  | nil => exact ⟨[], rfl, rfl, Settles.nil⟩
  | cons x w ih =>
    rw [List.map_cons, replayBuffer, settle]
    -- the cases of the loop: stale, contained in the book, applied, and a gap
    by_cases hS : x.2.u ≤ S
    · obtain ⟨used, hw, hbuf, hset⟩ := ih hinit
      simp only [hS, if_true]
      exact ⟨x :: used, congrArg (x :: ·) hw, hbuf, hset.drop x (by simp) hS⟩
    simp only [hS, if_false, applyOne_eq hinit]
    by_cases hold : x.2.u ≤ s.ob.lastUpdateId
    · obtain ⟨used, hw, hbuf, hset⟩ := ih hinit
      simp only [hold, if_true]
      exact ⟨x :: used, congrArg (x :: ·) hw, hbuf, hset.drop x (by simp) hold⟩
    by_cases hb : s.ob.Bridges s.venue x.2
    · obtain ⟨used, hw, hbuf, hset⟩ :=
        @ih { s with ob := s.ob.advance x.2 } (by simpa using hinit)
      simp only [hold, hb, if_true, if_false]
      exact ⟨x :: used, congrArg (x :: ·) hw, hbuf, hset.apply x⟩
    · simp only [hold, hb, if_false]
      exact ⟨[], rfl, rfl, Settles.nil⟩

/-! ## The books balance -/

/-- The ledger after the diffs `fed`, of which `applied` have been applied and `buffer` are
buffered. -/
structure Balanced (fed applied buffer : List DepthEvent) (g : Ledger) : Prop where
  next : g.next = fed.length
  numbers : (g.log.map Prod.fst ++ g.waiting.map Prod.fst).Perm (List.range fed.length)
  buffer : g.waiting.map Prod.snd = buffer
  waiting : ∀ x ∈ g.waiting, fed[x.1]? = some x.2
  order : (appliedNumbers g.log ++ g.waiting.map Prod.fst).Pairwise (· < ·)
  applied : (appliedNumbers g.log).map (fed[·]?) = applied.map some
  justified : ∀ y ∈ g.log, ∃ ev, fed[y.1]? = some ev ∧ y.2.Justified ev

namespace Balanced

variable {fed applied applied' buffer : List DepthEvent} {g : Ledger} {ev : DepthEvent}

lemma nil : Balanced [] [] [] {} :=
  ⟨rfl, List.Perm.nil, rfl, by simp, by simp [appliedNumbers], rfl, by simp⟩

lemma getElem?_concat {i : ℕ} {e : DepthEvent} (h : fed[i]? = some e) (ev : DepthEvent) :
    (fed ++ [ev])[i]? = some e := by
  rw [List.getElem?_append_left (List.getElem?_eq_some_iff.mp h).1, h]

/-- A new diff is numbered and buffered. -/
lemma buffer_diff (h : Balanced fed applied buffer g) (ev : DepthEvent) :
    Balanced (fed ++ [ev]) applied (buffer ++ [ev])
      { g with next := g.next + 1, waiting := g.waiting ++ [(g.next, ev)] } where
  next := by simp [h.next]
  numbers := by
    rw [List.map_append, ← List.append_assoc, List.length_append, List.length_singleton,
      List.range_succ, List.map_singleton, h.next]
    exact h.numbers.append_right _
  buffer := by simp [h.buffer]
  waiting := by
    intro x hx
    rcases List.mem_append.mp hx with hx | hx
    · exact getElem?_concat (h.waiting x hx) ev
    · rw [List.mem_singleton.mp hx, h.next]
      simp
  order := by
    rw [List.map_append, ← List.append_assoc, List.pairwise_append]
    refine ⟨h.order, List.pairwise_singleton _ _, ?_⟩
    intro i hi j hj
    have hmem : i ∈ g.log.map Prod.fst ++ g.waiting.map Prod.fst :=
      ((appliedNumbers_sublist g.log).append_right _).subset hi
    rw [List.map_singleton, List.mem_singleton] at hj
    rw [hj, h.next]
    exact List.mem_range.mp (h.numbers.mem_iff.mp hmem)
  applied := by
    rw [← h.applied]
    -- the numbers of applied diffs are numbers of diffs that were fed before
    refine List.map_congr_left fun i hi => ?_
    have hmem : fed[i]? ∈ applied.map some := h.applied ▸ List.mem_map_of_mem hi
    obtain ⟨e, -, he⟩ := List.mem_map.mp hmem
    rw [← he]
    exact getElem?_concat he.symm ev
  justified := by
    intro y hy
    obtain ⟨e, he, hj⟩ := h.justified y hy
    exact ⟨e, getElem?_concat he ev, hj⟩

lemma settles {used left : List (ℕ × DepthEvent)} (h : Balanced fed applied buffer g)
    (hw : g.waiting = used ++ left) (hset : Settles used log applied') :
    Balanced fed (applied ++ applied') (left.map Prod.snd)
      { g with waiting := left, log := g.log ++ log } where
  next := h.next
  numbers := by
    have hnum := h.numbers
    rwa [hw, List.map_append, ← hset.numbers, ← List.append_assoc, ← List.map_append] at hnum
  buffer := rfl
  waiting x hx := h.waiting x (hw ▸ List.mem_append_right _ hx)
  order := by
    obtain ⟨hit, hsub, hnum, -⟩ := hset.applied
    refine h.order.sublist ?_
    rw [appliedNumbers_append, hnum, hw, List.map_append, List.append_assoc]
    exact ((hsub.map _).append_right _).append_left _
  applied := by
    obtain ⟨hit, hsub, hnum, rfl⟩ := hset.applied
    rw [appliedNumbers_append, List.map_append, List.map_append, h.applied, hnum, List.map_map,
      List.map_map]
    refine congrArg (_ ++ ·) (List.map_congr_left fun x hx => ?_)
    exact h.waiting x (hw ▸ List.mem_append_left _ (hsub.subset hx))
  justified := by
    intro y hy
    rcases List.mem_append.mp hy with hy | hy
    · exact h.justified y hy
    · obtain ⟨x, hx, hxy, hj⟩ := hset.justified y hy
      exact ⟨x.2, hxy ▸ h.waiting x (hw ▸ List.mem_append_left _ hx), hj⟩

/-- Everything that is buffered is discarded. -/
lemma discard {f : Fate} (h : Balanced fed applied buffer g) (hf : f ≠ .applied)
    (hj : ∀ ev, f.Justified ev) :
    Balanced fed applied []
      { g with waiting := [], log := g.log ++ g.waiting.map fun x => (x.1, f) } := by
  have hset := h.settles (List.append_nil _).symm (Settles.discard hf hj g.waiting)
  rwa [List.append_nil] at hset

/-- A new diff is settled at once, while the buffer is empty. -/
lemma settle_diff (h : Balanced fed applied [] g) (ev : DepthEvent) {f : Fate}
    (hset : Settles [(g.next, ev)] [(g.next, f)] applied') :
    Balanced (fed ++ [ev]) (applied ++ applied') []
      { g with next := g.next + 1, log := g.log ++ [(g.next, f)] } := by
  have hw : g.waiting = [] := List.map_eq_nil_iff.mp h.buffer
  have hwaiting : g.waiting ++ [(g.next, ev)] = [(g.next, ev)] ++ [] := by simp [hw]
  simpa [hw] using (h.buffer_diff ev).settles hwaiting hset

lemma record (h : Balanced fed applied s.buffer g) (hI : s.Inv) (c : Call) :
    Balanced (fed ++ diffs [c]) (applied ++ appliedIn (c, (step s c).2)) (step s c).1.buffer
      (g.record s c) := by
  cases c with
  | onDiff ev =>
    show Balanced (fed ++ [ev]) (applied ++ appliedIn (.onDiff ev, .outcome (s.onDiff ev).1))
      (s.onDiff ev).2.buffer (g.record s (.onDiff ev))
    -- buffered, perhaps after the buffer has overflowed; dropped; applied; buffered at a gap
    rcases s.onDiff_cases ev with ⟨hs, heq⟩ | ⟨hs, hold, heq⟩ | ⟨hs, -, -, heq⟩ | ⟨hs, -, -, heq⟩
    · simp only [Ledger.record, heq, overflows_bufferEvent, appliedIn, List.append_nil]
      split_ifs with hlt
      · rw [bufferEvent_of_lt hlt]
        exact h.buffer_diff ev
      · rw [bufferEvent_of_full (le_of_not_gt hlt)]
        exact (h.discard (f := .overflowed) (by simp) fun _ => trivial).buffer_diff ev
    · rw [(hI.synced hs.1).2] at h
      simp only [Ledger.record, heq, (hI.synced hs.1).2]
      exact h.settle_diff ev (Settles.nil.drop (g.next, ev) (by simp) hold)
    · rw [(hI.synced hs.1).2] at h
      simp only [Ledger.record, heq, (hI.synced hs.1).2]
      exact h.settle_diff ev (Settles.nil.apply (g.next, ev))
    · rw [(hI.synced hs.1).2] at h
      simp only [Ledger.record, heq, hI.bufferEvent_gap hs, appliedIn, List.append_nil, if_true]
      exact h.buffer_diff ev
  | onSnapshot bids asks S =>
    obtain ⟨used, hw, hbuf, hset⟩ := @settle_spec
      { s with ob := s.ob.setSnapshot .stored bids asks S, resyncPending := false } S rfl g.waiting
    rw [h.buffer] at hbuf hset
    have hbal := h.settles hw hset
    rw [hbuf] at hbal
    rw [show diffs [.onSnapshot bids asks S] = [] from rfl, List.append_nil]
    exact hbal
  | requestResync =>
    rw [show diffs [.requestResync] = [] from rfl, List.append_nil,
      show appliedIn (.requestResync, (step s .requestResync).2) = [] from rfl, List.append_nil]
    exact h.discard (f := .resynced) (by simp) fun _ => trivial

end Balanced

/-- The books are balanced after every run. -/
lemma balanced_run (id : Int32) (v : Venue) (calls : List Call) :
    Balanced (diffs calls) (appliedEvents (run step (new id v) calls).2)
      (run step (new id v) calls).1.buffer (ledger id v calls) := by
  have hrun := @run_induction _ _ _ (besides step Ledger.record)
    (fun h (x : BookSession × Ledger) =>
      x.1.Inv ∧ Balanced (diffs (h.map Prod.fst)) (appliedEvents h) x.1.buffer x.2)
    (new id v, {}) ⟨inv_new id v, Balanced.nil⟩ ?_ calls
  · obtain ⟨hstate, hhist⟩ := run_besides Ledger.record (new id v) {} calls
    have hbal := hrun.2
    rwa [hstate, hhist, run_inputs] at hbal
  rintro h ⟨t, g⟩ c ⟨hI, hB⟩
  refine ⟨hI.step c, ?_⟩
  have hdiffs : diffs ((h ++ [(c, (step t c).2)]).map Prod.fst) =
      diffs (h.map Prod.fst) ++ diffs [c] := by
    rw [List.map_append]
    exact List.filterMap_append
  show Balanced (diffs ((h ++ [(c, (step t c).2)]).map Prod.fst))
    (appliedEvents (h ++ [(c, (step t c).2)])) (step t c).1.buffer (g.record t c)
  rw [hdiffs, appliedEvents_concat]
  exact hB.record hI c

/-- The number that a call of `on_snapshot` returns. -/
def Reply.returned : Reply → ℕ
  | .replayed n _ => n
  | _ => 0

/-- The calls of `on_applied`. -/
def Reply.callbacks : Reply → List (DepthEvent × OrderBook)
  | .replayed _ cbs => cbs
  | _ => []

/-- The sum of the numbers that `on_snapshot` has returned. -/
def totalReturned (h : List (Call × Reply)) : ℕ := h.foldl (fun n x => n + x.2.returned) 0

lemma returned_run (id : Int32) (v : Venue) (calls : List Call) :
    let h := (run step (new id v) calls).2
    totalReturned h = (h.flatMap fun x => x.2.callbacks).length := by
  refine run_induction (P := fun (h : List (Call × Reply)) (_ : BookSession) =>
    totalReturned h = (h.flatMap fun x => x.2.callbacks).length) rfl ?_ calls
  intro h t c hP
  have hlast : (step t c).2.returned = (step t c).2.callbacks.length := by
    cases c with
    | onDiff ev => rfl
    | onSnapshot bids asks S =>
      obtain ⟨b', cbs, rest, -, heq⟩ := t.onSnapshot_cases bids asks S
      simp only [step, heq, Reply.returned, Reply.callbacks]
    | requestResync => rfl
  rw [totalReturned, List.foldl_append, ← totalReturned, hP]
  simp [hlast]

/-- **No diff is lost or applied twice.** Every diff that was fed is settled once or still in the
buffer; the applied ones are those that `on_diff` or a callback reported, in the order in which
they were fed; and `on_snapshot` returns the number of its callbacks. -/
theorem every_diff_has_one_fate (id : Int32) (v : Venue) (calls : List Call) :
    let r := run step (new id v) calls
    let g := ledger id v calls
    let fed := diffs calls
    (g.log.map Prod.fst ++ g.waiting.map Prod.fst).Perm (List.range fed.length) ∧
      g.waiting.map Prod.snd = r.1.buffer ∧ (∀ x ∈ g.waiting, fed[x.1]? = some x.2) ∧
      (∀ y ∈ g.log, ∃ ev, fed[y.1]? = some ev ∧ y.2.Justified ev) ∧
      (appliedNumbers g.log).Pairwise (· < ·) ∧
      (appliedNumbers g.log).map (fed[·]?) = (appliedEvents r.2).map some ∧
      totalReturned r.2 = (r.2.flatMap fun x => x.2.callbacks).length := by
  intro r g fed
  have h : Balanced fed (appliedEvents r.2) r.1.buffer g := balanced_run id v calls
  exact ⟨h.numbers, h.buffer, h.waiting, h.justified, (List.pairwise_append.mp h.order).1,
    h.applied, returned_run id v calls⟩

end LobCapture.BookSession
