/-
# The applied events of a run

What the history of a session says about the events that have been applied: since the last
snapshot they lead from its id to the id of the book without a hole, and over a run that only
takes snapshots when it needs one their ids never go back.
-/
import LobCapture.Session.Invariant
import Mathlib.Data.List.Chain

namespace LobCapture.BookSession

open Lib

variable {s : BookSession} {v : Venue} {S : UInt64} {ev : DepthEvent} {es l rest : List DepthEvent}
  {b b' : OrderBook} {cbs : List (DepthEvent × OrderBook)}

/-- The events that a call has applied, by `on_diff` itself or through the callback. -/
def appliedIn : Call × Reply → List DepthEvent
  | (.onDiff ev, .outcome .applied) => [ev]
  | (_, .replayed _ cbs) => cbs.map Prod.fst
  | _ => []

/-- All events that have been applied, in the order in which they were. -/
def appliedEvents (h : List (Call × Reply)) : List DepthEvent := h.flatMap appliedIn

/-- Take a call into the account of what happened since the last snapshot. -/
def note : Option (UInt64 × List DepthEvent) → Call × Reply → Option (UInt64 × List DepthEvent)
  | _, (.onSnapshot bids asks S, r) => some (S, appliedIn (.onSnapshot bids asks S, r))
  | since, x => since.map fun (S, es) => (S, es ++ appliedIn x)

/-- The id of the last snapshot and the events applied since then. -/
def sinceSnapshot (h : List (Call × Reply)) : Option (UInt64 × List DepthEvent) :=
  h.foldl note none

lemma appliedEvents_concat (h : List (Call × Reply)) (x : Call × Reply) :
    appliedEvents (h ++ [x]) = appliedEvents h ++ appliedIn x := by
  simp [appliedEvents]

lemma sinceSnapshot_concat (h : List (Call × Reply)) (x : Call × Reply) :
    sinceSnapshot (h ++ [x]) = note (sinceSnapshot h) x := by
  simp [sinceSnapshot]

lemma increasing_append {es es' : List DepthEvent} (h : (es.map DepthEvent.u).Pairwise (· < ·))
    (h' : (es'.map DepthEvent.u).Pairwise (· < ·)) (hlt : ∀ e ∈ es, ∀ e' ∈ es', e.u < e'.u) :
    ((es ++ es').map DepthEvent.u).Pairwise (· < ·) := by
  rw [List.map_append, List.pairwise_append]
  refine ⟨h, h', ?_⟩
  intro x hx y hy
  obtain ⟨e, he, rfl⟩ := List.mem_map.mp hx
  obtain ⟨e', he', rfl⟩ := List.mem_map.mp hy
  exact hlt e he e' he'

/-! ## No hole since the last snapshot -/

/-- The events `es` lead from the snapshot id `S` to the book `b`. -/
structure Unbroken (v : Venue) (S : UInt64) (es : List DepthEvent) (b : OrderBook) : Prop where
  last : b.lastUpdateId = (es.getLast?.map DepthEvent.u).getD S
  started : b.started = !es.isEmpty
  le_last : S ≤ b.lastUpdateId ∧ ∀ e ∈ es, e.u ≤ b.lastUpdateId
  increasing : (es.map DepthEvent.u).Pairwise (· < ·)
  above : ∀ e ∈ es, S < e.u
  covered : v = .spot → ∀ i, S < i → i ≤ b.lastUpdateId → ∃ e ∈ es, e.U ≤ i ∧ i ≤ e.u
  first : v = .usdm → ∀ e ∈ es.head?, e.U ≤ S
  chained : v = .usdm → es.IsChain fun e e' => e'.pu = e.u

namespace Unbroken

lemma seeded (bids asks : List Level) (S : UInt64) (b : OrderBook) :
    Unbroken v S [] (b.setSnapshot .stored bids asks S) where
  last := rfl
  started := rfl
  le_last := ⟨le_rfl, by simp⟩
  increasing := .nil
  above := by simp
  covered _ i hi hle := absurd hle (not_le_of_gt hi)
  first := by simp
  chained _ := .nil

lemma advance (h : Unbroken v S es b) (hnew : b.lastUpdateId < ev.u) (hb : b.Bridges v ev) :
    Unbroken v S (es ++ [ev]) (b.advance ev) where
  last := by simp
  started := by simp
  le_last := by
    refine ⟨h.le_last.1.trans hnew.le, ?_⟩
    intro e he
    rcases List.mem_append.mp he with he | he
    · exact (h.le_last.2 e he).trans hnew.le
    · rw [List.mem_singleton.mp he, OrderBook.lastUpdateId_advance]
  increasing := by
    refine increasing_append h.increasing (List.pairwise_singleton _ _) ?_
    intro e he e' he'
    rw [List.mem_singleton.mp he']
    exact lt_of_le_of_lt (h.le_last.2 e he) hnew
  above := by
    intro e he
    rcases List.mem_append.mp he with he | he
    · exact h.above e he
    · rw [List.mem_singleton.mp he]
      exact lt_of_le_of_lt h.le_last.1 hnew
  covered := by
    rintro rfl i hi hle
    rcases le_or_gt i b.lastUpdateId with hlast | hlast
    · obtain ⟨e, he, hcov⟩ := h.covered rfl i hi hlast
      exact ⟨e, List.mem_append_left _ he, hcov⟩
    · -- the new event starts at or before the id after the book
      refine ⟨ev, by simp, ?_, hle⟩
      rw [UInt64.lt_iff_toNat_lt] at hlast
      rw [UInt64.le_iff_toNat_le]
      have : ev.U.toNat ≤ b.lastUpdateId.toNat + 1 := hb
      omega
  first := by
    rintro rfl e he
    cases es with
    | nil =>
      have hU : ev.U ≤ b.lastUpdateId := by
        simpa [OrderBook.Bridges, h.started] using hb
      rw [h.last] at hU
      simp only [List.nil_append, List.head?_cons, Option.mem_some_iff] at he
      exact he ▸ hU
    | cons e' es => exact h.first rfl e (by simpa using he)
  chained := by
    rintro rfl
    refine List.isChain_append.mpr ⟨h.chained rfl, List.isChain_singleton _, ?_⟩
    intro x hx y hy
    have hlast : b.lastUpdateId = x.u := by
      rw [h.last, Option.mem_def.mp hx]
      rfl
    have hstarted : b.started = true := by
      rw [h.started]
      cases es with
      | nil => simp at hx
      | cons e es => rfl
    simp only [List.head?_cons, Option.mem_some_iff] at hy
    rw [← hy, ← hlast]
    simpa [OrderBook.Bridges, hstarted] using hb

lemma consumes {S' : UInt64} (h : Unbroken v S es b) (hc : Consumes v S' b l b' cbs rest) :
    Unbroken v S (es ++ cbs.map Prod.fst) b' := by
  induction hc generalizing es with
  | done b => simpa using h
  | skip hold hc ih => exact ih h
  | apply hS hnew hb hc ih => simpa using ih (h.advance hnew hb)
  | gap hS hnew hb => simpa using h

end Unbroken

lemma initialized_bufferEvent (h : (s.bufferEvent ev).ob.initialized = true) :
    (s.bufferEvent ev).ob = s.ob := by
  rcases lt_or_ge s.buffer.length kMaxBuffer with hlt | hge
  · rw [bufferEvent_of_lt hlt]
  · rw [bufferEvent_of_full hge] at h
    cases h

/-- A seeded book is reached from the last snapshot without a hole. -/
lemma unbroken_run (id : Int32) (v : Venue) (calls : List Call) :
    let r := run step (new id v) calls
    r.1.venue = v ∧ (r.1.ob.initialized = true →
      ∃ S es, sinceSnapshot r.2 = some (S, es) ∧ Unbroken v S es r.1.ob) := by
  refine run_induction (P := fun h (t : BookSession) =>
    t.venue = v ∧ (t.ob.initialized = true →
      ∃ S es, sinceSnapshot h = some (S, es) ∧ Unbroken v S es t.ob)) ?_ ?_ calls
  · exact ⟨rfl, by simp [new]⟩
  rintro h t c ⟨hv, hP⟩
  -- a call that applies nothing and leaves a seeded book alone
  have quiet : ∀ c o, o ≠ .applied → note (sinceSnapshot h) (.onDiff c, .outcome o)
      = sinceSnapshot h := by
    intro c o ho
    cases o <;> simp_all [note, appliedIn]
  cases c with
  | onDiff ev =>
    rcases t.onDiff_cases ev with ⟨hs, heq⟩ | ⟨hs, -, heq⟩ | ⟨hs, hnew, hb, heq⟩ |
      ⟨hs, -, -, heq⟩
    · -- an overflow resets the book, so it leaves nothing to show
      simp only [step, heq, sinceSnapshot_concat, quiet _ .buffered (by simp), venue_bufferEvent]
      refine ⟨hv, fun hi => ?_⟩
      have hob := initialized_bufferEvent hi
      rw [hob] at hi ⊢
      exact hP hi
    · simp only [step, heq, sinceSnapshot_concat, quiet _ .dropped (by simp)]
      exact ⟨hv, hP⟩
    · refine ⟨by simpa [step, heq] using hv, fun _ => ?_⟩
      obtain ⟨S, es, hsince, hU⟩ := hP hs.2
      refine ⟨S, es ++ [ev], ?_, ?_⟩
      · simp [step, heq, sinceSnapshot_concat, hsince, note, appliedIn]
      · simpa [step, heq] using hU.advance hnew (hv ▸ hb)
    · simp only [step, heq, sinceSnapshot_concat, quiet _ .resyncNeeded (by simp),
        venue_bufferEvent]
      refine ⟨hv, fun hi => ?_⟩
      have hob := initialized_bufferEvent hi
      rw [hob] at hi ⊢
      exact hP hi
  | onSnapshot bids asks S =>
    obtain ⟨b', cbs, rest, hc, heq⟩ := t.onSnapshot_cases bids asks S
    simp only [step, heq]
    refine ⟨hv, fun _ => ⟨S, cbs.map Prod.fst, ?_, ?_⟩⟩
    · rw [sinceSnapshot_concat]
      rfl
    · simpa using (Unbroken.seeded bids asks S t.ob).consumes (hv ▸ hc)
  | requestResync => exact ⟨hv, by simp [step, requestResync, OrderBook.reset]⟩

/-- The gap test of a spot book, computed without wrapping. -/
lemma applyDiffSpot_eq (t : Traversal) (U u : UInt64) (bids asks : List Level) (b : OrderBook) :
    (b.applyDiffSpot t U u bids asks).1 =
      if b.initialized = false then .needSnapshot
      else if u.toNat ≤ b.lastUpdateId.toNat then .ignoredOld
      else if b.lastUpdateId.toNat + 1 < U.toNat then .gap
      else .applied := by
  unfold OrderBook.applyDiffSpot
  by_cases hinit : b.initialized = false
  · rw [if_pos hinit, if_pos hinit]
  rw [if_neg hinit, if_neg hinit]
  by_cases hold : u ≤ b.lastUpdateId
  · rw [if_pos hold, if_pos (UInt64.le_iff_toNat_le.mp hold)]
  have hold' : ¬ u.toNat ≤ b.lastUpdateId.toNat := by rwa [← UInt64.le_iff_toNat_le]
  rw [if_neg hold, if_neg hold']
  -- here the book's id is below `u`, so adding one does not wrap
  simp only [OrderBook.gap_test_iff (lt_of_not_ge hold)]
  split_ifs <;> rfl

/-- **No applied hole.** In every reached state with a seeded book the events applied since the
last snapshot lead from its id to the id of the book; and no result of a spot book depends on
`last_update_id + 1` having wrapped. -/
theorem no_applied_hole (id : Int32) (v : Venue) (calls : List Call) :
    let r := run step (new id v) calls
    (r.1.ob.initialized = true →
      ∃ S es, sinceSnapshot r.2 = some (S, es) ∧
        (es.map DepthEvent.u).Pairwise (· < ·) ∧ (∀ e ∈ es, S < e.u) ∧
        r.1.ob.lastUpdateId = (es.getLast?.map DepthEvent.u).getD S ∧
        (v = .spot →
          ∀ i, S < i → i ≤ r.1.ob.lastUpdateId → ∃ e ∈ es, e.U ≤ i ∧ i ≤ e.u) ∧
        (v = .usdm →
          (∀ e ∈ es.head?, e.U ≤ S) ∧ es.IsChain fun e e' => e'.pu = e.u)) ∧
      ∀ (b : OrderBook) (t : Traversal) (U u : UInt64) (bids asks : List Level),
        (b.applyDiffSpot t U u bids asks).1 =
          if b.initialized = false then .needSnapshot
          else if u.toNat ≤ b.lastUpdateId.toNat then .ignoredOld
          else if b.lastUpdateId.toNat + 1 < U.toNat then .gap
          else .applied := by
  intro r
  refine ⟨fun hinit => ?_, fun b t U u bids asks => applyDiffSpot_eq t U u bids asks b⟩
  obtain ⟨S, es, hsince, hU⟩ := (unbroken_run id v calls).2 hinit
  exact ⟨S, es, hsince, hU.increasing, hU.above, hU.last, hU.covered,
    fun hv => ⟨hU.first hv, hU.chained hv⟩⟩

/-! ## Applied ids only move forward -/

/-- A call as the drivers make it, when nothing has to be thrown away: a snapshot only while the
session is pending, and a diff only when it fits into the buffer. -/
def Steady (s : BookSession) : Call → Prop
  | .onDiff ev => (s.onDiff ev).2.overflows = s.overflows
  | .onSnapshot _ _ _ => s.resyncPending = true
  | .requestResync => False

/-- What the book has applied is behind it, or behind the event that waits at the front. -/
structure Forward (applied : List DepthEvent) (s : BookSession) : Prop where
  increasing : (applied.map DepthEvent.u).Pairwise (· < ·)
  synced : s.resyncPending = false → ∀ e ∈ applied, e.u ≤ s.ob.lastUpdateId
  waiting : s.resyncPending = true →
    applied = [] ∨ ∃ ev rest, s.buffer = ev :: rest ∧ ∀ e ∈ applied, e.u < ev.u

/-- The loop applies events in increasing order, all of them ahead of the book it starts with. -/
lemma Consumes.increasing (h : Consumes v S b l b' cbs rest) :
    (b.lastUpdateId :: cbs.map fun x => x.1.u).Pairwise (· < ·) ∧
      b.lastUpdateId ≤ b'.lastUpdateId ∧ ∀ x ∈ cbs, x.1.u ≤ b'.lastUpdateId := by
  induction h with
  | done b => simp
  | skip hold h ih => exact ih
  | @apply b b' ev l rest cbs hS hnew hb h ih =>
    obtain ⟨hpair, hle, hall⟩ := ih
    rw [OrderBook.lastUpdateId_advance] at hpair hle
    refine ⟨?_, hnew.le.trans hle, ?_⟩
    · rw [List.map_cons, List.pairwise_cons]
      refine ⟨?_, hpair⟩
      rintro y (_ | ⟨_, hy⟩)
      · exact hnew
      · exact hnew.trans (List.rel_of_pairwise_cons hpair hy)
    · rintro x (_ | ⟨_, hx⟩)
      · exact hle
      · exact hall x hx
  | gap hS hnew hb => simp

/-- Either the loop gets past the event at the front, or it leaves everything as it is. -/
lemma Consumes.past_front (h : Consumes v S b (ev :: l) b' cbs rest) (hS : b.lastUpdateId = S) :
    (∀ x ∈ cbs, ev.u ≤ x.1.u) ∧ ev.u ≤ b'.lastUpdateId ∨ cbs = [] ∧ rest = ev :: l := by
  cases h with
  | skip hold h =>
    rw [hS, or_self] at hold
    obtain ⟨hpair, hle, -⟩ := h.increasing
    rw [hS] at hpair hle
    refine .inl ⟨fun x hx => ?_, hold.trans hle⟩
    exact hold.trans (List.rel_of_pairwise_cons hpair (List.mem_map_of_mem hx)).le
  | apply hS hnew hb h =>
    obtain ⟨hpair, hle, -⟩ := h.increasing
    rw [OrderBook.lastUpdateId_advance] at hpair hle
    refine .inl ⟨?_, hle⟩
    rintro x (_ | ⟨_, hx⟩)
    · exact le_rfl
    · exact (List.rel_of_pairwise_cons hpair (List.mem_map_of_mem hx)).le
  | gap hS hnew hb => exact .inr ⟨rfl, rfl⟩

namespace Forward

variable {A : List DepthEvent}

lemma onDiff (hI : s.Inv) (h : Forward A s) (hc : s.Steady (.onDiff ev)) :
    Forward (A ++ appliedIn (.onDiff ev, .outcome (s.onDiff ev).1)) (s.onDiff ev).2 := by
  rcases s.onDiff_cases ev with ⟨hs, heq⟩ | ⟨hs, -, heq⟩ | ⟨hs, hnew, hb, heq⟩ |
    ⟨hs, hnew, -, heq⟩
  · -- buffered behind what already waits; the buffer does not overflow in a steady run
    have hp : s.resyncPending = true := by simpa [hI.synced_iff] using hs
    have hlt : s.buffer.length < kMaxBuffer := by
      rw [← @overflows_bufferEvent s ev]
      simpa [Steady, heq] using hc
    rw [heq, bufferEvent_of_lt hlt]
    refine ⟨by simpa [appliedIn] using h.increasing, by simp [hp], fun _ => ?_⟩
    rcases h.waiting hp with hA | ⟨e, rest, hbuf, hall⟩
    · exact .inl (by simpa [appliedIn] using hA)
    · exact .inr ⟨e, rest ++ [ev], by simp [hbuf], by simpa [appliedIn] using hall⟩
  · simpa [heq, appliedIn] using h
  · -- applied: past the book, and so past everything that was applied before
    have hlt : ∀ e ∈ A, e.u < ev.u := fun e he => lt_of_le_of_lt (h.synced hs.1 e he) hnew
    rw [heq]
    refine ⟨?_, fun _ e he => ?_, by simp [hs.1]⟩
    · refine increasing_append h.increasing (List.pairwise_singleton _ _) ?_
      intro e he e' he'
      rw [List.mem_singleton.mp he']
      exact hlt e he
    · rcases List.mem_append.mp he with he | he
      · exact (hlt e he).le
      · exact (List.mem_singleton.mp he ▸ le_rfl)
  · -- a gap: the event waits alone in the buffer
    rw [heq, hI.bufferEvent_gap hs]
    refine ⟨by simpa [appliedIn] using h.increasing, by simp, fun _ => ?_⟩
    refine .inr ⟨ev, [], rfl, ?_⟩
    intro e he
    simp only [appliedIn, List.append_nil] at he
    exact lt_of_le_of_lt (h.synced hs.1 e he) hnew

lemma onSnapshot (h : Forward A s) (hp : s.resyncPending = true) (bids asks : List Level)
    (S : UInt64) :
    Forward (A ++ (s.onSnapshot bids asks S).callbacks.map Prod.fst)
      (s.onSnapshot bids asks S).session := by
  obtain ⟨b', cbs, rest, hc, heq⟩ := s.onSnapshot_cases bids asks S
  rw [heq]
  obtain ⟨hpair, hle, hall⟩ := hc.increasing
  have hcbs : ((cbs.map Prod.fst).map DepthEvent.u).Pairwise (· < ·) := by
    rw [List.map_map]
    exact hpair.of_cons
  -- what was applied before is behind what the loop applies, and behind the book if it moves on
  have hsep : (∀ e ∈ A, ∀ x ∈ cbs, e.u < x.1.u) ∧
      ((∀ e ∈ A, e.u ≤ b'.lastUpdateId) ∨ cbs = [] ∧ rest = s.buffer) := by
    rcases h.waiting hp with rfl | ⟨ev, l, hbuf, hlt⟩
    · simp
    rw [hbuf] at hc ⊢
    rcases hc.past_front rfl with ⟨hx, hb'⟩ | ⟨rfl, rfl⟩
    · exact ⟨fun e he x hxm => lt_of_lt_of_le (hlt e he) (hx x hxm),
        .inl fun e he => (hlt e he).le.trans hb'⟩
    · exact ⟨by simp, .inr ⟨rfl, rfl⟩⟩
  have hbound : (∀ e ∈ A, e.u ≤ b'.lastUpdateId) →
      ∀ e ∈ A ++ cbs.map Prod.fst, e.u ≤ b'.lastUpdateId := by
    intro hA e he
    rcases List.mem_append.mp he with he | he
    · exact hA e he
    · obtain ⟨x, hx, rfl⟩ := List.mem_map.mp he
      exact hall x hx
  constructor
  · refine increasing_append h.increasing hcbs ?_
    intro e he e' he'
    obtain ⟨x, hx, rfl⟩ := List.mem_map.mp he'
    exact hsep.1 e he x hx
  · intro hrest
    have hnil : rest = [] := by simpa using hrest
    rcases hsep.2 with hA | ⟨rfl, hbuf⟩
    · exact hbound hA
    · rcases h.waiting hp with rfl | ⟨ev, l, hne, -⟩
      · simp
      · simp [hnil, hne] at hbuf
  · intro hrest
    rcases hsep.2 with hA | ⟨rfl, rfl⟩
    · obtain ⟨ev, l, rfl⟩ := List.exists_cons_of_ne_nil (l := rest) (by simpa using hrest)
      exact .inr ⟨ev, l, rfl, fun e he => lt_of_le_of_lt (hbound hA e he) hc.front.2.1⟩
    · simpa using h.waiting hp

end Forward

/-- **Applied ids only move forward**, however old the snapshots are. -/
theorem applied_increasing (id : Int32) (v : Venue) (calls : List Call)
    (h : Allowed step Steady (new id v) calls) :
    ((appliedEvents (run step (new id v) calls).2).map DepthEvent.u).Pairwise (· < ·) := by
  refine (run_induction_of (P := fun h (t : BookSession) => t.Inv ∧ Forward (appliedEvents h) t)
    h ?_ ?_).2.increasing
  · exact ⟨inv_new id v, .nil, by simp [new], fun _ => .inl rfl⟩
  rintro h t c hc ⟨hI, hF⟩
  refine ⟨hI.step c, ?_⟩
  rw [appliedEvents_concat]
  cases c with
  | onDiff ev => exact hF.onDiff hI hc
  | onSnapshot bids asks S => exact hF.onSnapshot hc bids asks S
  | requestResync => exact hc.elim

/-- A run with a snapshot that is older than what has been applied. -/
theorem applied_increasing_lagging :
    let calls : List Call := [.onSnapshot [] [] 10, .onDiff { U := 11, u := 12 },
      .onDiff { U := 15, u := 16 }, .onSnapshot [] [] 5, .onSnapshot [] [] 14]
    let applied := (appliedEvents (run step (new 1 .spot) calls).2).map DepthEvent.u
    applied = [12, 16] ∧ applied.Pairwise (· < ·) :=
  ⟨by decide +kernel, applied_increasing 1 .spot _ ⟨rfl, rfl, rfl, rfl, rfl, trivial⟩⟩

end LobCapture.BookSession
