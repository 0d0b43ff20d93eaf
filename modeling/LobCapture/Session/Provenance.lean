/-
# Where the book of a session comes from

The calls of a session carry labels.  Beside the session it is kept of which calls the buffered
diffs, the snapshot of the book and the diffs applied to it since have come, and every diff that
is applied is written down together with the session right after it.
-/
import LobCapture.Session.History

namespace LobCapture.BookSession

open Lib

variable {α : Type*}

/-- A diff that has been applied. -/
structure Application (α : Type*) where
  /-- the label of the diff -/
  origin : α
  event : DepthEvent
  /-- the session right after -/
  session : BookSession
  /-- the label of the snapshot in the book -/
  seed : Option α
  /-- the labels of the diffs applied since the snapshot, this one included -/
  since : List α

/-- The labels of what a session holds. -/
structure Origins (α : Type*) where
  /-- the buffered diffs -/
  waiting : List (α × DepthEvent) := []
  /-- the snapshot in the book -/
  seed : Option α := none
  /-- the diffs applied since the snapshot -/
  since : List α := []

/-- A diff with the label `a` has been applied. -/
def Origins.add (g : Origins α) (a : α) : Origins α := { g with since := g.since ++ [a] }

/-- The entry for a diff with the label `a` that led to the session `s`. -/
def Origins.application (g : Origins α) (a : α) (ev : DepthEvent) (s : BookSession) :
    Application α :=
  ⟨a, ev, s, (g.add a).seed, (g.add a).since⟩

/-- The loop of `on_snapshot` over the labelled buffer. -/
def replayTracked (S : UInt64) :
    List (α × DepthEvent) → BookSession → Origins α → Origins α × List (Application α)
  | [], _, g => ({ g with waiting := [] }, [])
  | x :: rest, s, g =>
    if x.2.u ≤ S then replayTracked S rest s g
    else
      match s.applyOne x.2 with
      | (.resyncNeeded, _) => ({ g with waiting := x :: rest }, [])
      | (.applied, s') =>
        let r := replayTracked S rest s' (g.add x.1)
        (r.1, g.application x.1 x.2 s' :: r.2)
      | (_, s') => replayTracked S rest s' g

/-- Keep track of a call with the label `a`. -/
def Origins.track (g : Origins α) (s : BookSession) (a : α) :
    Call → Origins α × List (Application α)
  | .onDiff ev =>
    match s.onDiff ev with
    | (.applied, s') => (g.add a, [g.application a ev s'])
    | (.dropped, _) => (g, [])
    | (_, s') =>
      if s'.overflows = s.overflows then ({ g with waiting := g.waiting ++ [(a, ev)] }, [])
      else ({ waiting := [(a, ev)] }, [])
  | .onSnapshot bids asks S =>
    replayTracked S g.waiting
      { s with ob := s.ob.setSnapshot .stored bids asks S, resyncPending := false }
      { g with seed := some a, since := [] }
  | .requestResync => ({}, [])

variable {s : BookSession} {g : Origins α} {S : UInt64} {a : α} {ev : DepthEvent}

@[simp] lemma waiting_add : (g.add a).waiting = g.waiting := rfl

@[simp] lemma seed_add : (g.add a).seed = g.seed := rfl

@[simp] lemma since_add : (g.add a).since = g.since ++ [a] := rfl

/-- **What is tracked at a diff**, case by case. -/
lemma track_onDiff_cases (hI : s.Inv) (g : Origins α) (a : α) (ev : DepthEvent) :
    ((s.onDiff ev).1 = .applied ∧ s.Synced ∧ (s.onDiff ev).2 = { s with ob := s.ob.advance ev } ∧
      g.track s a (.onDiff ev) = (g.add a, [g.application a ev (s.onDiff ev).2])) ∨
    ((s.onDiff ev).1 = .dropped ∧ s.Synced ∧ (s.onDiff ev).2 = s ∧
      g.track s a (.onDiff ev) = (g, [])) ∨
    (((s.onDiff ev).1 = .buffered ∨ (s.onDiff ev).1 = .resyncNeeded) ∧
      (s.onDiff ev).2.buffer = s.buffer ++ [ev] ∧ (s.onDiff ev).2.ob = s.ob ∧
      g.track s a (.onDiff ev) = ({ g with waiting := g.waiting ++ [(a, ev)] }, [])) ∨
    ((s.onDiff ev).1 = .buffered ∧
      (s.onDiff ev).2.buffer = [ev] ∧ (s.onDiff ev).2.ob = s.ob.reset ∧
      g.track s a (.onDiff ev) = ({ waiting := [(a, ev)] }, [])) := by
  rcases s.onDiff_cases ev with ⟨hs, heq⟩ | ⟨hs, -, heq⟩ | ⟨hs, -, -, heq⟩ | ⟨hs, -, -, heq⟩
  · simp only [Origins.track, heq, overflows_bufferEvent]
    rcases lt_or_ge s.buffer.length kMaxBuffer with hlt | hge
    · rw [bufferEvent_of_lt hlt, if_pos hlt]
      simp
    · rw [bufferEvent_of_full hge, if_neg (not_lt_of_ge hge)]
      simp
  · simp [Origins.track, heq, hs]
  · simp [Origins.track, heq, hs]
  · -- at a gap the buffer is empty
    rw [hI.bufferEvent_gap hs] at heq
    simp [Origins.track, heq, (hI.synced hs.1).2]

/-! ## Rules -/

/-- What holds of the labels of everything that a session holds. -/
structure Origins.All (P : α → Prop) (g : Origins α) : Prop where
  waiting : ∀ x ∈ g.waiting, P x.1
  seed : ∀ b ∈ g.seed, P b
  since : ∀ b ∈ g.since, P b

/-- What holds of the labels of an application. -/
structure Application.All (P : α → Prop) (x : Application α) : Prop where
  origin : P x.origin
  seed : ∀ b ∈ x.seed, P b
  since : ∀ b ∈ x.since, P b

namespace Origins.All

variable {P : α → Prop}

lemma empty : All P {} := ⟨by simp, by simp, by simp⟩

lemma imp {Q : α → Prop} (h : g.All P) (hPQ : ∀ b, P b → Q b) : g.All Q :=
  ⟨fun x hx => hPQ _ (h.waiting x hx), fun b hb => hPQ b (h.seed b hb),
    fun b hb => hPQ b (h.since b hb)⟩

lemma and {Q : α → Prop} (h : g.All P) (h' : g.All Q) : g.All fun b => P b ∧ Q b :=
  ⟨fun x hx => ⟨h.waiting x hx, h'.waiting x hx⟩, fun b hb => ⟨h.seed b hb, h'.seed b hb⟩,
    fun b hb => ⟨h.since b hb, h'.since b hb⟩⟩

lemma add (h : g.All P) (ha : P a) : (g.add a).All P := by
  refine ⟨h.waiting, h.seed, fun b hb => ?_⟩
  rcases List.mem_append.mp hb with hb | hb
  · exact h.since b hb
  · exact List.mem_singleton.mp hb ▸ ha

lemma application (h : g.All P) (ha : P a) : (g.application a ev s).All P :=
  ⟨ha, (h.add ha).seed, (h.add ha).since⟩

lemma replayTracked {w : List (α × DepthEvent)} (h : g.All P) (hw : ∀ x ∈ w, P x.1) :
    (replayTracked S w s g).1.All P ∧ ∀ x ∈ (replayTracked S w s g).2, x.All P := by
  induction w generalizing s g with
  | nil => exact ⟨⟨by simp [BookSession.replayTracked], h.seed, h.since⟩,
      by simp [BookSession.replayTracked]⟩
  | cons x w ih =>
    have hx : P x.1 := hw x List.mem_cons_self
    have hrest : ∀ z ∈ w, P z.1 := fun z hz => hw z (List.mem_cons_of_mem _ hz)
    rw [BookSession.replayTracked]
    split_ifs with hS
    · exact ih h hrest
    split
    · exact ⟨⟨hw, h.seed, h.since⟩, by simp⟩
    · obtain ⟨hg, happs⟩ := @ih _ (g.add x.1) (h.add hx) hrest
      refine ⟨hg, ?_⟩
      rintro z (_ | ⟨_, hz⟩)
      · exact h.application hx
      · exact happs z hz
    · exact ih h hrest

/-- A label that passes the test is the only one that a call adds. -/
lemma track (h : g.All P) (ha : P a) (c : Call) :
    (g.track s a c).1.All P ∧ ∀ x ∈ (g.track s a c).2, x.All P := by
  cases c with
  | onDiff ev =>
    simp only [Origins.track]
    split
    · refine ⟨h.add ha, fun x hx => ?_⟩
      exact List.mem_singleton.mp hx ▸ h.application ha
    · exact ⟨h, by simp⟩
    · split_ifs
      · refine ⟨⟨fun x hx => ?_, h.seed, h.since⟩, by simp⟩
        rcases List.mem_append.mp hx with hx | hx
        · exact h.waiting x hx
        · exact List.mem_singleton.mp hx ▸ ha
      · exact ⟨⟨fun x hx => List.mem_singleton.mp hx ▸ ha, by simp, by simp⟩, by simp⟩
  | onSnapshot bids asks S =>
    exact Origins.All.replayTracked ⟨h.waiting, by simpa using ha, by simp⟩ h.waiting
  | requestResync => exact ⟨empty, by simp [Origins.track]⟩

end Origins.All

/-! ## What is tracked is what happens -/

/-- The labels belong to what the session holds. -/
structure Tracks (g : Origins α) (s : BookSession) : Prop where
  buffer : g.waiting.map Prod.snd = s.buffer
  seeded : s.ob.initialized = true → ∃ b, g.seed = some b

lemma tracks_new (id : Int32) (v : Venue) : Tracks ({} : Origins α) (new id v) :=
  ⟨rfl, by simp [new]⟩

/-- The diff of a call, with the label of the call. -/
def labelled (a : α) : Call → List (α × DepthEvent)
  | .onDiff ev => [(a, ev)]
  | _ => []

/-- The diffs that a call applies, each with the book right after it. -/
def appliedBooks (s : BookSession) : Call → List (DepthEvent × OrderBook)
  | .onDiff ev => if (s.onDiff ev).1 = .applied then [(ev, (s.onDiff ev).2.ob)] else []
  | .onSnapshot bids asks S => (s.onSnapshot bids asks S).callbacks
  | .requestResync => []

/-- An application without the sessions. -/
def Application.diff (x : Application α) : α × DepthEvent := (x.origin, x.event)

/-- The labelled loop does what the loop of `on_snapshot` does. -/
lemma replayTracked_spec (hinit : s.ob.initialized = true) (hp : s.resyncPending = false)
    (w : List (α × DepthEvent)) :
    let r := replayBuffer S (w.map Prod.snd) s
    let t := replayTracked S w s g
    t.1.waiting.map Prod.snd = r.session.buffer ∧ t.1.seed = g.seed ∧
      t.2.map (fun x => (x.event, x.session.ob)) = r.callbacks ∧
      (∀ x ∈ t.2, x.session.Synced ∧ x.seed = g.seed) ∧
      ∃ used, w = used ++ t.1.waiting ∧ (t.2.map Application.diff).Sublist used := by
  induction w generalizing s g with
  | nil => exact ⟨rfl, rfl, rfl, by simp [replayTracked], [], rfl, .slnil⟩
  | cons x w ih =>
    rw [List.map_cons, replayBuffer, replayTracked]
    -- the cases of the loop: stale, contained in the book, applied, and a gap
    by_cases hS : x.2.u ≤ S
    · obtain ⟨hbuf, hseed, hcbs, happs, used, hw, hsub⟩ := @ih s g hinit hp
      simp only [hS, if_true]
      exact ⟨hbuf, hseed, hcbs, happs, x :: used, congrArg (x :: ·) hw, hsub.cons x⟩
    simp only [hS, if_false, applyOne_eq hinit]
    by_cases hold : x.2.u ≤ s.ob.lastUpdateId
    · obtain ⟨hbuf, hseed, hcbs, happs, used, hw, hsub⟩ := @ih s g hinit hp
      simp only [hold, if_true]
      exact ⟨hbuf, hseed, hcbs, happs, x :: used, congrArg (x :: ·) hw, hsub.cons x⟩
    by_cases hb : s.ob.Bridges s.venue x.2
    · obtain ⟨hbuf, hseed, hcbs, happs, used, hw, hsub⟩ :=
        @ih { s with ob := s.ob.advance x.2 } (g.add x.1) (by simpa using hinit) hp
      simp only [hold, hb, if_true, if_false]
      refine ⟨hbuf, hseed, congrArg (_ :: ·) hcbs, ?_, x :: used, congrArg (x :: ·) hw,
        hsub.cons_cons x⟩
      rintro z (_ | ⟨_, hz⟩)
      · exact ⟨⟨hp, (OrderBook.initialized_advance x.2 s.ob).trans hinit⟩, rfl⟩
      · exact happs z hz
    · simp only [hold, hb, if_false]
      exact ⟨rfl, trivial, rfl, by simp, [], rfl, .slnil⟩

/-- What one call does to the labels, and what it applies. -/
structure Tracked (g : Origins α) (s : BookSession) (a : α) (c : Call) : Prop where
  tracks : Tracks (g.track s a c).1 (step s c).1
  books : (g.track s a c).2.map (fun x => (x.event, x.session.ob)) = appliedBooks s c
  synced : ∀ x ∈ (g.track s a c).2, x.session.Synced ∧ ∃ b, x.seed = some b
  order : ((g.track s a c).2.map Application.diff ++ (g.track s a c).1.waiting).Sublist
    (g.waiting ++ labelled a c)

/-- **One call keeps track.** -/
lemma Tracks.step (h : Tracks g s) (hI : s.Inv) (a : α) (c : Call) : Tracked g s a c := by
  cases c with
  | onDiff ev =>
    rcases track_onDiff_cases hI g a ev with ⟨ho, hs, hs', heq⟩ | ⟨ho, hs, hs', heq⟩ |
      ⟨ho, hbuf, hob, heq⟩ | ⟨ho, hbuf, hob, heq⟩
    · have hempty : g.waiting = [] := by
        rw [← List.map_eq_nil_iff (f := Prod.snd), h.buffer, (hI.synced hs.1).2]
      have hseed := h.seeded hs.2
      refine ⟨?_, ?_, ?_, ?_⟩
      · rw [heq]
        refine ⟨?_, fun _ => hseed⟩
        simp only [BookSession.step, hs', waiting_add, h.buffer]
      · simp [heq, ho, appliedBooks, Origins.application]
      · rw [heq, hs']
        intro x hx
        rw [List.mem_singleton.mp hx]
        exact ⟨⟨hs.1, by simpa [Origins.application] using hs.2⟩, hseed⟩
      · simp [heq, hempty, Origins.application, Application.diff, labelled]
    · refine ⟨?_, ?_, ?_, ?_⟩
      · rw [heq]
        simpa only [BookSession.step, hs'] using h
      · simp [heq, ho, appliedBooks]
      · simp [heq]
      · simp [heq]
    · refine ⟨?_, ?_, ?_, ?_⟩
      · rw [heq]
        refine ⟨by simp [BookSession.step, hbuf, h.buffer], ?_⟩
        simp only [BookSession.step, hob]
        exact h.seeded
      · rcases ho with ho | ho <;> simp [heq, ho, appliedBooks]
      · simp [heq]
      · simp [heq, labelled]
    · refine ⟨?_, ?_, ?_, ?_⟩
      · rw [heq]
        exact ⟨by simp [BookSession.step, hbuf],
          by simp [BookSession.step, hob, OrderBook.reset]⟩
      · simp [heq, ho, appliedBooks]
      · simp [heq]
      · simp [heq, labelled]
  | onSnapshot bids asks S =>
    obtain ⟨hbuf, hseed, hcbs, happs, used, hw, hsub⟩ := @replayTracked_spec _
      { s with ob := s.ob.setSnapshot .stored bids asks S, resyncPending := false }
      { g with seed := some a, since := [] } S rfl rfl g.waiting
    rw [h.buffer] at hbuf hcbs
    refine ⟨⟨hbuf, fun _ => ⟨a, hseed⟩⟩, hcbs,
      fun x hx => ⟨(happs x hx).1, a, (happs x hx).2⟩, ?_⟩
    · show (List.map Application.diff _ ++ _).Sublist (g.waiting ++ [])
      rw [List.append_nil]
      conv => rhs; rw [hw]
      exact hsub.append_right _
  | requestResync =>
    exact ⟨⟨rfl, by simp [BookSession.step, requestResync, OrderBook.reset]⟩, rfl,
      by simp [Origins.track], List.nil_sublist _⟩

end LobCapture.BookSession
