/-
# The session of one symbol

`BookSession` of `book_session.cpp`: buffer diffs until a snapshot arrives, drop the stale ones,
seed the book, apply the rest, and ask for a resync on a gap.  The buffer is a list with its
front at the head.  The callback of `on_snapshot` only reads what it is given, so its calls are
returned as a list.

The book operations run here with the traversal order in which the entries are stored; none of
their results depends on it (`OrderBook.applyLevels_traversal` and the theorems after it).
-/
import LobCapture.Book.TopFive

namespace LobCapture

open Lib

/-- The venue's rule for applying a diff: the choice made at the head of `apply_one`. -/
def OrderBook.applyEvent (v : Venue) (ev : DepthEvent) (b : OrderBook) : ApplyResult × OrderBook :=
  match v with
  | .usdm => b.applyDiffUsdm .stored ev.U ev.u ev.pu ev.bids ev.asks
  | .spot => b.applyDiffSpot .stored ev.U ev.u ev.bids ev.asks

/-- `BookSession::Outcome`. -/
inductive Outcome where
  | buffered
  | applied
  | resyncNeeded
  | dropped
deriving DecidableEq, Repr

structure BookSession where
  ob : OrderBook
  venue : Venue
  /-- need a snapshot before live apply -/
  resyncPending : Bool := true
  /-- times the buffer cap was hit -/
  overflows : UInt64 := 0
  /-- diffs seen before or while snapshotting -/
  buffer : List DepthEvent := []

/-- What a call of `on_snapshot` leaves behind: the session, the number it returns, and the calls
of `on_applied` in their order. -/
structure Replayed where
  session : BookSession
  applied : ℕ
  callbacks : List (DepthEvent × OrderBook)

namespace BookSession

def new (id : Int32) (venue : Venue) : BookSession := { ob := { id := id }, venue := venue }

def initialized (s : BookSession) : Bool := s.ob.initialized

/-- `kMaxBuffer`. -/
def kMaxBuffer : ℕ := 65536

/-- `apply_one`. -/
def applyOne (s : BookSession) (ev : DepthEvent) : Outcome × BookSession :=
  match s.ob.applyEvent s.venue ev with
  | (.applied, ob) => (.applied, { s with ob := ob })
  | (.ignoredOld, ob) => (.dropped, { s with ob := ob })
  | (.gap, ob) => (.resyncNeeded, { s with ob := ob, resyncPending := true })
  | (.needSnapshot, ob) => (.buffered, { s with ob := ob, resyncPending := true })

/-- `buffer_event`. -/
def bufferEvent (s : BookSession) (ev : DepthEvent) : BookSession :=
  let s := if s.buffer.length ≥ kMaxBuffer then
      { s with
        overflows := s.overflows + 1
        buffer := []
        resyncPending := true
        ob := s.ob.reset }
    else s
  { s with buffer := s.buffer ++ [ev] }

/-- `on_diff`. -/
def onDiff (s : BookSession) (ev : DepthEvent) : Outcome × BookSession :=
  if s.resyncPending = true ∨ s.ob.initialized = false then (.buffered, s.bufferEvent ev)
  else
    let (o, s') := s.applyOne ev
    if o = .resyncNeeded then (o, s'.bufferEvent ev) else (o, s')

/-- The loop of `on_snapshot` over what is left of the buffer. -/
def replayBuffer (S : UInt64) : List DepthEvent → BookSession → Replayed
  | [], s => ⟨{ s with buffer := [] }, 0, []⟩
  | ev :: rest, s =>
    if ev.u ≤ S then replayBuffer S rest s  -- stale
    else
      match s.applyOne ev with
      | (.resyncNeeded, s') => ⟨{ s' with buffer := ev :: rest }, 0, []⟩  -- gap, keep the suffix
      | (.applied, s') =>
        let r := replayBuffer S rest s'
        ⟨r.session, r.applied + 1, (ev, s'.ob) :: r.callbacks⟩
      | (_, s') => replayBuffer S rest s'

/-- `on_snapshot`. -/
def onSnapshot (s : BookSession) (bids asks : List Level) (S : UInt64) : Replayed :=
  replayBuffer S s.buffer
    { s with ob := s.ob.setSnapshot .stored bids asks S, resyncPending := false }

/-- `request_resync`. -/
def requestResync (s : BookSession) : BookSession :=
  { s with resyncPending := true, ob := s.ob.reset, buffer := [] }

/-- A call of a mutating member function. -/
inductive Call where
  | onDiff (ev : DepthEvent)
  | onSnapshot (bids asks : List Level) (S : UInt64)
  | requestResync

/-- What the caller gets to see of a call. -/
inductive Reply where
  | outcome (o : Outcome)
  | replayed (applied : ℕ) (callbacks : List (DepthEvent × OrderBook))
  | done

/-- One call. -/
def step (s : BookSession) : Call → BookSession × Reply
  | .onDiff ev => ((s.onDiff ev).2, .outcome (s.onDiff ev).1)
  | .onSnapshot bids asks S =>
    let r := s.onSnapshot bids asks S
    (r.session, .replayed r.applied r.callbacks)
  | .requestResync => (s.requestResync, .done)

end BookSession

/-! ## What a diff does to a book -/

namespace OrderBook

/-- The diff connects to the book: for spot there is no id between the book and the diff, for
USD-M the first diff after a snapshot starts at or before the book and every later one names
the book's id as its predecessor. -/
def Bridges (v : Venue) (b : OrderBook) (ev : DepthEvent) : Prop :=
  match v with
  | .spot => ev.U.toNat ≤ b.lastUpdateId.toNat + 1
  | .usdm => if b.started then ev.pu = b.lastUpdateId else ev.U ≤ b.lastUpdateId

instance (b : OrderBook) (ev : DepthEvent) : (v : Venue) → Decidable (b.Bridges v ev)
  | .spot => inferInstanceAs (Decidable (ev.U.toNat ≤ b.lastUpdateId.toNat + 1))
  | .usdm => inferInstanceAs
      (Decidable (if b.started then ev.pu = b.lastUpdateId else ev.U ≤ b.lastUpdateId))

/-- The book after a diff has been applied to it. -/
def advance (ev : DepthEvent) (b : OrderBook) : OrderBook :=
  { b.applyLevels .stored ev.bids ev.asks with lastUpdateId := ev.u, started := true }

@[simp] lemma lastUpdateId_advance (ev : DepthEvent) (b : OrderBook) :
    (b.advance ev).lastUpdateId = ev.u := rfl

@[simp] lemma started_advance (ev : DepthEvent) (b : OrderBook) :
    (b.advance ev).started = true := rfl

@[simp] lemma initialized_applyLevels (t : Traversal) (bids asks : List Level) (b : OrderBook) :
    (b.applyLevels t bids asks).initialized = b.initialized := by
  have hbids : ∀ (ls : List (Level × ℕ)) (b : OrderBook),
      (ls.foldl (fun b x => b.applyBidLevel (t.bids x.2) x.1) b).initialized = b.initialized :=
    fun ls b => List.foldlRecOn (motive := fun b' : OrderBook => b'.initialized = b.initialized)
      ls _ rfl fun _ hb _ _ => hb
  have hasks : ∀ (ls : List (Level × ℕ)) (b : OrderBook),
      (ls.foldl (fun b x => b.applyAskLevel (t.asks x.2) x.1) b).initialized = b.initialized :=
    fun ls b => List.foldlRecOn (motive := fun b' : OrderBook => b'.initialized = b.initialized)
      ls _ rfl fun _ hb _ _ => hb
  exact (hasks _ _).trans (hbids _ _)

@[simp] lemma initialized_advance (ev : DepthEvent) (b : OrderBook) :
    (b.advance ev).initialized = b.initialized := initialized_applyLevels _ _ _ _

@[simp] lemma id_applyLevels (t : Traversal) (bids asks : List Level) (b : OrderBook) :
    (b.applyLevels t bids asks).id = b.id := by
  have hbids : ∀ (ls : List (Level × ℕ)) (b : OrderBook),
      (ls.foldl (fun b x => b.applyBidLevel (t.bids x.2) x.1) b).id = b.id :=
    fun ls b => List.foldlRecOn (motive := fun b' : OrderBook => b'.id = b.id)
      ls _ rfl fun _ hb _ _ => hb
  have hasks : ∀ (ls : List (Level × ℕ)) (b : OrderBook),
      (ls.foldl (fun b x => b.applyAskLevel (t.asks x.2) x.1) b).id = b.id :=
    fun ls b => List.foldlRecOn (motive := fun b' : OrderBook => b'.id = b.id)
      ls _ rfl fun _ hb _ _ => hb
  exact (hasks _ _).trans (hbids _ _)

@[simp] lemma id_advance (ev : DepthEvent) (b : OrderBook) : (b.advance ev).id = b.id :=
  id_applyLevels _ _ _ _

/-- The sum in the spot gap test does not wrap when the test is reached. -/
lemma gap_test_iff {last U u : UInt64} (h : last < u) :
    U > last + 1 ↔ last.toNat + 1 < U.toNat := by
  rw [UInt64.lt_iff_toNat_lt] at h
  rw [gt_iff_lt, UInt64.lt_iff_toNat_lt, UInt64.toNat_add]
  have := u.toNat_lt
  simp only [UInt64.toNat_one]
  omega

/-- **What applying a diff does**, for either venue. -/
lemma applyEvent_eq (v : Venue) (ev : DepthEvent) (b : OrderBook) :
    b.applyEvent v ev =
      if b.initialized = false then (.needSnapshot, b)
      else if ev.u ≤ b.lastUpdateId then (.ignoredOld, b)
      else if b.Bridges v ev then (.applied, b.advance ev)
      else (.gap, b) := by
  cases v with
  | spot =>
    simp only [applyEvent, OrderBook.applyDiffSpot]
    split_ifs with _ hold hgap hb hb
    · rfl
    · rfl
    · have hlt := (gap_test_iff (lt_of_not_ge hold)).mp hgap
      simp only [Bridges] at hb
      omega
    · rfl
    · rfl
    · refine absurd ((gap_test_iff (lt_of_not_ge hold)).mpr ?_) hgap
      simp only [Bridges] at hb
      omega
  | usdm =>
    simp only [applyEvent, OrderBook.applyDiffUsdm]
    by_cases hinit : b.initialized = false
    · simp only [hinit, if_true]
    by_cases hold : ev.u ≤ b.lastUpdateId
    · simp only [hinit, hold, if_true]
    simp only [hinit, hold, if_false]
    -- the first event after a snapshot has a test of its own
    rcases Bool.eq_false_or_eq_true b.started with hs | hs
    · by_cases hpu : ev.pu = b.lastUpdateId
      · simp [Bridges, hs, hpu, advance]
      · simp [Bridges, hs, hpu]
    · by_cases hU : ev.U ≤ b.lastUpdateId
      · simp [Bridges, hs, hU, not_lt_of_ge hU, advance]
      · simp [Bridges, hs, hU, lt_of_not_ge hU]

end OrderBook

end LobCapture
