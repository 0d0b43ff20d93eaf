/-
# The WebSocket client

`WsClientBeast::run` of `ws_client_beast.cpp` as a state machine.  One thread runs the loop; all
that it waits for comes as an event: the operations of a connection succeed or fail, frames come
in, the watchdog timer expires, an exception is thrown, and another thread calls `stop` or the
deadline passes at any moment.  An event that is not possible in a state leaves it as it is.

What belongs to Asio, and not to the client, is a parameter: what `steady_timer::cancel` does to
a wait, when a timer expires, and when `io_context::run` returns.
-/
import LobCapture.Capture.Live
import LobCapture.Lib.Run
import Mathlib.Algebra.Order.BigOperators.Group.List

namespace LobCapture

open Lib

/-! ## Asio -/

/-- A timer: when its time has come, and also when it is cancelled, its handler is queued. -/
inductive WsClient.Watchdog where
  | off
  | waiting
  | expired
  | cancelled
deriving DecidableEq

/-- What the client uses of Asio. -/
structure WsClient.Asio where
  /-- `steady_timer::cancel` -/
  cancel : WsClient.Watchdog → WsClient.Watchdog
  /-- whether the time of a timer can come -/
  expires : WsClient.Watchdog → Bool
  /-- whether `io_context::run` returns, when it has been stopped or an operation is under way -/
  returns (stopped busy : Bool) : WsClient.Watchdog → Bool

/-- What the documentation of Asio says: only a wait that is under way is cancelled, not one whose
handler is queued already, and `run` returns when nothing is left to wait for. -/
structure WsClient.Asio.Documented (asio : WsClient.Asio) : Prop where
  cancel_waiting : asio.cancel .waiting = .cancelled
  cancel_expired : asio.cancel .expired = .expired
  expires_iff : ∀ wd, asio.expires wd = true ↔ wd = .waiting
  returns_iff : ∀ stopped busy wd,
    asio.returns stopped busy wd = true ↔ stopped = true ∨ busy = false ∧ wd = .off

def WsClient.boostAsio : WsClient.Asio where
  cancel wd := if wd = .waiting then .cancelled else wd
  expires wd := wd = .waiting
  returns stopped busy wd := stopped || !busy && wd = .off

lemma WsClient.documented_boostAsio : WsClient.boostAsio.Documented where
  cancel_waiting := rfl
  cancel_expired := rfl
  expires_iff wd := by simp [WsClient.boostAsio]
  returns_iff stopped busy wd := by simp [WsClient.boostAsio]

/-! ## The client -/

inductive WsClient.Setup where
  | resolve
  | connect
  | tls
  | handshake
deriving DecidableEq

/-- Where the thread of the client stands: in `ioc.run()` with an operation under way, in the
handler of a read, in `ioc.run()` after a failure or after `ioc.stop()`, or outside of it. -/
inductive WsClient.Place where
  | top
  | setup (op : WsClient.Setup)
  | reading
  | delivered
  | failed
  | stopped
  | behind
  | sleeping
  | returned
deriving DecidableEq

structure WsClient where
  stop : Bool := false
  /-- the deadline has passed -/
  late : Bool := false
  place : WsClient.Place := .top
  wd : WsClient.Watchdog := .off
  connEpoch : UInt64 := 0
  connSeq : UInt64 := 0
  backoffMs : ℕ := 1000
  reconnects : UInt64 := 0
  parseErrors : UInt64 := 0

namespace WsClient

inductive Event where
  | stop
  | deadline
  | loop
  | done
  | fail
  /-- a frame is read and handled; the handler may throw -/
  | frame (text : Bytes) (recvTs : Timestamp) (response : Option Bytes) (snapTs : Timestamp)
      (throws : Bool)
  /-- the check behind `on_msg` -/
  | check
  | expire
  /-- the handler of the watchdog is called -/
  | watchdog
  | leave
  | next
  /-- an exception leaves the `try` block -/
  | throws
  | wake

/-- What a step shows to others: a call of `on_msg`, a handshake that is done, a call of
`interruptible_sleep`. -/
inductive Shown where
  | frame (fr : Frame)
  | opened
  | sleeps (ms : ℕ)

/-- `stop_.load() || Clock::now() >= deadline` -/
def ended (c : WsClient) : Bool := c.stop || c.late

/-- `m.reconnects++; ++conn_epoch; interruptible_sleep(backoff_ms)`, unless it is all over. -/
def reconnect (c : WsClient) : WsClient × Option Shown :=
  if c.ended then ({ c with place := .returned, wd := .off }, none)
  else
    ({ c with place := .sleeping, wd := .off, reconnects := c.reconnects + 1,
              connEpoch := c.connEpoch + 1 }, some (.sleeps c.backoffMs))

/-- An operation of the set-up chain succeeds, and the next one starts. -/
def proceed (c : WsClient) : Setup → WsClient × Option Shown
  | .resolve => ({ c with place := .setup .connect }, none)
  | .connect => ({ c with place := .setup .tls }, none)
  | .tls => ({ c with place := .setup .handshake }, none)
  | .handshake => ({ c with backoffMs := 1000, connSeq := 0, place := .reading }, some .opened)

/-- `run_ec = ec; wd.cancel()` -/
def failed (asio : Asio) (c : WsClient) : WsClient :=
  { c with place := .failed, wd := asio.cancel c.wd }

/-- `++conn_seq; on_msg(frame, conn_epoch, conn_seq)` -/
def deliver (c : WsClient) (text : Bytes) (recvTs : Timestamp) (response : Option Bytes)
    (snapTs : Timestamp) (throws : Bool) : WsClient × Option Shown :=
  let c := { c with connSeq := c.connSeq + 1, place := .delivered }
  let fr : Frame :=
    { text := text, connEpoch := c.connEpoch, connSeq := c.connSeq, recvTs := recvTs,
      response := response, snapTs := snapTs }
  (if throws then { c with parseErrors := c.parseErrors + 1 } else c, some (.frame fr))

/-- The handler of the watchdog. -/
def onWatchdog (c : WsClient) : WsClient :=
  match c.wd with
  | .cancelled => { c with wd := .off }
  | .expired =>
    if c.ended then { c with place := .stopped, wd := .off } else { c with wd := .waiting }
  | _ => c

/-- The thread is in `ioc.run()` and not in a handler. -/
def Place.polling : Place → Bool
  | .setup _ | .reading | .failed => true
  | _ => false

/-- An operation of the connection is under way. -/
def Place.busy : Place → Bool
  | .setup _ | .reading => true
  | _ => false

/-- The thread is in the `try` block. -/
def Place.trying : Place → Bool
  | .setup _ | .reading | .delivered | .failed | .stopped | .behind => true
  | _ => false

variable (asio : Asio)

/-- One event. -/
def step (c : WsClient) : Event → WsClient × Option Shown
  | .stop => ({ c with stop := true }, none)
  | .deadline => ({ c with late := true }, none)
  | .loop =>
    if c.place = .top then
      if c.ended then ({ c with place := .returned }, none)
      else ({ c with place := .setup .resolve, wd := .waiting }, none)
    else (c, none)
  | .done =>
    match c.place with
    | .setup op => c.proceed op
    | _ => (c, none)
  | .fail =>
    match c.place with
    | .setup _ | .reading => (c.failed asio, none)
    | _ => (c, none)
  | .frame text recvTs response snapTs throws =>
    if c.place = .reading then c.deliver text recvTs response snapTs throws else (c, none)
  | .check =>
    if c.place = .delivered then
      if c.ended then ({ c with place := .stopped, wd := asio.cancel c.wd }, none)
      else ({ c with place := .reading }, none)
    else (c, none)
  | .expire => (if asio.expires c.wd then { c with wd := .expired } else c, none)
  | .watchdog => (if c.place.polling then c.onWatchdog else c, none)
  | .leave =>
    if (c.place.polling ∨ c.place = .stopped) ∧
        asio.returns (c.place = .stopped) c.place.busy c.wd then
      ({ c with place := .behind }, none)
    else (c, none)
  | .next => if c.place = .behind then c.reconnect else (c, none)
  | .throws => if c.place.trying then c.reconnect else (c, none)
  | .wake =>
    if c.place = .sleeping then
      ({ c with place := .top, backoffMs := min (c.backoffMs * 2) 15000 }, none)
    else (c, none)

/-! ## What a step can do -/

inductive Moves (c : WsClient) : Event → WsClient × Option Shown → Prop
  | nothing (e : Event) : Moves c e (c, none)
  | stop : Moves c .stop ({ c with stop := true }, none)
  | deadline : Moves c .deadline ({ c with late := true }, none)
  | ends (hp : c.place = .top) (ho : c.ended = true) :
      Moves c .loop ({ c with place := .returned }, none)
  | begins (hp : c.place = .top) (ho : c.ended = false) :
      Moves c .loop ({ c with place := .setup .resolve, wd := .waiting }, none)
  | proceeds {op : Setup} (hp : c.place = .setup op) : Moves c .done (c.proceed op)
  | fails (hp : (∃ op, c.place = .setup op) ∨ c.place = .reading) :
      Moves c .fail (c.failed asio, none)
  | delivers (hp : c.place = .reading) (text : Bytes) (recvTs : Timestamp)
      (response : Option Bytes) (snapTs : Timestamp) (throws : Bool) :
      Moves c (.frame text recvTs response snapTs throws)
        (c.deliver text recvTs response snapTs throws)
  | stops (hp : c.place = .delivered) (ho : c.ended = true) :
      Moves c .check ({ c with place := .stopped, wd := asio.cancel c.wd }, none)
  | reads (hp : c.place = .delivered) (ho : c.ended = false) :
      Moves c .check ({ c with place := .reading }, none)
  | expires (hwd : asio.expires c.wd = true) : Moves c .expire ({ c with wd := .expired }, none)
  | aborted (hp : c.place.polling = true) (hwd : c.wd = .cancelled) :
      Moves c .watchdog ({ c with wd := .off }, none)
  | interrupts (hp : c.place.polling = true) (hwd : c.wd = .expired) (ho : c.ended = true) :
      Moves c .watchdog ({ c with place := .stopped, wd := .off }, none)
  | rearms (hp : c.place.polling = true) (hwd : c.wd = .expired) (ho : c.ended = false) :
      Moves c .watchdog ({ c with wd := .waiting }, none)
  | leaves (hp : c.place.polling = true ∨ c.place = .stopped)
      (hr : asio.returns (c.place = .stopped) c.place.busy c.wd = true) :
      Moves c .leave ({ c with place := .behind }, none)
  | goesOn (hp : c.place = .behind) : Moves c .next c.reconnect
  | catches (hp : c.place.trying = true) : Moves c .throws c.reconnect
  | wakes (hp : c.place = .sleeping) :
      Moves c .wake ({ c with place := .top, backoffMs := min (c.backoffMs * 2) 15000 }, none)

lemma moves (c : WsClient) (e : Event) : Moves asio c e (c.step asio e) := by
  cases e with
  | stop => exact .stop
  | deadline => exact .deadline
  | loop =>
    simp only [step]
    split_ifs with hp ho
    · exact .ends hp ho
    · exact .begins hp (by simpa using ho)
    · exact .nothing _
  | done =>
    simp only [step]
    split
    · next hp => exact .proceeds hp
    · exact .nothing _
  | fail =>
    simp only [step]
    split
    · next op hp => exact .fails (.inl ⟨op, hp⟩)
    · next hp => exact .fails (.inr hp)
    · exact .nothing _
  | frame text recvTs response snapTs throws =>
    simp only [step]
    split_ifs with hp
    · exact .delivers hp text recvTs response snapTs throws
    · exact .nothing _
  | check =>
    simp only [step]
    split_ifs with hp ho
    · exact .stops hp ho
    · exact .reads hp (by simpa using ho)
    · exact .nothing _
  | expire =>
    simp only [step]
    split_ifs with hwd
    · exact .expires hwd
    · exact .nothing _
  | watchdog =>
    by_cases hp : c.place.polling = true
    · simp only [step, onWatchdog, if_pos hp]
      split
      · next hwd => exact .aborted hp hwd
      · next hwd =>
        split_ifs with ho
        · exact .interrupts hp hwd ho
        · exact .rearms hp hwd (by simpa using ho)
      · exact .nothing _
    · simp only [step, if_neg hp]
      exact .nothing _
  | leave =>
    simp only [step]
    split_ifs with hp
    · exact .leaves hp.1 hp.2
    · exact .nothing _
  | next =>
    simp only [step]
    split_ifs with hp
    · exact .goesOn hp
    · exact .nothing _
  | throws =>
    simp only [step]
    split_ifs with hp
    · exact .catches hp
    · exact .nothing _
  | wake =>
    simp only [step]
    split_ifs with hp
    · exact .wakes hp
    · exact .nothing _

/-! ## Stamps -/

variable {asio}

def frames (h : List (Event × Option Shown)) : List Frame :=
  h.filterMap fun x =>
    match x.2 with
    | some (.frame fr) => some fr
    | _ => none

/-- The epoch and the number that a frame comes with. -/
def stamp (fr : Frame) : UInt64 × UInt64 := (fr.connEpoch, fr.connSeq)

/-- Connections with so many frames each, the frames of each one numbered from one on. -/
def stampsOf (counts : List ℕ) : List (UInt64 × UInt64) :=
  counts.zipIdx.flatMap fun x => (List.range x.1).map fun k => (.ofNat x.2, .ofNat (k + 1))

lemma stampsOf_concat (counts : List ℕ) (n : ℕ) :
    stampsOf (counts ++ [n]) =
      stampsOf counts ++ (List.range n).map fun k => (.ofNat counts.length, .ofNat (k + 1)) := by
  simp [stampsOf, List.zipIdx_append]

/-- The frames so far: the connections that are over, and the current one with `n` frames. -/
structure Stamped (h : List (Event × Option Shown)) (c : WsClient) (past : List ℕ) (n : ℕ) :
    Prop where
  stamps : (frames h).map stamp = stampsOf (past ++ [n])
  epoch : c.connEpoch = .ofNat past.length
  reconnects : c.reconnects = .ofNat past.length
  /-- before the handshake there are no frames -/
  fresh : c.place = .top ∨ c.place = .sleeping ∨ (∃ op, c.place = .setup op) → n = 0
  seq : c.place = .reading ∨ c.place = .delivered → c.connSeq = .ofNat n
  /-- each connection and each frame takes a step -/
  le_length : past.length + (past ++ [n]).sum ≤ h.length

/-- A step that shows no frame and stays in the connection. -/
lemma Stamped.quiet {h : List (Event × Option Shown)} {c c' : WsClient} {past : List ℕ} {n : ℕ}
    (hs : Stamped h c past n) {e : Event} {o : Option Shown} (ho : ∀ fr, o ≠ some (.frame fr))
    (hepoch : c'.connEpoch = c.connEpoch) (hreconnects : c'.reconnects = c.reconnects)
    (hfresh : c'.place = .top ∨ c'.place = .sleeping ∨ (∃ op, c'.place = .setup op) →
      c.place = .top ∨ c.place = .sleeping ∨ ∃ op, c.place = .setup op)
    (hseq : c'.place = .reading ∨ c'.place = .delivered → c'.connSeq = .ofNat n) :
    Stamped (h ++ [(e, o)]) c' past n where
  stamps := by
    have hnone : frames [(e, o)] = [] := by
      cases o with
      | none => rfl
      | some shown =>
        cases shown with
        | frame fr => exact absurd rfl (ho fr)
        | _ => rfl
    rw [← hs.stamps, frames, List.filterMap_append, ← frames, ← frames, hnone, List.append_nil]
  epoch := hepoch.trans hs.epoch
  reconnects := hreconnects.trans hs.reconnects
  fresh h := hs.fresh (hfresh h)
  seq := hseq
  le_length := hs.le_length.trans (by simp)

lemma Stamped.reconnect {h : List (Event × Option Shown)} {c : WsClient} {past : List ℕ} {n : ℕ}
    (hs : Stamped h c past n) (e : Event) :
    ∃ past' n', Stamped (h ++ [(e, c.reconnect.2)]) c.reconnect.1 past' n' := by
  rw [WsClient.reconnect]
  split_ifs
  · exact ⟨past, n, hs.quiet (by simp) rfl rfl (by simp) (by simp)⟩
  · refine ⟨past ++ [n], 0, ⟨?_, ?_, ?_, by simp, by simp, ?_⟩⟩
    · have hnone : frames [(e, some (Shown.sleeps c.backoffMs))] = [] := rfl
      rw [frames, List.filterMap_append, ← frames, ← frames, hnone, List.append_nil, hs.stamps,
        stampsOf_concat (past ++ [n])]
      simp
    · simp only [hs.epoch, List.length_append, List.length_singleton, UInt64.ofNat_add]
      rfl
    · simp only [hs.reconnects, List.length_append, List.length_singleton, UInt64.ofNat_add]
      rfl
    · have hle := hs.le_length
      simp only [List.length_append, List.length_singleton, List.sum_append, List.sum_singleton]
        at hle ⊢
      omega

/-- **Every step keeps the frames numbered.** -/
lemma Stamped.step {h : List (Event × Option Shown)} {c : WsClient} {past : List ℕ} {n : ℕ}
    (hs : Stamped h c past n) (e : Event) :
    ∃ past' n', Stamped (h ++ [(e, (c.step asio e).2)]) (c.step asio e).1 past' n' := by
  have hm := c.moves asio e
  generalize c.step asio e = r at hm
  cases hm with
  | nothing => exact ⟨past, n, hs.quiet (by simp) rfl rfl id hs.seq⟩
  | stop => exact ⟨past, n, hs.quiet (by simp) rfl rfl id hs.seq⟩
  | deadline => exact ⟨past, n, hs.quiet (by simp) rfl rfl id hs.seq⟩
  | ends hp => exact ⟨past, n, hs.quiet (by simp) rfl rfl (by simp) (by simp)⟩
  | begins hp => exact ⟨past, n, hs.quiet (by simp) rfl rfl (fun _ => .inl hp) (by simp)⟩
  | @proceeds op hp =>
    have hn := hs.fresh (.inr (.inr ⟨op, hp⟩))
    cases op with
    | handshake =>
      exact ⟨past, n, hs.quiet (by simp [proceed]) rfl rfl (by simp [proceed])
        fun _ => by rw [hn]; rfl⟩
    | _ =>
      exact ⟨past, n, hs.quiet (by simp [proceed]) rfl rfl (fun _ => .inr (.inr ⟨_, hp⟩))
        (by simp [proceed])⟩
  | fails hp =>
    exact ⟨past, n, hs.quiet (by simp) rfl rfl (by simp [failed]) (by simp [failed])⟩
  | delivers hp text recvTs response snapTs throws =>
    -- the next number of the connection
    have hnext : c.connSeq + 1 = .ofNat (n + 1) := by
      rw [hs.seq (.inl hp), UInt64.ofNat_add]
      rfl
    have hstate : (c.deliver text recvTs response snapTs throws).1.connEpoch = c.connEpoch ∧
        (c.deliver text recvTs response snapTs throws).1.reconnects = c.reconnects ∧
        (c.deliver text recvTs response snapTs throws).1.connSeq = c.connSeq + 1 ∧
        (c.deliver text recvTs response snapTs throws).1.place = .delivered := by
      cases throws <;> exact ⟨rfl, rfl, rfl, rfl⟩
    refine ⟨past, n + 1, ⟨?_, hstate.1.trans hs.epoch, hstate.2.1.trans hs.reconnects,
      by simp [hstate.2.2.2], fun _ => hstate.2.2.1.trans hnext, ?_⟩⟩
    swap
    · have hle := hs.le_length
      simp only [List.length_append, List.length_singleton, List.sum_append, List.sum_singleton]
        at hle ⊢
      omega
    rw [frames, List.filterMap_append, ← frames, ← frames, List.map_append, hs.stamps,
      stampsOf_concat, stampsOf_concat, List.range_succ, List.map_append, List.append_assoc]
    have hframe : (frames [(Event.frame text recvTs response snapTs throws,
        (c.deliver text recvTs response snapTs throws).2)]).map stamp =
          [(c.connEpoch, c.connSeq + 1)] := rfl
    rw [hframe, hs.epoch, hnext]
    rfl
  | stops hp => exact ⟨past, n, hs.quiet (by simp) rfl rfl (by simp) (by simp)⟩
  | reads hp => exact ⟨past, n, hs.quiet (by simp) rfl rfl (by simp) fun _ => hs.seq (.inr hp)⟩
  | expires => exact ⟨past, n, hs.quiet (by simp) rfl rfl id hs.seq⟩
  | aborted => exact ⟨past, n, hs.quiet (by simp) rfl rfl id hs.seq⟩
  | interrupts => exact ⟨past, n, hs.quiet (by simp) rfl rfl (by simp) (by simp)⟩
  | rearms => exact ⟨past, n, hs.quiet (by simp) rfl rfl id hs.seq⟩
  | leaves => exact ⟨past, n, hs.quiet (by simp) rfl rfl (by simp) (by simp)⟩
  | goesOn => exact hs.reconnect .next
  | catches => exact hs.reconnect .throws
  | wakes hp =>
    exact ⟨past, n, hs.quiet (by simp) rfl rfl (fun _ => .inr (.inl hp)) (by simp)⟩

lemma stamped_run (es : List Event) :
    ∃ past n, Stamped (run (step asio) {} es).2 (run (step asio) {} es).1 past n :=
  run_induction (P := fun h c => ∃ past n, Stamped h c past n)
    ⟨[], 0, rfl, rfl, rfl, fun _ => rfl, fun _ => rfl, le_refl 0⟩
    (fun _ _ e ⟨_, _, hs⟩ => hs.step e) es

/-- A stamp of an earlier connection, or of an earlier frame of the same one. -/
def Before (a b : UInt64 × UInt64) : Prop := a.1 < b.1 ∨ a.1 = b.1 ∧ a.2 < b.2

lemma mem_stampsOf {counts : List ℕ} {a : UInt64 × UInt64} (h : a ∈ stampsOf counts) :
    ∃ c k, c < counts.length ∧ a = (.ofNat c, .ofNat (k + 1)) := by
  obtain ⟨x, hx, ha⟩ := List.mem_flatMap.mp h
  obtain ⟨k, -, rfl⟩ := List.mem_map.mp ha
  exact ⟨x.2, k, (List.mem_zipIdx' hx).1, rfl⟩

lemma ofNat_lt_ofNat {i j : ℕ} (h : i < j) (hj : j < 2 ^ 64) :
    (UInt64.ofNat i) < .ofNat j := by
  rw [UInt64.lt_iff_toNat_lt, UInt64.toNat_ofNat_of_lt' (h.trans hj),
    UInt64.toNat_ofNat_of_lt' hj]
  exact h

/-- Before the counters wrap around, no two frames have the same stamp. -/
lemma pairwise_stampsOf {counts : List ℕ} (hlength : counts.length ≤ 2 ^ 64)
    (hcounts : ∀ n ∈ counts, n < 2 ^ 64) : (stampsOf counts).Pairwise Before := by
  induction counts using List.reverseRecOn with
  | nil => exact List.Pairwise.nil
  | append_singleton counts n ih =>
    rw [List.length_append, List.length_singleton] at hlength
    rw [stampsOf_concat, List.pairwise_append]
    refine ⟨ih (by omega) fun m hm => hcounts m (List.mem_append_left _ hm), ?_, ?_⟩
    · rw [List.pairwise_map]
      refine List.pairwise_lt_range.imp_of_mem fun {i j} _ hj hlt => .inr ⟨rfl, ?_⟩
      have hn := hcounts n (List.mem_append_right _ (List.mem_singleton_self n))
      have hjn := List.mem_range.mp hj
      exact ofNat_lt_ofNat (by omega) (by omega)
    · intro a ha b hb
      obtain ⟨c, k, hc, rfl⟩ := mem_stampsOf ha
      obtain ⟨k', -, rfl⟩ := List.mem_map.mp hb
      exact .inl (ofNat_lt_ofNat hc (by omega))

lemma pairwise_stamps {es : List Event} (hes : es.length < 2 ^ 64) :
    (frames (run (step asio) {} es).2).Pairwise fun a b => Before (stamp a) (stamp b) := by
  obtain ⟨past, n, hs⟩ := stamped_run es
  have hlength : (run (step asio) {} es).2.length = es.length := by
    rw [← List.length_map Prod.fst, run_inputs]
  have hle := hs.le_length
  rw [← List.pairwise_map (f := stamp), hs.stamps]
  refine pairwise_stampsOf (by simp; omega) fun m hm => ?_
  have := List.single_le_sum (fun _ _ => Nat.zero_le _) m hm
  omega

/-! ## Back-off -/

def shown (h : List (Event × Option Shown)) : List Shown := h.filterMap Prod.snd

/-- The sleeps since the last handshake. -/
def failures (l : List Shown) : ℕ :=
  l.foldl (fun k o => match o with
    | .opened => 0
    | .sleeps _ => k + 1
    | .frame _ => k) 0

/-- The back-off after so many failures. -/
def backoff (k : ℕ) : ℕ := min (1000 * 2 ^ k) 15000

lemma backoff_succ (k : ℕ) : min (backoff k * 2) 15000 = backoff (k + 1) := by
  simp only [backoff, pow_succ]
  omega

/-- Every sleep so far, and the next one. -/
structure BackedOff (l : List Shown) (c : WsClient) : Prop where
  next : c.backoffMs = backoff (if c.place = .sleeping then failures l - 1 else failures l)
  slept : c.place = .sleeping → failures l ≠ 0
  all : ∀ pre ms post, l = pre ++ .sleeps ms :: post → ms = backoff (failures pre)

lemma shown_concat (h : List (Event × Option Shown)) (e : Event) (o : Option Shown) :
    shown (h ++ [(e, o)]) = shown h ++ o.toList := by
  cases o <;> simp [shown]

/-- A step that shows nothing, and is not about the sleep. -/
lemma BackedOff.quiet {l : List Shown} {c c' : WsClient} (hb : BackedOff l c)
    (hms : c'.backoffMs = c.backoffMs)
    (hplace : c'.place = .sleeping ↔ c.place = .sleeping) :
    BackedOff (l ++ (none : Option Shown).toList) c' where
  next := by
    rw [Option.toList_none, List.append_nil, hms, hb.next]
    simp only [hplace]
  slept := by
    rw [Option.toList_none, List.append_nil, hplace]
    exact hb.slept
  all := by
    rw [Option.toList_none, List.append_nil]
    exact hb.all

lemma sleeps_concat {l : List Shown} (hall : ∀ pre ms post, l = pre ++ .sleeps ms :: post →
      ms = backoff (failures pre)) {o : Shown}
    (ho : ∀ ms, o = .sleeps ms → ms = backoff (failures l)) :
    ∀ pre ms post, l ++ [o] = pre ++ .sleeps ms :: post → ms = backoff (failures pre) := by
  intro pre ms post heq
  rcases List.eq_nil_or_concat post with rfl | ⟨post, o', rfl⟩
  · obtain ⟨rfl, ho'⟩ := List.append_inj' heq rfl
    exact ho ms (List.singleton_inj.mp ho')
  · rw [List.concat_eq_append, ← List.cons_append, ← List.append_assoc] at heq
    exact hall pre ms post (List.append_inj' heq rfl).1

lemma BackedOff.reconnect {l : List Shown} {c : WsClient} (hb : BackedOff l c)
    (hp : c.place.trying = true) : BackedOff (l ++ c.reconnect.2.toList) c.reconnect.1 := by
  have hne : c.place ≠ .sleeping := fun h => by simp [h, Place.trying] at hp
  have hnext := hb.next
  rw [if_neg hne] at hnext
  rw [WsClient.reconnect]
  split_ifs
  · exact hb.quiet rfl (by simp [hne])
  · have hfailures : failures (l ++ [Shown.sleeps c.backoffMs]) = failures l + 1 := by
      simp [failures]
    refine ⟨?_, fun _ => ?_, sleeps_concat hb.all ?_⟩
    · simp only [Option.toList_some, if_true, hfailures, Nat.add_sub_cancel]
      exact hnext
    · simp only [Option.toList_some, hfailures]
      omega
    · rintro ms ⟨⟩
      exact hnext

/-- **Every step sleeps as long as the failures say.** -/
lemma BackedOff.step {l : List Shown} {c : WsClient} (hb : BackedOff l c) (e : Event) :
    BackedOff (l ++ (c.step asio e).2.toList) (c.step asio e).1 := by
  have hm := c.moves asio e
  generalize c.step asio e = r at hm
  cases hm with
  | @proceeds op hp =>
    cases op with
    | handshake =>
      have hzero : failures (l ++ [Shown.opened]) = 0 := by simp [failures]
      refine ⟨?_, by simp [proceed], sleeps_concat hb.all (by simp)⟩
      simp [proceed, hzero, backoff]
    | _ => exact hb.quiet rfl (by simp [proceed, hp])
  | delivers hp text recvTs response snapTs throws =>
    have hnext := hb.next
    rw [if_neg (by simp [hp])] at hnext
    have hfailures : ∀ fr, failures (l ++ [Shown.frame fr]) = failures l := fun fr => by
      simp [failures]
    cases throws <;>
      exact ⟨by simpa [deliver, hfailures] using hnext, by simp [deliver],
        sleeps_concat hb.all (by simp)⟩
  | goesOn hp => exact hb.reconnect (by simp [hp, Place.trying])
  | catches hp => exact hb.reconnect hp
  | wakes hp =>
    obtain ⟨k, hk⟩ := Nat.exists_eq_succ_of_ne_zero (hb.slept hp)
    have hnext := hb.next
    rw [if_pos hp, hk, Nat.succ_sub_one] at hnext
    refine ⟨?_, by simp, by simpa using hb.all⟩
    simp only [Option.toList_none, List.append_nil, hnext, hk, backoff_succ]
    rfl
  | nothing => exact hb.quiet rfl Iff.rfl
  | stop => exact hb.quiet rfl Iff.rfl
  | deadline => exact hb.quiet rfl Iff.rfl
  | ends hp => exact hb.quiet rfl (by simp [hp])
  | begins hp => exact hb.quiet rfl (by simp [hp])
  | fails hp => exact hb.quiet rfl (by rcases hp with ⟨op, hp⟩ | hp <;> simp [failed, hp])
  | stops hp => exact hb.quiet rfl (by simp [hp])
  | reads hp => exact hb.quiet rfl (by simp [hp])
  | expires => exact hb.quiet rfl Iff.rfl
  | aborted => exact hb.quiet rfl Iff.rfl
  | interrupts hp =>
    exact hb.quiet rfl (by simp; rintro h; simp [h, Place.polling] at hp)
  | rearms => exact hb.quiet rfl Iff.rfl
  | leaves hp =>
    exact hb.quiet rfl (by simp; rintro h; simp [h, Place.polling] at hp)

/-! ## Results -/

variable (asio)

/-- **The frames of a client are numbered**: the connections one after the other, and the frames
of each from one on; and the counter of reconnects is the number of the current connection. -/
theorem stamps_run (es : List Event) :
    let r := run (step asio) {} es
    ∃ counts, counts ≠ [] ∧ (frames r.2).map stamp = stampsOf counts ∧
      r.1.connEpoch = .ofNat (counts.length - 1) ∧
      r.1.reconnects = .ofNat (counts.length - 1) := by
  obtain ⟨past, n, hs⟩ := stamped_run es
  exact ⟨past ++ [n], by simp, hs.stamps, by simpa using hs.epoch, by simpa using hs.reconnects⟩

/-- **The back-off doubles** with every failure since the last handshake, up to 15 seconds. -/
theorem backoff_run (es : List Event) (pre : List Shown) (ms : ℕ) (post : List Shown)
    (h : shown (run (step asio) {} es).2 = pre ++ .sleeps ms :: post) :
    ms = min (1000 * 2 ^ failures pre) 15000 := by
  have hrun := @run_induction _ _ _ (step asio) (fun h c => BackedOff (shown h) c) {}
    ⟨rfl, by simp, by simp [shown]⟩
    (fun h c e hb => by simpa only [shown_concat] using hb.step e) es
  exact hrun.all pre ms post h

/-- A set-up that fails, and another one in which an exception is thrown. -/
theorem backoff_run_twice :
    let es := [.loop, .fail, .watchdog, .leave, .next, .wake, .loop, .throws]
    shown (run (step boostAsio) {} es).2 = [.sleeps 1000, .sleeps 2000] ∧
      2000 = min (1000 * 2 ^ failures [.sleeps 1000]) 15000 :=
  ⟨rfl, backoff_run boostAsio [.loop, .fail, .watchdog, .leave, .next, .wake, .loop, .throws]
    [.sleeps 1000] 2000 [] rfl⟩

end WsClient

end LobCapture
