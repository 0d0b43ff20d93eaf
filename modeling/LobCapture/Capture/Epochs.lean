/-
# One connection at a time

A row of the diff book shows a book whose snapshot and whose diffs have all come with the
connection of the message that the row is about.  An emitter keeps this as long as it is
invalidated before the first message of another connection reaches it.
-/
import LobCapture.Capture.ReplaySymbol
import LobCapture.Capture.Rows

namespace LobCapture

open Lib BookSession

variable {α : Type*}

/-- The row shows a book that is ready and has come with one connection, that of the message
which the row is about. -/
structure Sight.OneEpoch (epoch : α → UInt64) (z : Sight α) : Prop where
  initialized : z.session.initialized = true
  ready : z.session.resyncPending = false
  seed : ∃ m, z.seed = some m ∧ epoch m = epoch z.about
  since : ∀ m ∈ z.since, epoch m = epoch z.about

namespace Emitter

variable {x : Emitter × Origins α} {epoch : α → UInt64}

/-- A message finds an emitter that holds what has come with its connection, or invalidates it
first. -/
lemma all_entering {m : α} {pre acts : List Action}
    (hpre : pre = [] ∧ x.2.All (fun l => epoch l = epoch m) ∨ pre = [.invalidate]) :
    let is := (pre ++ acts).map fun a => (m, a)
    (run track x is).1.2.All (fun l => epoch l = epoch m) ∧
      ∀ h ∈ (run track x is).2, ∀ z ∈ h.2, z.All fun l => epoch l = epoch h.1.1 := by
  have hacts : ∀ {x : Emitter × Origins α} (_ : x.2.All fun l => epoch l = epoch m),
      let is := acts.map fun a => (m, a)
      (run track x is).1.2.All (fun l => epoch l = epoch m) ∧
        ∀ h ∈ (run track x is).2, ∀ z ∈ h.2, z.All fun l => epoch l = epoch h.1.1 := by
    intro x hx is
    have his : ∀ i ∈ is, i.1 = m := by
      intro i hi
      obtain ⟨a, -, rfl⟩ := List.mem_map.mp hi
      rfl
    obtain ⟨hend, hrows⟩ := all_run hx fun i hi => congrArg epoch (his i hi)
    refine ⟨hend, fun h hh => ?_⟩
    have hmem : h.1 ∈ is := by
      rw [← run_inputs track x is]
      exact List.mem_map_of_mem hh
    rw [his _ hmem]
    exact hrows h hh
  rcases hpre with ⟨rfl, hx⟩ | rfl
  · exact hacts hx
  · -- nothing is left of what was there before
    obtain ⟨hend, hrows⟩ := hacts (x := (track x (m, .invalidate)).1) Origins.All.empty
    refine ⟨hend, ?_⟩
    rintro h (_ | ⟨_, hh⟩)
    · exact fun z hz => absurd hz List.not_mem_nil
    · exact hrows h hh

/-- Rows that show a book of one connection, in a run from the start. -/
lemma oneEpoch_of_all (hx : Sound x) {is : List (α × Action)}
    (hall : ∀ h ∈ (run track x is).2, ∀ z ∈ h.2, z.All fun l => epoch l = epoch h.1.1) :
    ∀ z ∈ (run track x is).2.flatMap Prod.snd, z.OneEpoch epoch := by
  intro z hz
  obtain ⟨h, hh, hz⟩ := List.mem_flatMap.mp hz
  obtain ⟨hs, m, hm⟩ := synced_run hx is h hh z hz
  have hz' := hall h hh z hz
  refine ⟨hs.2, hs.1, ⟨m, hm, ?_⟩, fun l hl => ?_⟩
  · rw [hz'.seed m hm, hz'.about]
  · rw [hz'.since l hl, hz'.about]

end Emitter

/-! ## Live -/

section Live

variable {parse : Bytes → Option DepthEvent} {cfg : Config} {y : Bytes} {frames : List Frame}

/-- The epoch of a message. -/
def messageEpoch (x : Frame × Message) : UInt64 := x.1.connEpoch

/-- What the state of a symbol and its emitter have to do with each other, with the messages
that are left. -/
structure LiveEpoch (xs : List (Frame × Message)) (st : SymState)
    (t : Emitter × Origins (Frame × Message)) : Prop where
  same : t.2.All fun m => messageEpoch m = st.lastEpoch
  before : t.2.All fun m => ∀ x ∈ xs, messageEpoch m ≤ messageEpoch x
  later : xs.Pairwise fun a b => messageEpoch a ≤ messageEpoch b

/-- The emitter is invalidated in time: an epoch that is not noticed is the first one. -/
lemma LiveEpoch.next {x : Frame × Message} {xs : List (Frame × Message)} {st : SymState}
    {t : Emitter × Origins (Frame × Message)} (h : LiveEpoch (x :: xs) st t) :
    let is := (st.actions parse cfg x).map fun a => (x, a)
    LiveEpoch xs (st.step parse cfg x).1 (run Emitter.track t is).1 ∧
      ∀ h ∈ (run Emitter.track t is).2, ∀ z ∈ h.2,
        z.All fun m => messageEpoch m = messageEpoch h.1.1 := by
  intro is
  have hpre : st.entering x.1.connEpoch = [] ∧
        t.2.All (fun m => messageEpoch m = messageEpoch x) ∨
      st.entering x.1.connEpoch = [.invalidate] := by
    rw [SymState.entering]
    split_ifs with hp
    · exact .inr rfl
    refine .inl ⟨rfl, (h.same.and h.before).imp fun m hm => ?_⟩
    have hle := hm.2 x List.mem_cons_self
    by_cases hlast : st.lastEpoch = x.1.connEpoch
    · exact hm.1.trans hlast
    · -- no epoch is larger than the one that stands for none
      have hno : st.lastEpoch = noEpoch := by
        by_contra hno
        exact hp ⟨hlast, hno⟩
      exact le_antisymm hle (by rw [hm.1, hno]; exact le_noEpoch _)
  obtain ⟨hend, hrows⟩ := Emitter.all_entering hpre
  obtain ⟨hfirst, hlater⟩ := List.pairwise_cons.mp h.later
  refine ⟨⟨hend.imp fun m hm => ?_, hend.imp fun m hm z hz => ?_, hlater⟩, hrows⟩
  · rw [hm, SymState.step, SymState.lastEpoch_onMessage]
    rfl
  · rw [hm]
    exact hfirst z hz

/-- The rows of a live run that show the diff book. -/
lemma live_oneEpoch (h : frames.Pairwise fun a b => a.connEpoch ≤ b.connEpoch) :
    ∀ z ∈ (liveTrack parse cfg y frames).2.flatMap Prod.snd, z.OneEpoch messageEpoch := by
  refine Emitter.oneEpoch_of_all (Emitter.sound_new cfg.venue y) ?_
  have hxs : (handled parse cfg y frames).Pairwise fun a b => messageEpoch a ≤ messageEpoch b :=
    (pairwise_entries h).filter _
  exact (outputs_induction (R := LiveEpoch) (fun x xs st t hR => hR.next)
    ⟨Origins.All.empty, Origins.All.empty, hxs⟩).2

end Live

/-! ## Replay -/

section Replay

variable {parse : Bytes → Option DepthEvent} {cfg : Config} {y : Bytes} {b : Bool}

variable (parse cfg y) in
/-- The emitter of a symbol in a replay, with the rows that its rows and its book have come
from. -/
def replayTrack (md : Bytes) (sidecar : Option Bytes) :
    (Emitter × Origins Row) × List ((Row × Action) × List (Sight Row)) :=
  run Emitter.track (.new cfg.venue y, {})
    (replayActions parse cfg sidecar.isSome
      (.new cfg y, (Replay.new parse sidecar).snaps y) (fileRows y md))

/-- The emitter of a symbol after a replay. -/
lemma book_toEmitter (md : Bytes) (sidecar : Option Bytes) :
    ((runReplay parse cfg md sidecar).1.book cfg y).toEmitter =
      (replayTrack parse cfg y md sidecar).1.1 := by
  rw [book_runReplay]
  refine (outputs_induction
    (R := fun _ (s : SymReplay × List DepthEvent) (t : Emitter × _) => s.1.toEmitter = t.1)
    (Q := fun _ => True) (fun row _ s t hR => ⟨?_, by simp⟩) rfl).1
  rw [Emitter.run_track, List.map_map, ← hR]
  exact (SymReplay.step_actions s row).trans (by rw [Function.comp_def, List.map_id'])

/-- A replay invalidates the book at every change of the epoch. -/
lemma replay_next {row : Row} {s : SymReplay × List DepthEvent} {t : Emitter × Origins Row}
    (h : t.2.All fun r => s.1.epoch = some r.connEpoch) :
    let is := (SymReplay.actions parse cfg b s row).map fun a => (row, a)
    (run Emitter.track t is).1.2.All
        (fun r => (SymReplay.step parse cfg b s row).1.1.epoch = some r.connEpoch) ∧
      ∀ h ∈ (run Emitter.track t is).2, ∀ z ∈ h.2,
        z.All fun r => r.connEpoch = h.1.1.connEpoch := by
  intro is
  have hpre : s.1.entering row.connEpoch = [] ∧
        t.2.All (fun r => r.connEpoch = row.connEpoch) ∨
      s.1.entering row.connEpoch = [.invalidate] := by
    rw [SymReplay.entering]
    cases he : s.1.epoch with
    | none => exact .inl ⟨rfl, h.imp fun r hr => by simp [he] at hr⟩
    | some e =>
      by_cases hne : e = row.connEpoch
      · refine .inl ⟨by simp [hne], h.imp fun r hr => ?_⟩
        rw [he] at hr
        rw [← Option.some.inj hr, hne]
      · exact .inr (by simp [hne])
  obtain ⟨hend, hrows⟩ := Emitter.all_entering hpre
  refine ⟨hend.imp fun r hr => ?_, hrows⟩
  rw [hr]
  exact SymReplay.epoch_onRow b row s.2

/-- The rows of a replay that show the diff book. -/
lemma replay_oneEpoch (md : Bytes) (sidecar : Option Bytes) :
    ∀ z ∈ (replayTrack parse cfg y md sidecar).2.flatMap Prod.snd, z.OneEpoch Row.connEpoch := by
  refine Emitter.oneEpoch_of_all (Emitter.sound_new cfg.venue y) ?_
  exact (outputs_induction (R := fun _ (s : SymReplay × List DepthEvent) t =>
      t.2.All fun r : Row => s.1.epoch = some r.connEpoch)
    (fun row _ s t hR => replay_next hR) Origins.All.empty).2

end Replay

/-! ## Result -/

/-- The rows of diffs and trades in a file that has been kept track of. -/
lemma Emitter.body_track_new (v : Venue) (y : Bytes) (is : List (α × Action)) :
    ((run track ((new v y, {}) : Emitter × Origins α) is).1.1.rows.filter fun r =>
        r.type = 'D' ∨ r.type = 'T').map ObRow.unnumbered =
      ((run track ((new v y, {}) : Emitter × Origins α) is).2.flatMap Prod.snd).map
        Sight.row := by
  have hx := sound_new (α := α) v y
  refine (filter_body (fun t => decide (t = 'D' ∨ t = 'T')) _).trans ?_
  refine (body_filter hx rfl (p := fun t => decide (t = 'D' ∨ t = 'T')) rfl is).trans ?_
  refine congrArg _ (List.filter_eq_self.mpr fun z hz => ?_)
  obtain ⟨h, hh, hz⟩ := List.mem_flatMap.mp hz
  simpa using type_run hx is h hh z hz

/-- **Fail closed, one connection at a time.** Every row of a diff or a trade, live or in a
replay, shows a book that is ready and has come with one connection. -/
theorem rows_of_one_epoch (parse : Bytes → Option DepthEvent) (cfg : Config) (y : Bytes)
    (frames : List Frame) (h : frames.Pairwise fun a b => a.connEpoch ≤ b.connEpoch)
    (rcfg : Config) (md : Bytes) (sidecar : Option Bytes) :
    (((((runShard parse cfg frames).1.sym y).rows.filter fun r =>
          r.type = 'D' ∨ r.type = 'T').map ObRow.unnumbered =
        ((liveTrack parse cfg y frames).2.flatMap Prod.snd).map Sight.row) ∧
      ∀ z ∈ (liveTrack parse cfg y frames).2.flatMap Prod.snd, z.OneEpoch messageEpoch) ∧
    ((((runReplay parse rcfg md sidecar).1.rows y).filter fun r =>
          r.type = 'D' ∨ r.type = 'T').map ObRow.unnumbered =
        ((replayTrack parse rcfg y md sidecar).2.flatMap Prod.snd).map Sight.row) ∧
      ∀ z ∈ (replayTrack parse rcfg y md sidecar).2.flatMap Prod.snd,
        z.OneEpoch Row.connEpoch := by
  refine ⟨⟨?_, live_oneEpoch h⟩, ?_, replay_oneEpoch md sidecar⟩
  · rw [sym_toEmitter]
    exact Emitter.body_track_new cfg.venue y _
  · rw [Replay.rows_eq rcfg, book_toEmitter]
    exact Emitter.body_track_new rcfg.venue y _

/-- Two connections with a snapshot and a diff each, and a trade on the second one. -/
def reseededRun : List Frame :=
  let trade : Frame := { diffFrame 1 "" none with
    text := lit "\x7b\"stream\":\"a@trade\",\"data\":\x7b\x7d\x7d" }
  seededRun ++
    [diffFrame 1 "\"U\":6,\"u\":7"
        (some "\x7b\"lastUpdateId\":7,\"bids\":[[\"1\",\"2\"]],\"asks\":[]\x7d"),
      diffFrame 1 "\"U\":8,\"u\":9" none, trade]

theorem rows_of_one_epoch_reseeded :
    let files := (runShard parseDepth oneSymbol reseededRun).1
    let live := (liveTrack parseDepth oneSymbol (lit "A") reseededRun).2.flatMap Prod.snd
    let replayed :=
      (replayTrack parseDepth oneSymbol (lit "A") files.md (some files.snaps)).2.flatMap Prod.snd
    (live.map fun z => (z.type, messageEpoch z.about)) = [('D', 0), ('D', 1), ('T', 1)] ∧
      (replayed.map fun z => (z.type, z.about.connEpoch)) = [('D', 0), ('D', 1), ('T', 1)] ∧
      (∀ z ∈ live, z.OneEpoch messageEpoch) ∧ ∀ z ∈ replayed, z.OneEpoch Row.connEpoch := by
  intro files live replayed
  have h := rows_of_one_epoch parseDepth oneSymbol (lit "A") reseededRun (by decide +kernel)
    oneSymbol files.md (some files.snaps)
  exact ⟨by decide +kernel, by decide +kernel, h.1.2, h.2.2⟩

end LobCapture
