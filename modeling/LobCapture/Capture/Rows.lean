/-
# The rows of a symbol's file

The diff rows of a live run are those of the diffs applied to the book, the depth5 rows those of
the depth5 messages, and all rows are numbered in one go.
-/
import LobCapture.Capture.Symbol

namespace LobCapture

open Lib BookSession

variable (parse : Bytes → Option DepthEvent) (cfg : Config) (y : Bytes) (frames : List Frame)

/-- The calls that the handler makes to the session of a symbol. -/
def sessionCalls : List Call :=
  Emitter.calls (symbolActions parse cfg (.new cfg y) (handled parse cfg y frames))

/-- The diffs that are applied to the book of a symbol, each with the book right after it. -/
def appliedDiffs : List (DepthEvent × OrderBook) :=
  outputs BookSession.step appliedBooks (.new (deriveId y) cfg.venue)
    (sessionCalls parse cfg y frames)

/-- The emitter of a symbol, with the messages that its rows and its book have come from. -/
def liveTrack :
    (Emitter × Origins (Frame × Message)) ×
      List (((Frame × Message) × Action) × List (Sight (Frame × Message))) :=
  run Emitter.track (.new cfg.venue y, {})
    (symbolActions parse cfg (.new cfg y) (handled parse cfg y frames))

variable {parse cfg y frames} {x : Frame × Message}

/-- The emitter of a symbol after a live run. -/
lemma sym_toEmitter :
    ((runShard parse cfg frames).1.sym y).toEmitter = (liveTrack parse cfg y frames).1.1 := by
  rw [sym_runShard, symbolRun_toEmitter]
  rfl

lemma mainAction_diff {ts : Timestamp} {ev : DepthEvent}
    (h : mainAction cfg x = some (.diff ts ev)) :
    x.2.kind = .depthDiff ∧ x.2.event = some ev ∧ ts = x.2.ts := by
  rw [mainAction] at h
  split at h
  · next hk hev =>
    obtain ⟨rfl, rfl⟩ : x.2.ts = ts ∧ _ = ev := by simpa using h
    exact ⟨hk, hev, rfl⟩
  · exact absurd h (by simp)
  · split_ifs at h
    exact absurd h (by simp)
  · exact absurd h (by simp)

/-- Every diff carries the event and the time of its message. -/
lemma stamped_symbolActions {i : (Frame × Message) × Action}
    (hi : i ∈ symbolActions parse cfg (.new cfg y) (handled parse cfg y frames)) :
    Emitter.Stamped (fun x => x.2.event) i := by
  obtain ⟨x, a⟩ := i
  cases a with
  | diff ts ev =>
    -- a diff is the main action of its message
    let f : (Frame × Message) × Action → List ((Frame × Message) × Action) := fun i =>
      (Emitter.labelledDiff i).map fun _ => i
    have hmem : (x, Action.diff ts ev) ∈
        (symbolActions parse cfg (.new cfg y) (handled parse cfg y frames)).flatMap f :=
      List.mem_flatMap.mpr ⟨_, hi, List.mem_singleton.mpr rfl⟩
    rw [flatMap_symbolActions (fun _ => rfl) (fun _ _ => rfl)] at hmem
    obtain ⟨z, hz, hmem⟩ := List.mem_flatMap.mp hmem
    obtain ⟨a, ha, hmem⟩ := List.mem_flatMap.mp hmem
    obtain ⟨-, -, heq⟩ := List.mem_map.mp hmem
    obtain ⟨rfl, rfl⟩ := Prod.mk.inj heq
    obtain ⟨hk, hev, rfl⟩ := mainAction_diff (Option.mem_toList.mp ha)
    exact ⟨hev, (of_mem_handled hz).2.2.appliedTime (by simp [hk]) hev⟩
  | _ => trivial

/-- The messages of the diffs that have been applied. -/
lemma own_diffs :
    let ds := Emitter.diffSights (liveTrack parse cfg y frames).2
    (ds.map (·.about)).Sublist
        ((handled parse cfg y frames).filter (·.2.kind = .depthDiff)) ∧
      ∀ z ∈ ds, ∃ ev, z.about.2.event = some ev ∧ z.ts = ev.appliedTime ∧
        ev.appliedTime = z.about.2.ts := by
  intro ds
  have hsound := Emitter.sound_new (α := Frame × Message) cfg.venue y
  have hsub : (ds.map (·.about)).Sublist
      ((handled parse cfg y frames).filter (·.2.kind = .depthDiff)) := by
    have hdiffs := Emitter.diffSights_sublist hsound rfl
      (symbolActions parse cfg (.new cfg y) (handled parse cfg y frames))
    rwa [diffs_symbolActions _ fun x hx => (of_mem_handled hx).2.1] at hdiffs
  refine ⟨hsub, fun z hz => ?_⟩
  obtain ⟨ev, hev, hts⟩ := (Emitter.diffSights_stamped hsound rfl
    fun i hi => stamped_symbolActions hi).2.1 z hz
  obtain ⟨hmem, hkind⟩ := List.mem_filter.mp (hsub.subset (List.mem_map_of_mem hz))
  have hk : z.about.2.kind = .depthDiff := by simpa using hkind
  exact ⟨ev, hev, hts, (of_mem_handled hmem).2.2.appliedTime (by simp [hk]) hev⟩

/-- What the rows of the applied diffs say about these. -/
lemma diffRows :
    let ds := Emitter.diffSights (liveTrack parse cfg y frames).2
    let applied := appliedDiffs parse cfg y frames
    ds.map Sight.row = applied.map (fun z => bookRow z.1.appliedTime 'D' z.2) ∧
      ds.map (fun z => z.about.2.event) = applied.map (fun z => some z.1) ∧
      ds.map (fun z => z.about.2.ts) = applied.map (·.1.appliedTime) := by
  intro ds applied
  have hbooks : ds.map (fun z => (z.about.2.event, z.session.ob)) =
      applied.map fun z => (some z.1, z.2) :=
    (Emitter.diffSights_stamped (Emitter.sound_new (α := Frame × Message) cfg.venue y) rfl
      fun i hi => @stamped_symbolActions parse cfg y frames _ hi).2.2
  have hown := (@own_diffs parse cfg y frames).2
  -- each of the lists is read off the events and the books
  have hmap : ∀ {β : Type} (f : Option DepthEvent × OrderBook → β),
      ds.map (fun z => f (z.about.2.event, z.session.ob)) =
        applied.map fun z => f (some z.1, z.2) := by
    intro β f
    have hf := congrArg (List.map f) hbooks
    rwa [List.map_map, List.map_map] at hf
  refine ⟨?_, hmap Prod.fst, ?_⟩
  · refine Eq.trans (List.map_congr_left fun z hz => ?_)
      (hmap fun p => bookRow ((p.1.map (·.appliedTime)).getD {}) 'D' p.2)
    obtain ⟨ev, hev, hts, -⟩ := hown z hz
    have htype : z.type = 'D' := by simpa using (List.mem_filter.mp hz).2
    rw [Sight.row, hev, hts, htype]
    rfl
  · refine Eq.trans (List.map_congr_left fun z hz => ?_)
      (hmap fun p => (p.1.map (·.appliedTime)).getD {})
    obtain ⟨ev, hev, -, hts⟩ := hown z hz
    rw [hev, ← hts]
    rfl

/-- The rows of depth5 events are those of the depth5 messages. -/
lemma checkpointRows (xs : List (Frame × Message)) (id : Int32) :
    ((symbolActions parse cfg (.new cfg y) xs).map Prod.snd).filterMap (Emitter.checkpoint id) =
      xs.filterMap fun x => match x.2.kind, x.2.event with
        | .depth5, some ev => some (depth5Row x.2.ts id ev)
        | _, _ => none := by
  rw [List.filterMap_eq_flatMap_toList, List.flatMap_map,
    flatMap_symbolActions (fun _ => rfl) (fun _ _ => rfl), List.filterMap_eq_flatMap_toList]
  refine List.flatMap_congr fun x _ => ?_
  rw [mainAction]
  cases x.2.kind with
  | depthDiff => cases x.2.event <;> rfl
  | depth5 => cases x.2.event <;> rfl
  | trade => by_cases ht : cfg.integrateTrades <;> simp [ht, Emitter.checkpoint]

/-- **One row per applied diff.** -/
theorem one_row_per_applied_diff (parse : Bytes → Option DepthEvent) (cfg : Config) (y : Bytes)
    (frames : List Frame) :
    let st := (runShard parse cfg frames).1.sym y
    let messages := handled parse cfg y frames
    let applied := appliedDiffs parse cfg y frames
    st.sess = (run BookSession.step (.new (deriveId y) cfg.venue)
        (sessionCalls parse cfg y frames)).1 ∧
      (st.rows.filter (·.type = 'D')).map ObRow.unnumbered =
        applied.map (fun z => bookRow z.1.appliedTime 'D' z.2) ∧
      (∃ own : List (Frame × Message),
        own.Sublist (messages.filter (·.2.kind = .depthDiff)) ∧
        own.map (·.2.event) = applied.map (fun z => some z.1) ∧
        own.map (·.2.ts) = applied.map (·.1.appliedTime)) ∧
      (st.rows.filter (·.type = 'S')).map ObRow.unnumbered =
        messages.filterMap (fun x => match x.2.kind, x.2.event with
          | .depth5, some ev => some (depth5Row x.2.ts (deriveId y) ev)
          | _, _ => none) ∧
      st.rows.map ObRow.seqNo = (List.range st.rows.length).map fun i => .ofNat (i + 1) := by
  intro st messages applied
  have hemit : st.toEmitter = (liveTrack parse cfg y frames).1.1 := sym_toEmitter
  have hsound := Emitter.sound_new (α := Frame × Message) cfg.venue y
  obtain ⟨hrows, hevents, htimes⟩ :=
    @diffRows parse cfg y frames
  refine ⟨?_, ?_, ⟨_, own_diffs.1, ?_, ?_⟩, ?_, ?_⟩
  · rw [hemit]
    exact (Emitter.diffSights_stamped hsound rfl fun i hi => stamped_symbolActions hi).1
  · rw [← hrows, Emitter.filter_body (· = 'D'), hemit]
    exact Emitter.body_filter hsound rfl (p := (· = 'D')) rfl _
  · rw [List.map_map]
    exact hevents
  · rw [List.map_map]
    exact htimes
  · rw [Emitter.filter_body (· = 'S'), hemit, liveTrack, Emitter.run_track]
    refine (Emitter.checkpoints_run _ _).trans ?_
    exact checkpointRows messages (deriveId y)
  · rw [hemit, liveTrack, Emitter.run_track]
    exact (Emitter.numbered_run (Emitter.numbered_new cfg.venue y) _).2

end LobCapture
