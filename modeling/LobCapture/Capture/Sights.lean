/-
# What the rows of the diff book show

The actions of a driver carry labels, the messages that cause them.  A run over labelled actions
keeps for every row of the diff book the session at the moment of the row and the labels of all
that has gone into its book.
-/
import LobCapture.Capture.Actions

namespace LobCapture

open Lib BookSession

variable {α : Type*}

/-- A row that shows the diff book. -/
structure Sight (α : Type*) where
  ts : Timestamp
  type : Char
  /-- the label of the message that the row is about -/
  about : α
  /-- the session when the row is written -/
  session : BookSession
  /-- the label of the snapshot in the book -/
  seed : Option α
  /-- the labels of the diffs applied since the snapshot -/
  since : List α

/-- The row, without its number. -/
def Sight.row (x : Sight α) : ObRow := bookRow x.ts x.type x.session.ob

/-- The time in the row of a diff that an action applies: the handler takes that of the message,
the callback that of the event. -/
def Action.rowTime : Action → DepthEvent → Timestamp
  | .diff ts _, _ => ts
  | _, ev => ev.appliedTime

/-- What holds of the label of the message that a row is about and of the labels of all that has
gone into its book. -/
structure Sight.All (P : α → Prop) (z : Sight α) : Prop where
  about : P z.about
  seed : ∀ b ∈ z.seed, P b
  since : ∀ b ∈ z.since, P b

/-- What the row of an applied diff shows. -/
def BookSession.Application.sight (act : Action) (z : Application α) : Sight α :=
  ⟨act.rowTime z.event, 'D', z.origin, z.session, z.seed, z.since⟩

namespace Emitter

/-- The diffs that a labelled action applies. -/
def applications (x : Emitter × Origins α) (i : α × Action) : List (Application α) :=
  match i.2.call with
  | some c => (x.2.track x.1.sess i.1 c).2
  | none => []

/-- What the row of a trade shows, if there is one. -/
def tradeSights (x : Emitter × Origins α) (i : α × Action) : List (Sight α) :=
  match i.2 with
  | .trade ts =>
    if x.1.sess.initialized = false ∨ x.1.sess.resyncPending = true then []
    else [⟨ts, 'T', i.1, x.1.sess, x.2.seed, x.2.since⟩]
  | _ => []

/-- What the rows of a labelled action show. -/
def sights (x : Emitter × Origins α) (i : α × Action) : List (Sight α) :=
  (applications x i).map (·.sight i.2) ++ tradeSights x i

/-- One labelled action. -/
def track (x : Emitter × Origins α) (i : α × Action) : (Emitter × Origins α) × List (Sight α) :=
  ((x.1.act i.2,
      match i.2.call with
      | some c => (x.2.track x.1.sess i.1 c).1
      | none => x.2),
    sights x i)

/-- What holds of an emitter with its labels between two actions. -/
structure Sound (x : Emitter × Origins α) : Prop where
  inv : x.1.sess.Inv
  tracks : Tracks x.2 x.1.sess

variable {x : Emitter × Origins α} {i : α × Action} {is : List (α × Action)}

lemma sound_new (v : Venue) (symbol : Bytes) :
    Sound ((new v symbol, {}) : Emitter × Origins α) :=
  ⟨inv_new _ v, tracks_new _ v⟩

lemma Sound.track (h : Sound x) (i : α × Action) : Sound (Emitter.track x i).1 := by
  have hsess := sess_act x.1 i.2
  cases hc : i.2.call with
  | none =>
    rw [hc] at hsess
    constructor
    · simp only [Emitter.track, hsess]
      exact h.inv
    · simp only [Emitter.track, hc, hsess]
      exact h.tracks
  | some c =>
    rw [hc] at hsess
    constructor
    · simp only [Emitter.track, hsess]
      exact h.inv.step c
    · simp only [Emitter.track, hc, hsess]
      exact (h.tracks.step h.inv i.1 c).tracks

/-- The rule for runs over labelled actions. -/
lemma track_induction {P : List ((α × Action) × List (Sight α)) → Emitter × Origins α → Prop}
    (hx : Sound x) (init : P [] x)
    (next : ∀ h z, ∀ i ∈ is, Sound z → P h z → P (h ++ [(i, (track z i).2)]) (track z i).1) :
    P (run track x is).2 (run track x is).1 :=
  (@run_induction_of _ _ _ track (fun _ i => i ∈ is) (fun h z => Sound z ∧ P h z) _ _
    (allowed_of_forall fun _ hi => hi) ⟨hx, init⟩
    fun h z i hi hz => ⟨hz.1.track i, next h z i hi hz.1 hz.2⟩).2

/-- The labels have no influence. -/
lemma run_track (x : Emitter × Origins α) (is : List (α × Action)) :
    (run track x is).1.1 = (run step x.1 (is.map Prod.snd)).1 := by
  induction is generalizing x with
  | nil => rfl
  | cons i is ih => exact ih _

/-! ## Rows -/

lemma written_diff (h : Sound x) (ts : Timestamp) (ev : DepthEvent) (a : α) :
    x.1.written (.diff ts ev) = (sights x (a, .diff ts ev)).map Sight.row := by
  have hbooks := (h.tracks.step h.inv a (.onDiff ev)).books
  simp only [written, sights, applications, tradeSights, Action.call, ← hbooks, List.map_map,
    List.append_nil]
  rfl

lemma written_snapshot (h : Sound x) (snap : DepthEvent) (a : α) :
    x.1.written (.snapshot snap) = (sights x (a, .snapshot snap)).map Sight.row := by
  have hbooks :=
    (h.tracks.step h.inv a (.onSnapshot snap.bids snap.asks snap.lastUpdateId)).books
  simp only [written, sights, applications, tradeSights, Action.call, ← hbooks, List.map_map,
    List.append_nil]
  rfl

lemma type_of_mem_sights {z : Sight α} (hz : z ∈ sights x i) :
    z.type = 'D' ∨ z.type = 'T' := by
  rcases List.mem_append.mp hz with hz | hz
  · obtain ⟨w, -, rfl⟩ := List.mem_map.mp hz
    exact .inl rfl
  · simp only [tradeSights] at hz
    split at hz
    · split_ifs at hz
      · exact absurd hz (List.not_mem_nil)
      · exact .inr (List.mem_singleton.mp hz ▸ rfl)
    · exact absurd hz (List.not_mem_nil)

/-- **The rows of an action that show the diff book are those that are kept track of.** -/
lemma written_eq_sights (h : Sound x) :
    (x.1.written i.2).filter (·.type ≠ 'S') = (sights x i).map Sight.row := by
  have hfilter : ((sights x i).map Sight.row).filter (·.type ≠ 'S') =
      (sights x i).map Sight.row := by
    refine List.filter_eq_self.mpr fun r hr => ?_
    obtain ⟨z, hz, rfl⟩ := List.mem_map.mp hr
    rcases type_of_mem_sights hz with ht | ht <;> simp [Sight.row, bookRow, OrderBook.fillTop5, ht]
  obtain ⟨a, act⟩ := i
  cases act with
  | invalidate => rfl
  | diff ts ev => rw [written_diff h ts ev a, hfilter]
  | snapshot snap => rw [written_snapshot h snap a, hfilter]
  | depth5 ts ev => rfl
  | trade ts =>
    simp only [written, sights, applications, tradeSights, Action.call]
    split_ifs <;> rfl

/-- **The rows of a run that show the diff book**, one for each sight. -/
lemma body_track (hx : Sound x) (is : List (α × Action)) :
    (run track x is).1.1.body.filter (·.type ≠ 'S') =
      x.1.body.filter (·.type ≠ 'S') ++ ((run track x is).2.flatMap Prod.snd).map Sight.row := by
  refine track_induction (P := fun h z => z.1.body.filter (·.type ≠ 'S') =
    x.1.body.filter (·.type ≠ 'S') ++ (h.flatMap Prod.snd).map Sight.row) hx (by simp) ?_
  intro h z i _ hz hP
  rw [show (track z i).1.1 = z.1.act i.2 from rfl, body_act, List.filter_append, hP,
    written_eq_sights hz, List.flatMap_append, List.map_append, List.append_assoc]
  simp [track]

/-- A row that shows the diff book shows one that has been seeded and is not pending. -/
lemma synced_of_mem_sights (h : Sound x) {z : Sight α} (hz : z ∈ sights x i) :
    z.session.Synced ∧ ∃ b, z.seed = some b := by
  rcases List.mem_append.mp hz with hz | hz
  · obtain ⟨w, hw, rfl⟩ := List.mem_map.mp hz
    simp only [applications] at hw
    split at hw
    · exact (h.tracks.step h.inv i.1 _).synced w hw
    · exact absurd hw (List.not_mem_nil)
  · simp only [tradeSights] at hz
    split at hz
    · split_ifs at hz with hready
      · exact absurd hz (List.not_mem_nil)
      · rw [List.mem_singleton.mp hz]
        have hs : x.1.sess.Synced := by
          rw [← not_not (a := x.1.sess.Synced), not_synced, or_comm]
          exact hready
        exact ⟨hs, h.tracks.seeded hs.2⟩
    · exact absurd hz (List.not_mem_nil)

/-- What holds of the labels of an emitter and of an action holds of those of the rows. -/
lemma all_track {P : α → Prop} (hx : x.2.All P) (hi : P i.1) :
    (track x i).1.2.All P ∧ ∀ z ∈ (track x i).2, z.All P := by
  have happs : (track x i).1.2.All P ∧ ∀ z ∈ applications x i, z.All P := by
    simp only [track, applications]
    cases i.2.call with
    | none => exact ⟨hx, by simp⟩
    | some c => exact hx.track hi c
  refine ⟨happs.1, fun z hz => ?_⟩
  rcases List.mem_append.mp hz with hz | hz
  · obtain ⟨w, hw, rfl⟩ := List.mem_map.mp hz
    exact ⟨(happs.2 w hw).origin, (happs.2 w hw).seed, (happs.2 w hw).since⟩
  · simp only [tradeSights] at hz
    split at hz
    · split_ifs at hz
      · exact absurd hz List.not_mem_nil
      · exact List.mem_singleton.mp hz ▸ ⟨hi, hx.seed, hx.since⟩
    · exact absurd hz List.not_mem_nil

lemma all_run {P : α → Prop} (hx : x.2.All P) (his : ∀ i ∈ is, P i.1) :
    (run track x is).1.2.All P ∧ ∀ h ∈ (run track x is).2, ∀ z ∈ h.2, z.All P := by
  induction is generalizing x with
  | nil => exact ⟨hx, by simp⟩
  | cons i is ih =>
    obtain ⟨hnext, hrows⟩ := all_track hx (his i List.mem_cons_self)
    obtain ⟨hend, hrest⟩ := ih hnext fun j hj => his j (List.mem_cons_of_mem _ hj)
    refine ⟨hend, ?_⟩
    rintro h (_ | ⟨_, hh⟩)
    · exact hrows
    · exact hrest h hh

/-- What holds of the rows of every action holds of the rows of a run. -/
lemma sights_run {P : Sight α → Prop} (hx : Sound x)
    (h : ∀ x : Emitter × Origins α, ∀ i, Sound x → ∀ z ∈ sights x i, P z)
    (is : List (α × Action)) : ∀ w ∈ (run track x is).2, ∀ z ∈ w.2, P z := by
  refine track_induction (P := fun h _ => ∀ w ∈ h, ∀ z ∈ w.2, P z) hx (by simp) ?_
  intro hist x i _ hx hP w hw
  rcases List.mem_append.mp hw with hw | hw
  · exact hP w hw
  · rw [List.mem_singleton.mp hw]
    exact h x i hx

/-- Every row of a run that shows the diff book shows one that has been seeded and is not
pending. -/
lemma synced_run (hx : Sound x) (is : List (α × Action)) :
    ∀ h ∈ (run track x is).2, ∀ z ∈ h.2, z.session.Synced ∧ ∃ b, z.seed = some b :=
  sights_run hx (fun _ _ hx _ hz => synced_of_mem_sights hx hz) is

lemma type_run (hx : Sound x) (is : List (α × Action)) :
    ∀ h ∈ (run track x is).2, ∀ z ∈ h.2, z.type = 'D' ∨ z.type = 'T' :=
  sights_run hx (fun _ _ _ _ hz => type_of_mem_sights hz) is

/-! ## Diffs -/

/-- The diff of a labelled action. -/
def labelledDiff (i : α × Action) : List (α × DepthEvent) :=
  match i.2 with
  | .diff _ ev => [(i.1, ev)]
  | _ => []

/-- The rows of the applied diffs. -/
def diffSights (h : List ((α × Action) × List (Sight α))) : List (Sight α) :=
  (h.flatMap Prod.snd).filter (·.type = 'D')

lemma filter_sights (x : Emitter × Origins α) (i : α × Action) :
    (sights x i).filter (·.type = 'D') = (applications x i).map (·.sight i.2) := by
  have htrade : (tradeSights x i).filter (·.type = 'D') = [] := by
    rw [tradeSights]
    split
    · split_ifs <;> rfl
    · rfl
  rw [sights, List.filter_append, htrade, List.append_nil, List.filter_eq_self]
  intro z hz
  obtain ⟨w, -, rfl⟩ := List.mem_map.mp hz
  rfl

lemma diffSights_concat (h : List ((α × Action) × List (Sight α))) (x : Emitter × Origins α)
    (i : α × Action) :
    diffSights (h ++ [(i, (track x i).2)]) =
      diffSights h ++ (applications x i).map (·.sight i.2) := by
  simp only [diffSights, List.flatMap_append, List.filter_append, List.flatMap_singleton,
    ← filter_sights]
  rfl

/-- The rows of some kinds in a file, one for each sight. -/
lemma body_filter (hx : Sound x) (hempty : x.1.body = []) {p : Char → Bool} (hp : p 'S' = false)
    (is : List (α × Action)) :
    (run track x is).1.1.body.filter (fun r => p r.type) =
      (((run track x is).2.flatMap Prod.snd).filter fun z => p z.type).map Sight.row := by
  have hbody := body_track hx is
  rw [hempty, List.filter_nil, List.nil_append] at hbody
  have hsub : ∀ l : List ObRow,
      l.filter (fun r => p r.type) = (l.filter (·.type ≠ 'S')).filter fun r => p r.type := by
    intro l
    rw [List.filter_filter]
    refine List.filter_congr fun r _ => ?_
    by_cases h : r.type = 'S'
    · simp [h, hp]
    · simp [h]
  rw [hsub, hbody, List.filter_map]
  rfl

/-- An action applies diffs from the buffer or its own, in order. -/
lemma applications_order (h : Sound x) (i : α × Action) :
    ((applications x i).map Application.diff ++ (track x i).1.2.waiting).Sublist
      (x.2.waiting ++ labelledDiff i) := by
  obtain ⟨a, act⟩ := i
  have hnone : x.2.waiting.Sublist (x.2.waiting ++ []) := (List.append_nil _).symm ▸ .refl _
  cases act with
  | invalidate => exact (h.tracks.step h.inv a .requestResync).order
  | diff ts ev => exact (h.tracks.step h.inv a (.onDiff ev)).order
  | snapshot snap =>
    exact (h.tracks.step h.inv a (.onSnapshot snap.bids snap.asks snap.lastUpdateId)).order
  | depth5 ts ev => exact hnone
  | trade ts => exact hnone

/-- **The applied diffs are among the diffs, in the same order, none of them twice.** -/
lemma diffSights_sublist (hx : Sound x) (hw : x.2.waiting = []) (is : List (α × Action)) :
    ((diffSights (run track x is).2).map (·.about)).Sublist
      ((is.flatMap labelledDiff).map Prod.fst) := by
  have hrun := @track_induction _ _ is (fun h z =>
    ((diffSights h).map (·.about) ++ z.2.waiting.map Prod.fst).Sublist
      (((h.map Prod.fst).flatMap labelledDiff).map Prod.fst)) hx (by simp [diffSights, hw]) ?_
  · rw [run_inputs] at hrun
    exact (List.sublist_append_left _ _).trans hrun
  intro h z i _ hz hP
  have hstep := (applications_order hz i).map Prod.fst
  rw [List.map_append, List.map_append, List.map_map] at hstep
  rw [diffSights_concat, List.map_append, List.map_map, List.append_assoc, List.map_append,
    List.flatMap_append, List.map_append, List.map_singleton, List.flatMap_singleton]
  refine (List.Sublist.append_left hstep _).trans ?_
  rw [← List.append_assoc]
  exact hP.append_right _

/-- A diff is labelled with the message that it has come with, and has the time of it. -/
def Stamped (eventOf : α → Option DepthEvent) (i : α × Action) : Prop :=
  match i.2 with
  | .diff ts ev => eventOf i.1 = some ev ∧ ev.appliedTime = ts
  | _ => True

/-- The calls of the session in a list of labelled actions. -/
def calls (is : List (α × Action)) : List Call := is.flatMap fun i => i.2.call.toList

lemma calls_concat (is : List (α × Action)) (i : α × Action) :
    calls (is ++ [i]) = calls is ++ i.2.call.toList := by
  rw [calls, List.flatMap_append, List.flatMap_singleton]
  rfl

/-- **The row of an applied diff has the time of the message of the diff**, and the applied diffs
are those that the calls of the session have applied. -/
lemma diffSights_stamped {eventOf : α → Option DepthEvent} (hx : Sound x)
    (hw : x.2.waiting = []) (his : ∀ i ∈ is, Stamped eventOf i) :
    let ds := diffSights (run track x is).2
    let r := run BookSession.step x.1.sess (calls is)
    (run track x is).1.1.sess = r.1 ∧
      (∀ z ∈ ds, ∃ ev, eventOf z.about = some ev ∧ z.ts = ev.appliedTime) ∧
      ds.map (fun z => (eventOf z.about, z.session.ob)) =
        (outputs BookSession.step appliedBooks x.1.sess (calls is)).map
          fun y => (some y.1, y.2) := by
  have hrun := @track_induction _ _ is (fun h z =>
    (∀ w ∈ z.2.waiting, eventOf w.1 = some w.2) ∧
      z.1.sess = (run BookSession.step x.1.sess (calls (h.map Prod.fst))).1 ∧
      (∀ w ∈ diffSights h, ∃ ev, eventOf w.about = some ev ∧ w.ts = ev.appliedTime) ∧
      (diffSights h).map (fun w => (eventOf w.about, w.session.ob)) =
        (outputs BookSession.step appliedBooks x.1.sess (calls (h.map Prod.fst))).map
          fun y => (some y.1, y.2)) hx
    ⟨by simp [hw], rfl, by simp [diffSights], rfl⟩ ?_
  · rw [run_inputs] at hrun
    exact hrun.2
  rintro h z ⟨a, act⟩ hi hz ⟨hwait, hsess, htimes, happ⟩
  have horder := applications_order hz (a, act)
  have hfits : ∀ w ∈ z.2.waiting ++ labelledDiff (a, act), eventOf w.1 = some w.2 := by
    intro w hw
    rcases List.mem_append.mp hw with hw | hw
    · exact hwait w hw
    · cases act with
      | diff ts ev => exact List.mem_singleton.mp hw ▸ (his _ hi).1
      | _ => exact absurd hw List.not_mem_nil
  -- what is applied has come with its own message, and its row has the time of the event
  have hown : ∀ w ∈ applications z (a, act), eventOf w.origin = some w.event := fun w hw =>
    hfits _ (horder.subset (List.mem_append_left _ (List.mem_map_of_mem hw)))
  have htime : ∀ w ∈ applications z (a, act), act.rowTime w.event = w.event.appliedTime := by
    intro w hw
    cases act with
    | diff ts ev =>
      have hbook : (w.event, w.session.ob) ∈ appliedBooks z.1.sess (.onDiff ev) := by
        rw [← (hz.tracks.step hz.inv a (.onDiff ev)).books]
        exact List.mem_map_of_mem (f := fun y : Application α => (y.event, y.session.ob)) hw
      simp only [appliedBooks] at hbook
      split_ifs at hbook
      · rw [(Prod.mk.inj (List.mem_singleton.mp hbook)).1]
        exact (his _ hi).2.symm
      · exact absurd hbook List.not_mem_nil
    | _ => rfl
  refine ⟨fun w hw => hfits w (horder.subset (List.mem_append_right _ hw)), ?_, ?_, ?_⟩
  · rw [List.map_append, List.map_singleton, calls_concat]
    have hact := sess_act z.1 act
    cases hc : act.call with
    | none =>
      rw [hc] at hact
      rw [Option.toList_none, List.append_nil, ← hsess]
      exact hact
    | some c =>
      rw [hc] at hact
      rw [Option.toList_some, run_concat, ← hsess]
      exact hact
  · intro w hw
    rw [diffSights_concat] at hw
    rcases List.mem_append.mp hw with hw | hw
    · exact htimes w hw
    · obtain ⟨y, hy, rfl⟩ := List.mem_map.mp hw
      exact ⟨y.event, hown y hy, htime y hy⟩
  · have hnew : (applications z (a, act)).map (fun y => (eventOf y.origin, y.session.ob)) =
        ((applications z (a, act)).map fun y => (y.event, y.session.ob)).map
          fun y => (some y.1, y.2) := by
      rw [List.map_map]
      exact List.map_congr_left fun y hy => by rw [hown y hy]; rfl
    rw [diffSights_concat, List.map_append, happ, List.map_map, List.map_append,
      List.map_singleton, calls_concat, outputs_append, ← hsess, List.map_append]
    refine congrArg (_ ++ ·) (hnew.trans ?_)
    cases hc : act.call with
    | none =>
      have happs : applications z (a, act) = [] := by simp only [applications, hc]
      rw [happs]
      rfl
    | some c =>
      have hbooks := (hz.tracks.step hz.inv a c).books
      rw [Option.toList_some, outputs_cons, outputs_nil, List.append_nil, ← hbooks]
      simp only [applications, hc]

end Emitter

end LobCapture
