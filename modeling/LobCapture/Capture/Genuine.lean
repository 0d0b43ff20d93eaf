/-
# The rows and the exchange

The rows of the diff book, compared with the book of the exchange itself.  As long as the diffs
and the snapshots that come in tell the truth, every row of a diff shows the best five levels the
exchange had at the last id of this diff, and the row of a trade those it had at some id, whatever
is lost, repeated or thrown away, and however often the connection or a request fails.
-/
import LobCapture.Capture.Bare
import LobCapture.Capture.Epochs
import LobCapture.Capture.Shards
import LobCapture.Session.Exchange

namespace LobCapture

open Lib BookSession

/-! ## Sessions -/

namespace BookSession

variable {H : Exchange} {v : Venue} {s : BookSession}

/-- A book that an applied diff has led to. -/
structure AppliedTo (H : Exchange) (id : Int32) (x : DepthEvent × OrderBook) : Prop where
  agrees : H.Agrees x.2
  id_eq : x.2.id = id
  lastUpdateId : x.2.lastUpdateId = x.1.u

lemma Consumes.lastUpdateId {S : UInt64} {b b' : OrderBook} {l rest : List DepthEvent}
    {cbs : List (DepthEvent × OrderBook)} (h : Consumes v S b l b' cbs rest) :
    ∀ x ∈ cbs, x.2.lastUpdateId = x.1.u := by
  induction h with
  | done b => simp
  | skip hold h ih => exact ih
  | apply hS hnew hb h ih =>
    rintro x (_ | ⟨_, hx⟩)
    · rfl
    · exact ih x hx
  | gap hS hnew hb => simp

/-- **A genuine call** leaves a session that follows the exchange, and so do the diffs that it
applies. -/
lemma Follows.step (h : s.Follows H v) {c : Call} (hc : H.Genuine v c) :
    (step s c).1.Follows H v ∧ ∀ x ∈ appliedBooks s c, AppliedTo H s.ob.id x := by
  cases c with
  | onDiff ev =>
    refine ⟨h.onDiff hc, fun x hx => ?_⟩
    simp only [appliedBooks] at hx
    split_ifs at hx with ho
    · obtain rfl := List.mem_singleton.mp hx
      refine ⟨(h.onDiff hc).book (synced_onDiff ho).2, id_step s (.onDiff ev), ?_⟩
      obtain ⟨hs, hnew, hb⟩ := onDiff_applied.mp ho
      rcases s.onDiff_cases ev with ⟨hn, -⟩ | ⟨-, hold, -⟩ | ⟨-, -, -, heq⟩ | ⟨-, -, hn, -⟩
      · exact absurd hs hn
      · exact absurd hnew (not_lt_of_ge hold)
      · rw [heq]
        rfl
      · exact absurd hb hn
    · exact absurd hx List.not_mem_nil
  | onSnapshot bids asks S =>
    obtain ⟨hF, hcbs⟩ := h.onSnapshot hc
    refine ⟨hF, fun x hx => ?_⟩
    obtain ⟨b', cbs, rest, hconsumes, heq⟩ := s.onSnapshot_cases bids asks S
    have hx' : x ∈ cbs := by
      simp only [appliedBooks, heq] at hx
      exact hx
    refine ⟨hcbs x hx, ?_, hconsumes.lastUpdateId x hx'⟩
    exact (hconsumes.invariant (P := fun b => b.id = s.ob.id)
      (fun b ev _ _ _ hb => (OrderBook.id_advance ev b).trans hb) rfl).2 x hx'
  | requestResync =>
    exact ⟨⟨h.venue, by simp [BookSession.step, requestResync],
      by simp [BookSession.step, requestResync, OrderBook.reset]⟩, by simp [appliedBooks]⟩

lemma follows_new (H : Exchange) (id : Int32) (v : Venue) : (new id v).Follows H v :=
  ⟨rfl, by simp [new], by simp [new]⟩

/-- The diffs applied in a run of genuine calls. -/
lemma appliedTo_run (h : s.Follows H v) {cs : List Call} (hcs : ∀ c ∈ cs, H.Genuine v c) :
    ∀ x ∈ outputs BookSession.step appliedBooks s cs, AppliedTo H s.ob.id x := by
  induction cs generalizing s with
  | nil => simp
  | cons c cs ih =>
    obtain ⟨hF, hnow⟩ := h.step (hcs c List.mem_cons_self)
    intro x hx
    rcases List.mem_append.mp hx with hx | hx
    · exact hnow x hx
    · rw [← id_step s c]
      exact ih hF (fun c hc => hcs c (List.mem_cons_of_mem _ hc)) x hx

end BookSession

/-! ## Rows -/

/-- The row that shows the exchange's book at an update id, without its number. -/
def Exchange.row (H : Exchange) (id : Int32) (ts : Timestamp) (type : Char) (i : ℕ) : ObRow :=
  { (H i).topRow id with ts := ts, type := type }

/-- The row that a diff leads to. -/
def Exchange.diffRow (H : Exchange) (id : Int32) (ev : DepthEvent) : ObRow :=
  H.row id ev.appliedTime 'D' ev.u.toNat

/-- What an action tells the session is true of the exchange. -/
def Action.Genuine (H : Exchange) (v : Venue) (a : Action) : Prop :=
  ∀ c, a.call = some c → H.Genuine v c

variable {H : Exchange} {v : Venue} {α : Type*}

lemma Exchange.Agrees.bookRow_eq {b : OrderBook} (h : H.Agrees b) (ts : Timestamp) (type : Char) :
    bookRow ts type b = H.row b.id ts type b.lastUpdateId.toNat := by
  rw [Exchange.row, ← h.shownBy.row]
  rfl

namespace Emitter

/-- **What the rows of genuine actions show** is the exchange's book at the id of theirs. -/
lemma agrees_run {x : Emitter × Origins α} {is : List (α × Action)} (hx : Sound x)
    (hF : x.1.sess.Follows H v) (his : ∀ i ∈ is, i.2.Genuine H v) :
    ∀ h ∈ (run track x is).2, ∀ z ∈ h.2,
      H.Agrees z.session.ob ∧ z.session.ob.id = x.1.sess.ob.id := by
  refine (track_induction (P := fun h y => (y.1.sess.Follows H v ∧
    y.1.sess.ob.id = x.1.sess.ob.id) ∧ ∀ w ∈ h, ∀ z ∈ w.2,
      H.Agrees z.session.ob ∧ z.session.ob.id = x.1.sess.ob.id) hx ⟨⟨hF, rfl⟩, by simp⟩ ?_).2
  rintro h y ⟨a, act⟩ hi hy ⟨⟨hF, hid⟩, hrows⟩
  have hsess := sess_act y.1 act
  have hnow : (track y (a, act)).1.1.sess.Follows H v ∧
      ∀ z ∈ (track y (a, act)).2,
        H.Agrees z.session.ob ∧ z.session.ob.id = y.1.sess.ob.id := by
    have htrade : ∀ z ∈ tradeSights y (a, act),
        H.Agrees z.session.ob ∧ z.session.ob.id = y.1.sess.ob.id := by
      intro z hz
      simp only [tradeSights] at hz
      split at hz
      · split_ifs at hz with hready
        · exact absurd hz List.not_mem_nil
        · obtain rfl := List.mem_singleton.mp hz
          exact ⟨hF.book (by simpa [initialized] using (not_or.mp hready).1), rfl⟩
      · exact absurd hz List.not_mem_nil
    cases hc : act.call with
    | none =>
      rw [hc] at hsess
      refine ⟨by simpa only [track, hsess] using hF, fun z hz => htrade z ?_⟩
      simpa only [track, sights, applications, hc, List.map_nil, List.nil_append] using hz
    | some c =>
      rw [hc] at hsess
      obtain ⟨hF', happlied⟩ := hF.step (his _ hi c hc)
      refine ⟨by simpa only [track, hsess] using hF', fun z hz => ?_⟩
      rcases List.mem_append.mp hz with hz | hz
      · obtain ⟨w, hw, rfl⟩ := List.mem_map.mp hz
        simp only [applications, hc] at hw
        have hbook : (w.event, w.session.ob) ∈ appliedBooks y.1.sess c := by
          rw [← (hy.tracks.step hy.inv a c).books]
          exact List.mem_map_of_mem (f := fun u : Application α => (u.event, u.session.ob)) hw
        exact ⟨(happlied _ hbook).agrees, (happlied _ hbook).id_eq⟩
      · exact htrade z hz
  refine ⟨⟨hnow.1, (id_act y.1 act).trans hid⟩, fun w hw => ?_⟩
  rcases List.mem_append.mp hw with hw | hw
  · exact hrows w hw
  · rw [List.mem_singleton.mp hw]
    exact fun z hz => ⟨(hnow.2 z hz).1, (hnow.2 z hz).2.trans hid⟩

/-- The rows of a file that genuine actions have written: those of diffs show the exchange's book
at the last id of their diff, and are in the order of the diffs. -/
lemma rows_show {eventOf : α → Option DepthEvent} (y : Bytes) {is : List (α × Action)}
    (hstamped : ∀ i ∈ is, Stamped eventOf i) (hgenuine : ∀ i ∈ is, i.2.Genuine H v) :
    let rows := (run track ((new v y, {}) : Emitter × Origins α) is).1.1.rows
    (∃ own : List α, own.Sublist ((is.flatMap labelledDiff).map Prod.fst) ∧
      (rows.filter (·.type = 'D')).map ObRow.unnumbered =
        own.map fun a => H.diffRow (deriveId y) ((eventOf a).getD {})) ∧
    ∀ r ∈ rows, r.type = 'T' → ∃ i, r.unnumbered = H.row (deriveId y) r.ts 'T' i := by
  intro rows
  have hsound := sound_new (α := α) v y
  have hF : (new v y).sess.Follows H v := follows_new H (deriveId y) v
  have hagrees := agrees_run hsound hF hgenuine
  obtain ⟨-, htimes, hbooks⟩ := diffSights_stamped hsound rfl hstamped
  have hcalls : ∀ c ∈ calls is, H.Genuine v c := by
    intro c hc
    obtain ⟨i, hi, hc⟩ := List.mem_flatMap.mp hc
    exact hgenuine i hi c (Option.mem_toList.mp hc)
  have happlied := appliedTo_run hF hcalls
  constructor
  · refine ⟨_, diffSights_sublist hsound rfl is, ?_⟩
    rw [filter_body (· = 'D'), body_filter hsound rfl (p := (· = 'D')) rfl is, List.map_map]
    refine List.map_congr_left fun z hz => ?_
    obtain ⟨hmem, htype⟩ := List.mem_filter.mp hz
    obtain ⟨h, hh, hz'⟩ := List.mem_flatMap.mp hmem
    obtain ⟨hbook, hid⟩ := hagrees h hh z hz'
    obtain ⟨ev, hev, hts⟩ := htimes z hz
    -- the book is the one that the diff of the row has led to
    have hpair : (eventOf z.about, z.session.ob) ∈ (outputs BookSession.step appliedBooks
        (new v y).sess (calls is)).map fun x => (some x.1, x.2) :=
      hbooks ▸ List.mem_map_of_mem (f := fun z : Sight α => (eventOf z.about, z.session.ob)) hz
    obtain ⟨x, hx, heq⟩ := List.mem_map.mp hpair
    obtain ⟨hevent, hob⟩ := Prod.mk.inj heq
    obtain rfl : x.1 = ev := Option.some.inj (hevent.trans hev)
    have hlast := (happlied x hx).lastUpdateId
    rw [hob] at hlast
    rw [Function.comp_apply, hev, Option.getD_some, Exchange.diffRow, Sight.row, hbook.bookRow_eq,
      hid, hlast, hts, show z.type = 'D' by simpa using htype]
    rfl
  · intro r hr htype
    have hrow : r.unnumbered ∈ (rows.filter fun r => r.type = 'D' ∨ r.type = 'T').map
        ObRow.unnumbered :=
      List.mem_map_of_mem (List.mem_filter.mpr ⟨hr, by simp [htype]⟩)
    rw [body_track_new v y is] at hrow
    obtain ⟨z, hz, heq⟩ := List.mem_map.mp hrow
    obtain ⟨h, hh, hz⟩ := List.mem_flatMap.mp hz
    obtain ⟨hbook, hid⟩ := hagrees h hh z hz
    rw [Sight.row, hbook.bookRow_eq, hid] at heq
    have hts : z.ts = r.ts := congrArg ObRow.ts heq
    have htype' : z.type = r.type := congrArg ObRow.type heq
    exact ⟨_, by rw [← heq, hts, htype', htype]; rfl⟩

end Emitter

/-! ## Live -/

section Live

variable {parse : Bytes → Option DepthEvent} {cfg : Config} {y : Bytes} {frames : List Frame}

/-- The diffs of a symbol tell the truth, and so do the responses of the REST client to it. -/
structure GenuineFrames (H : Exchange) (parse : Bytes → Option DepthEvent) (cfg : Config)
    (y : Bytes) (frames : List Frame) : Prop where
  diffs : ∀ x ∈ handled parse cfg y frames, x.2.kind = .depthDiff →
    ∀ ev, x.2.event = some ev → H.GenuineDiff cfg.venue ev
  snapshots : ∀ x ∈ handled parse cfg y frames, ∀ raw snap, x.1.response = some raw →
    parse raw = some snap → H.Genuine cfg.venue (.onSnapshot snap.bids snap.asks snap.lastUpdateId)

lemma response_of_step {st : SymState} {x : Frame × Message} {raw : Bytes} {snap : DepthEvent}
    (h : (st.step parse cfg x).2 = .ok raw snap) :
    x.1.response = some raw ∧ parse raw = some snap := by
  have hresync : ∀ (st : SymState) (response : Option Bytes),
      (st.resync parse response).2 = .ok raw snap →
        response = some raw ∧ parse raw = some snap := by
    intro st response h
    cases response with
    | none => exact absurd h (by simp [SymState.resync])
    | some raw' =>
      cases hp : parse raw' with
      | none => simp [SymState.resync, hp] at h
      | some snap' =>
        simp only [SymState.resync, hp, Fetch.ok.injEq] at h
        obtain ⟨rfl, rfl⟩ := h
        exact ⟨rfl, hp⟩
  simp only [SymState.step, SymState.onMessage] at h
  split at h
  · split_ifs at h
    · exact hresync _ _ h
  · exact absurd h (by simp)
  · split_ifs at h
  · exact absurd h (by simp)

lemma genuine_symbolActions (h : GenuineFrames H parse cfg y frames)
    {i : (Frame × Message) × Action}
    (hi : i ∈ symbolActions parse cfg (.new cfg y) (handled parse cfg y frames)) :
    i.2.Genuine H cfg.venue := by
  obtain ⟨x, hx, st, hi⟩ := mem_outputs hi
  obtain ⟨a, ha, rfl⟩ := List.mem_map.mp hi
  rcases List.mem_append.mp ha with ha | ha
  · rw [SymState.entering] at ha
    split_ifs at ha
    · obtain rfl := List.mem_singleton.mp ha
      rintro c ⟨⟩
      trivial
    · exact absurd ha List.not_mem_nil
  · split at ha
    · next ev hk hev =>
      rcases List.mem_cons.mp ha with rfl | ha
      · rintro c ⟨⟩
        exact h.diffs x hx hk ev hev
      · cases hfetch : (st.step parse cfg x).2 with
        | none => simp [hfetch, Fetch.actions] at ha
        | failed => simp [hfetch, Fetch.actions] at ha
        | ok raw snap =>
          obtain ⟨hresponse, hparse⟩ := response_of_step hfetch
          rw [hfetch] at ha
          obtain rfl := List.mem_singleton.mp ha
          rintro c ⟨⟩
          exact h.snapshots x hx raw snap hresponse hparse
    · obtain rfl := List.mem_singleton.mp ha
      rintro c ⟨⟩
    · split_ifs at ha
      · obtain rfl := List.mem_singleton.mp ha
        rintro c ⟨⟩
      · exact absurd ha List.not_mem_nil
    · exact absurd ha List.not_mem_nil

/-- The rows of a symbol of a shard. -/
lemma live_rows_show (h : GenuineFrames H parse cfg y frames) :
    let rows := ((runShard parse cfg frames).1.sym y).rows
    (∃ own : List (Frame × Message),
      own.Sublist ((handled parse cfg y frames).filter (·.2.kind = .depthDiff)) ∧
      (rows.filter (·.type = 'D')).map ObRow.unnumbered =
        own.map fun x => H.diffRow (deriveId y) (x.2.event.getD {})) ∧
    ∀ r ∈ rows, r.type = 'T' → ∃ i, r.unnumbered = H.row (deriveId y) r.ts 'T' i := by
  intro rows
  have hrows : rows = (liveTrack parse cfg y frames).1.1.rows := congrArg Emitter.rows sym_toEmitter
  have hshow := @Emitter.rows_show H cfg.venue (Frame × Message) (fun x => x.2.event) y
    (symbolActions parse cfg (.new cfg y) (handled parse cfg y frames))
    (fun i hi => stamped_symbolActions hi) fun i hi => genuine_symbolActions h hi
  rw [diffs_symbolActions _ fun x hx => (of_mem_handled hx).2.1] at hshow
  rw [hrows]
  exact hshow

end Live

/-! ## Replay -/

section Replay

variable {parse : Bytes → Option DepthEvent} {cfg : Config} {y md sidecar : Bytes} {b : Bool}

/-- The diffs of a symbol in the market-data file tell the truth, and so do its recorded
snapshots. -/
structure GenuineFile (H : Exchange) (parse : Bytes → Option DepthEvent) (cfg : Config)
    (y md sidecar : Bytes) : Prop where
  diffs : ∀ row ∈ fileRows y md, ∀ ev, row.diffEvent parse = some ev → H.GenuineDiff cfg.venue ev
  snapshots : ∀ snap ∈ (Replay.new parse (some sidecar)).snaps y,
    H.Genuine cfg.venue (.onSnapshot snap.bids snap.asks snap.lastUpdateId)

/-- A snapshot that is used is one of those that are left, and so are the others. -/
lemma SymReplay.snaps_step (s : SymReplay × List DepthEvent) (row : Row) :
    (SymReplay.step parse cfg true s row).2.toList ++
      (SymReplay.step parse cfg true s row).1.2 = s.2 := by
  simp only [SymReplay.step, SymReplay.onRow]
  by_cases hd : row.kind = lit "depth_diff"
  · simp only [if_pos hd]
    cases parse row.payload with
    | none => rfl
    | some ev =>
      dsimp only
      split_ifs
      · cases s.2 <;> rfl
      · rfl
  simp only [if_neg hd]
  split_ifs
  · cases parse row.payload <;> rfl
  all_goals rfl

/-- What an action of a row can be. -/
lemma action_of_row {s : SymReplay × List DepthEvent} {row : Row} {a : Action}
    (ha : a ∈ SymReplay.actions parse cfg true s row) :
    a = .invalidate ∨ (∃ ev, row.diffEvent parse = some ev ∧ a = .diff row.ts ev) ∨
      (∃ snap ∈ s.2, a = .snapshot snap) ∨ a.call = none := by
  rcases List.mem_append.mp ha with ha | ha
  · rw [SymReplay.entering] at ha
    split at ha
    · exact absurd ha List.not_mem_nil
    · split_ifs at ha
      · exact .inl (List.mem_singleton.mp ha)
      · exact absurd ha List.not_mem_nil
  split_ifs at ha with hd h5 hsidecar
  · cases hparse : parse row.payload with
    | none => simp [hparse] at ha
    | some ev =>
      rw [hparse] at ha
      rcases List.mem_cons.mp ha with rfl | ha
      · exact .inr (.inl ⟨_, Row.diffEvent_eq hd hparse, rfl⟩)
      · obtain ⟨snap, hsnap, rfl⟩ := List.mem_map.mp ha
        refine .inr (.inr (.inl ⟨snap, ?_, rfl⟩))
        exact @SymReplay.snaps_step parse cfg s row ▸ List.mem_append_left _ hsnap
  · cases hparse : parse row.payload with
    | none => simp [hparse] at ha
    | some ev =>
      rw [hparse] at ha
      obtain rfl := List.mem_singleton.mp ha
      exact .inr (.inr (.inr rfl))
  · exact absurd rfl hsidecar
  · obtain rfl := List.mem_singleton.mp ha
    exact .inr (.inr (.inr rfl))
  · exact absurd ha List.not_mem_nil
  · exact absurd ha List.not_mem_nil

lemma genuine_replayActions (h : GenuineFile H parse cfg y md sidecar) {i : Row × Action}
    (hi : i ∈ replayActions parse cfg true (.new cfg y, (Replay.new parse (some sidecar)).snaps y)
      (fileRows y md)) :
    Emitter.Stamped (Row.diffEvent parse) i ∧ i.2.Genuine H cfg.venue := by
  -- the snapshots that are left are recorded ones
  obtain ⟨row, hrow, s, hleft, hi⟩ := mem_outputs_of
    (P := fun s : SymReplay × List DepthEvent =>
      ∀ snap ∈ s.2, snap ∈ (Replay.new parse (some sidecar)).snaps y)
    (fun s row hs snap hsnap =>
      hs snap (@SymReplay.snaps_step parse cfg s row ▸ List.mem_append_right _ hsnap))
    (fun _ hsnap => hsnap) hi
  obtain ⟨a, ha, rfl⟩ := List.mem_map.mp hi
  rcases action_of_row ha with rfl | ⟨ev, hev, rfl⟩ | ⟨snap, hsnap, rfl⟩ | hnone
  · refine ⟨trivial, ?_⟩
    rintro c ⟨⟩
    trivial
  · refine ⟨⟨hev, ?_⟩, ?_⟩
    · simp only [Row.diffEvent] at hev
      split_ifs at hev
      obtain ⟨ev', -, rfl⟩ := Option.map_eq_some_iff.mp hev
      rfl
    · rintro c ⟨⟩
      exact h.diffs row hrow ev hev
  · refine ⟨trivial, ?_⟩
    rintro c ⟨⟩
    exact h.snapshots snap (hleft snap hsnap)
  · refine ⟨?_, fun c hc => absurd hc (by simp [hnone])⟩
    cases a with
    | diff ts ev => exact absurd hnone (by simp [Action.call])
    | _ => trivial

/-- The diffs of the actions are those of the rows. -/
lemma diffs_replayActions (s : SymReplay × List DepthEvent) (rows : List Row) :
    ((replayActions parse cfg b s rows).flatMap Emitter.labelledDiff).map Prod.fst =
      rows.filter fun row => (row.diffEvent parse).isSome := by
  have hrow : ∀ row ∈ rows, ∀ s,
      ((SymReplay.actions parse cfg b s row).map fun a => (row, a)).flatMap Emitter.labelledDiff =
        ((row.diffEvent parse).map fun ev => (row, ev)).toList := by
    intro row _ s
    have hentering : ((s.1.entering row.connEpoch).map fun a => (row, a)).flatMap
        Emitter.labelledDiff = [] := by
      rw [SymReplay.entering]
      split
      · rfl
      · split_ifs <;> rfl
    rw [SymReplay.actions, List.map_append, List.flatMap_append, hentering, List.nil_append,
      Row.diffEvent]
    by_cases hd : row.kind = lit "depth_diff"
    · simp only [if_pos hd]
      cases parse row.payload with
      | none => rfl
      | some ev =>
        cases hsnap : (SymReplay.step parse cfg b s row).2 <;> rfl
    simp only [if_neg hd]
    split_ifs with h5
    · cases parse row.payload <;> rfl
    · cases parse row.payload <;> rfl
    all_goals rfl
  rw [replayActions, flatMap_outputs hrow]
  induction rows with
  | nil => rfl
  | cons row rows ih =>
    rw [List.flatMap_cons, List.map_append, ih fun row hr => hrow row (List.mem_cons_of_mem _ hr)]
    cases hdiff : row.diffEvent parse <;> simp [hdiff]

/-- The rows of a symbol in a replay. -/
lemma replay_rows_show (h : GenuineFile H parse cfg y md sidecar) :
    let rows := (runReplay parse cfg md (some sidecar)).1.rows y
    (∃ own : List Row,
      own.Sublist ((fileRows y md).filter fun row => (row.diffEvent parse).isSome) ∧
      (rows.filter (·.type = 'D')).map ObRow.unnumbered =
        own.map fun row => H.diffRow (deriveId y) ((row.diffEvent parse).getD {})) ∧
    ∀ r ∈ rows, r.type = 'T' → ∃ i, r.unnumbered = H.row (deriveId y) r.ts 'T' i := by
  intro rows
  have hrows : rows = (replayTrack parse cfg y md (some sidecar)).1.1.rows := by
    rw [← book_toEmitter]
    exact Replay.rows_eq cfg _ y
  have hshow := @Emitter.rows_show H cfg.venue Row (Row.diffEvent parse) y
    (replayActions parse cfg true (.new cfg y, (Replay.new parse (some sidecar)).snaps y)
      (fileRows y md))
    (fun i hi => (genuine_replayActions h hi).1) fun i hi => (genuine_replayActions h hi).2
  rw [diffs_replayActions] at hshow
  rw [hrows]
  exact hshow

end Replay

/-! ## Crossed rows -/

/-- The best bid is below the best ask. -/
def ExchangeBook.Uncrossed (x : ExchangeBook) : Prop :=
  ∀ bid ∈ x.bids.levels, ∀ ask ∈ x.asks.levels, bid.price < ask.price

/-- Every bid that the row shows is below every ask. -/
def ObRow.Uncrossed (r : ObRow) : Prop :=
  ∀ i j : Fin 5, r.bidSize.get i ≠ 0 → r.askSize.get j ≠ 0 → r.bid.get i < r.ask.get j

lemma ObRow.uncrossed_unnumbered {r : ObRow} : r.unnumbered.Uncrossed ↔ r.Uncrossed := Iff.rfl

lemma get_ofFn {n : ℕ} (f : Fin n → Int64) (i : Fin n) : (Vector.ofFn f).get i = f i := by
  change (Vector.ofFn f)[(i : ℕ)] = f i
  exact Vector.getElem_ofFn i.isLt

/-- A place of a row that is not empty shows a level. -/
lemma exists_level {l levels : List Level} (hl : ∀ x ∈ l, x ∈ levels) {i : Fin 5}
    (h : ((l[(i : ℕ)]?.map Level.qty).getD 0) ≠ 0) :
    ∃ x ∈ levels, (l[(i : ℕ)]?.map Level.price).getD 0 = x.price := by
  cases hx : l[(i : ℕ)]? with
  | none => simp [hx] at h
  | some x => exact ⟨x, hl x (List.mem_of_getElem? hx), rfl⟩

lemma Exchange.uncrossed_row (h : ∀ i, (H i).Uncrossed) (id : Int32) (ts : Timestamp)
    (type : Char) (n : ℕ) : (H.row id ts type n).Uncrossed := by
  intro i j hbid hask
  simp only [Exchange.row, ExchangeBook.topRow, OrderBook.topRow, get_ofFn] at hbid hask ⊢
  obtain ⟨bid, hb, hbid⟩ := exists_level (fun x hx => mem_ranking.mp hx) hbid
  obtain ⟨ask, ha, hask⟩ := exists_level (fun x hx => mem_ranking.mp hx) hask
  rw [hbid, hask]
  exact h n bid hb ask ha

lemma uncrossed_of_show {α : Type} {rows : List ObRow} {id : Int32} {eventOf : α → DepthEvent}
    (hH : ∀ i, (H i).Uncrossed) {own : List α}
    (hdiffs : (rows.filter (·.type = 'D')).map ObRow.unnumbered =
      own.map fun a => H.diffRow id (eventOf a))
    (htrades : ∀ r ∈ rows, r.type = 'T' → ∃ i, r.unnumbered = H.row id r.ts 'T' i) :
    ∀ r ∈ rows, r.type = 'D' ∨ r.type = 'T' → r.Uncrossed := by
  rintro r hr (htype | htype)
  · have hmem : r.unnumbered ∈ own.map fun a => H.diffRow id (eventOf a) :=
      hdiffs ▸ List.mem_map_of_mem (List.mem_filter.mpr ⟨hr, by simpa using htype⟩)
    obtain ⟨a, -, heq⟩ := List.mem_map.mp hmem
    rw [← ObRow.uncrossed_unnumbered, ← heq]
    exact Exchange.uncrossed_row hH _ _ _ _
  · obtain ⟨i, heq⟩ := htrades r hr htype
    rw [← ObRow.uncrossed_unnumbered, heq]
    exact Exchange.uncrossed_row hH _ _ _ _

/-! ## A short run -/

/-- A frame with a diff of the symbol that lists these levels. -/
def quoteFrame (ids levels : String) (response : Option String) : Frame :=
  { diffFrame 0 ids response with
    text := lit ("\x7b\"stream\":\"a@depth\",\"data\":\x7b" ++ ids ++ "," ++ levels ++
      "\x7d\x7d") }

/-- A snapshot at id 3, and a better bid at id 5. -/
def quotedRun : List Frame :=
  [quoteFrame "\"U\":2,\"u\":3" "\"b\":[[\"1\",\"2\"]],\"a\":[[\"3\",\"1\"]]"
      (some "\x7b\"lastUpdateId\":3,\"bids\":[[\"1\",\"2\"]],\"asks\":[[\"3\",\"1\"]]\x7d"),
    quoteFrame "\"U\":4,\"u\":5" "\"b\":[[\"1.5\",\"2\"]],\"a\":[]" none]

/-- Two bids and an ask; the better bid has come with id 5. -/
def quotedExchange : Exchange := fun i =>
  { bids := if i < 5 then (∅ : PriceMap).insert 100000000 200000000
      else ((∅ : PriceMap).insert 100000000 200000000).insert 150000000 200000000
    asks := (∅ : PriceMap).insert 300000000 100000000
    bids_nonzero := by
      unfold PriceMap.Nonzero
      split <;> decide
    asks_nonzero := by
      unfold PriceMap.Nonzero
      decide }

lemma uncrossed_quotedExchange (i : ℕ) : (quotedExchange i).Uncrossed := by
  simp only [ExchangeBook.Uncrossed, quotedExchange]
  split <;> decide

lemma bidQty_quotedExchange (i : ℕ) :
    quotedExchange.bidQty i =
      if i < 5 then Function.update (fun _ => 0) 100000000 200000000
      else Function.update (Function.update (fun _ => 0) 100000000 200000000) 150000000
        200000000 := by
  simp only [Exchange.bidQty, quotedExchange]
  split <;> simp only [PriceMap.qtyAt_insert, PriceMap.qtyAt_empty]

lemma askQty_quotedExchange (i : ℕ) :
    quotedExchange.askQty i = Function.update (fun _ => 0) 300000000 100000000 := by
  simp only [Exchange.askQty, quotedExchange, PriceMap.qtyAt_insert, PriceMap.qtyAt_empty]

/-- The first diff of the run. -/
def quotedDiff : DepthEvent :=
  { U := 2, u := 3, appliedTime := ⟨7, 8⟩, bids := [⟨100000000, 200000000⟩],
    asks := [⟨300000000, 100000000⟩] }

/-- The second one. -/
def quotedDiff' : DepthEvent :=
  { U := 4, u := 5, appliedTime := ⟨7, 8⟩, bids := [⟨150000000, 200000000⟩] }

lemma genuine_quotedDiff {ev : DepthEvent} (h : ev = quotedDiff ∨ ev = quotedDiff') :
    quotedExchange.GenuineDiff .spot ev := by
  rcases h with rfl | rfl
  · refine ⟨⟨by simp [quotedDiff, Level.pair, bidQty_quotedExchange], fun i p hi _ hne => ?_⟩,
      ⟨by simp [quotedDiff, Level.pair, askQty_quotedExchange], fun i p _ _ hne => ?_⟩, by simp⟩
    · have hlt : i < 5 := lt_of_le_of_lt hi.2 (by decide)
      rw [bidQty_quotedExchange, bidQty_quotedExchange, if_pos hlt, if_pos (by omega)] at hne
      exact absurd rfl hne
    · exact absurd (by rw [askQty_quotedExchange, askQty_quotedExchange]) hne
  · refine ⟨⟨by simp [quotedDiff', Level.pair, bidQty_quotedExchange], fun i p hi _ hne => ?_⟩,
      ⟨by simp [quotedDiff'], fun i p _ _ hne => ?_⟩, by simp⟩
    · -- the only change is that of the new bid
      by_contra hp
      have hp : p ≠ 150000000 := by simpa [quotedDiff', Level.pair] using hp
      rw [bidQty_quotedExchange, bidQty_quotedExchange] at hne
      split_ifs at hne <;> simp [Function.update_of_ne hp] at hne
    · exact absurd (by rw [askQty_quotedExchange, askQty_quotedExchange]) hne

lemma genuine_quotedSnapshot {snap : DepthEvent} (hid : snap.lastUpdateId = 3)
    (hbids : snap.bids = quotedDiff.bids) (hasks : snap.asks = quotedDiff.asks) :
    quotedExchange.Genuine .spot (.onSnapshot snap.bids snap.asks snap.lastUpdateId) := by
  rw [hid, hbids, hasks]
  refine ⟨⟨by simp [quotedDiff, bidQty_quotedExchange], fun p hp => ?_⟩,
    ⟨by simp [quotedDiff, askQty_quotedExchange], fun p hp => ?_⟩⟩
  · by_contra hne
    rw [bidQty_quotedExchange, if_pos (by decide),
      Function.update_of_ne (by simpa [quotedDiff] using hne)] at hp
    exact hp rfl
  · by_contra hne
    rw [askQty_quotedExchange, Function.update_of_ne (by simpa [quotedDiff] using hne)] at hp
    exact hp rfl

lemma genuineFrames_quotedRun :
    GenuineFrames quotedExchange parseDepth oneSymbol (lit "A") quotedRun where
  diffs x hx _ ev hev := by
    have hall : ∀ x ∈ handled parseDepth oneSymbol (lit "A") quotedRun,
        x.2.event = some quotedDiff ∨ x.2.event = some quotedDiff' := by decide +kernel
    rcases hall x hx with h | h
    · exact genuine_quotedDiff (.inl (Option.some.inj (hev.symm.trans h)))
    · exact genuine_quotedDiff (.inr (Option.some.inj (hev.symm.trans h)))
  snapshots x hx raw snap hraw hsnap := by
    have hall : ∀ x ∈ handled parseDepth oneSymbol (lit "A") quotedRun,
        (x.1.response.bind parseDepth).all fun snap => snap.lastUpdateId = 3 ∧
          snap.bids = quotedDiff.bids ∧ snap.asks = quotedDiff.asks := by decide +kernel
    have h := hall x hx
    rw [hraw, Option.bind_some, hsnap] at h
    obtain ⟨hid, hbids, hasks⟩ : snap.lastUpdateId = 3 ∧ snap.bids = quotedDiff.bids ∧
      snap.asks = quotedDiff.asks := by simpa using h
    exact genuine_quotedSnapshot hid hbids hasks

lemma genuineFile_quotedRun :
    let live := (runShard parseDepth oneSymbol quotedRun).1
    GenuineFile quotedExchange parseDepth oneSymbol (lit "A") live.md live.snaps := by
  intro live
  constructor
  · intro row hrow ev hev
    have hall : ∀ row ∈ fileRows (lit "A") live.md,
        row.diffEvent parseDepth = some quotedDiff ∨
          row.diffEvent parseDepth = some quotedDiff' := by
      decide +kernel
    rcases hall row hrow with h | h
    · exact genuine_quotedDiff (.inl (Option.some.inj (hev.symm.trans h)))
    · exact genuine_quotedDiff (.inr (Option.some.inj (hev.symm.trans h)))
  · intro snap hsnap
    have hall : ∀ snap ∈ (Replay.new parseDepth (some live.snaps)).snaps (lit "A"),
        snap.lastUpdateId = 3 ∧ snap.bids = quotedDiff.bids ∧ snap.asks = quotedDiff.asks := by
      decide +kernel
    obtain ⟨hid, hbids, hasks⟩ := hall snap hsnap
    exact genuine_quotedSnapshot hid hbids hasks

lemma genuineFrames_quotedInputs :
    GenuineFrames quotedExchange parseDepthInto.fresh oneSymbol (lit "A")
      (ownFrames oneSymbol 1 (lit "A") (quotedRun.map fun fr => (0, fr))) := by
  have hown : ownFrames oneSymbol 1 (lit "A") (quotedRun.map fun fr => (0, fr)) = quotedRun := rfl
  rw [hown, funext fresh_parseDepthInto]
  exact genuineFrames_quotedRun

/-! ## Results -/

/-- **The rows of a capture show the exchange.** If the diffs of a symbol and the snapshots that
come for it tell the truth, then every row of a diff shows the best five levels that the exchange
had at the last id of this diff, in the order of the diffs, and every row of a trade those it had
at some id, whatever is lost or repeated on the way. -/
theorem captureRows_show_exchange {parser : Parser} {cfg : Config} {shards : ℤ} {y : Bytes}
    {inputs : List (ℕ × Frame)} (hcfg : cfg.symbols.Nodup) (hy : y ∈ cfg.symbols)
    (h : GenuineFrames H parser.fresh cfg y (ownFrames cfg shards y inputs)) :
    let rows := captureRows parser cfg shards inputs y
    (∃ own : List (Frame × Message), own.Sublist
        ((handled parser.fresh cfg y (ownFrames cfg shards y inputs)).filter
          (·.2.kind = .depthDiff)) ∧
      (rows.filter (·.type = 'D')).map ObRow.unnumbered =
        own.map fun x => H.diffRow (deriveId y) (x.2.event.getD {})) ∧
    ∀ r ∈ rows, r.type = 'T' → ∃ i, r.unnumbered = H.row (deriveId y) r.ts 'T' i := by
  rw [captureRows_eq ⟨rfl, rfl, rfl⟩ hcfg hy hy, ← sym_runShard]
  exact live_rows_show h

/-- The file shows the exchange's book at id 5. -/
theorem captureRows_show_exchange_quoted :
    let rows := captureRows parseDepthInto oneSymbol 1 (quotedRun.map fun fr => (0, fr)) (lit "A")
    rows.length = 1 ∧ ∃ own : List (Frame × Message),
      (rows.filter (·.type = 'D')).map ObRow.unnumbered =
        own.map fun x => quotedExchange.diffRow (deriveId (lit "A")) (x.2.event.getD {}) := by
  refine ⟨by decide +kernel, ?_⟩
  obtain ⟨⟨own, -, h⟩, -⟩ := @captureRows_show_exchange quotedExchange parseDepthInto oneSymbol 1
    (lit "A") (quotedRun.map fun fr => (0, fr)) (by decide +kernel) (by decide +kernel)
    genuineFrames_quotedInputs
  exact ⟨own, h⟩

/-- **The rows of a replay show the exchange**, if the diffs and the recorded snapshots do. -/
theorem replayRows_show_exchange {parse : Bytes → Option DepthEvent} {cfg : Config}
    {y md sidecar : Bytes} (h : GenuineFile H parse cfg y md sidecar) :
    let rows := (runReplay parse cfg md (some sidecar)).1.rows y
    (∃ own : List Row,
      own.Sublist ((fileRows y md).filter fun row => (row.diffEvent parse).isSome) ∧
      (rows.filter (·.type = 'D')).map ObRow.unnumbered =
        own.map fun row => H.diffRow (deriveId y) ((row.diffEvent parse).getD {})) ∧
    ∀ r ∈ rows, r.type = 'T' → ∃ i, r.unnumbered = H.row (deriveId y) r.ts 'T' i :=
  replay_rows_show h

theorem replayRows_show_exchange_quoted :
    let live := (runShard parseDepth oneSymbol quotedRun).1
    let rows := (runReplay parseDepth oneSymbol live.md (some live.snaps)).1.rows (lit "A")
    rows.length = 1 ∧ ∃ own : List Row, (rows.filter (·.type = 'D')).map ObRow.unnumbered =
      own.map fun row => quotedExchange.diffRow (deriveId (lit "A"))
        ((row.diffEvent parseDepth).getD {}) := by
  refine ⟨by decide +kernel, ?_⟩
  obtain ⟨⟨own, -, h⟩, -⟩ := replayRows_show_exchange genuineFile_quotedRun
  exact ⟨own, h⟩

/-- **No row of a diff or a trade is crossed**, live or in a replay, if the exchange never is. -/
theorem rows_uncrossed {parser : Parser} {cfg rcfg : Config} {shards : ℤ} {y md sidecar : Bytes}
    {inputs : List (ℕ × Frame)} (hcfg : cfg.symbols.Nodup) (hy : y ∈ cfg.symbols)
    (hH : ∀ i, (H i).Uncrossed)
    (h : GenuineFrames H parser.fresh cfg y (ownFrames cfg shards y inputs))
    (hfile : GenuineFile H parser.fresh rcfg y md sidecar) :
    ∀ r, r ∈ captureRows parser cfg shards inputs y ∨
        r ∈ (runReplay parser.fresh rcfg md (some sidecar)).1.rows y →
      r.type = 'D' ∨ r.type = 'T' → r.Uncrossed := by
  rintro r (hr | hr) htype
  · rw [captureRows_eq ⟨rfl, rfl, rfl⟩ hcfg hy hy, ← sym_runShard] at hr
    obtain ⟨⟨own, -, hdiffs⟩, htrades⟩ := live_rows_show h
    exact uncrossed_of_show hH hdiffs htrades r hr htype
  · obtain ⟨⟨own, -, hdiffs⟩, htrades⟩ := replay_rows_show hfile
    exact uncrossed_of_show hH hdiffs htrades r hr htype

theorem rows_uncrossed_quoted :
    let rows := captureRows parseDepthInto oneSymbol 1 (quotedRun.map fun fr => (0, fr)) (lit "A")
    rows.length = 1 ∧ ∀ r ∈ rows, r.type = 'D' ∨ r.type = 'T' → r.Uncrossed := by
  refine ⟨by decide +kernel, fun r hr => ?_⟩
  have hfile : GenuineFile quotedExchange parseDepthInto.fresh oneSymbol (lit "A")
      (runShard parseDepth oneSymbol quotedRun).1.md
      (runShard parseDepth oneSymbol quotedRun).1.snaps := by
    rw [funext fresh_parseDepthInto]
    exact genuineFile_quotedRun
  exact rows_uncrossed (by decide +kernel) (by decide +kernel) uncrossed_quotedExchange
    genuineFrames_quotedInputs hfile r (.inl hr)

end LobCapture
