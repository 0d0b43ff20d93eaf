/-
# Checkpoints between contiguous diffs

In a replay without a sidecar a depth5 row seeds the book even if the book is ahead of it, and
the id of the book moves back.  Within a connection whose diffs are contiguous this is the only
way in which a gap can come up once the book is there: the next diff then starts behind the last
one, not behind the checkpoint.
-/
import LobCapture.Capture.Bare
import LobCapture.Capture.Reproduction
import LobCapture.Session.Resync

namespace LobCapture

open Lib BookSession SymReplay

namespace BookSession

variable {s : BookSession} {v : Venue} {S : UInt64} {l : List DepthEvent} {b b' : OrderBook}
  {cbs : List (DepthEvent × OrderBook)}

/-- A loop that gets to the end leaves no event ahead of the book. -/
lemma Consumes.le_of_mem {rest : List DepthEvent} (h : Consumes v S b l b' cbs rest)
    (hrest : rest = []) (hS : S ≤ b.lastUpdateId) : ∀ e ∈ l, e.u ≤ b'.lastUpdateId := by
  induction h with
  | done b => simp
  | @skip b b' ev l rest cbs hold h ih =>
    have hle := h.increasing.2.1
    rintro e (_ | ⟨_, he⟩)
    · rcases hold with hold | hold
      · exact (hold.trans hS).trans hle
      · exact hold.trans hle
    · exact ih hrest hS e he
  | @apply b b' ev l rest cbs hSlt hnew hb h ih =>
    have hle := h.increasing.2.1
    rintro e (_ | ⟨_, he⟩)
    · exact hle
    · exact ih hrest hSlt.le e he
  | gap hSlt hnew hb => exact absurd hrest (List.cons_ne_nil _ _)

lemma venue_step (s : BookSession) (c : Call) : (step s c).1.venue = s.venue := by
  cases c with
  | onDiff ev =>
    show (s.onDiff ev).2.venue = s.venue
    rcases s.onDiff_cases ev with ⟨-, heq⟩ | ⟨-, -, heq⟩ | ⟨-, -, -, heq⟩ | ⟨-, -, -, heq⟩
    · rw [heq]
      exact venue_bufferEvent
    · rw [heq]
    · rw [heq]
    · rw [heq]
      exact venue_bufferEvent
  | onSnapshot bids asks S =>
    obtain ⟨b', cbs, rest, -, heq⟩ := s.onSnapshot_cases bids asks S
    simp only [step, heq]
  | requestResync => rfl

instance syncedDecidable (s : BookSession) : Decidable s.Synced :=
  inferInstanceAs (Decidable (_ ∧ _))

lemma pending_bufferEvent (h : s.resyncPending = true) (ev : DepthEvent) :
    (s.bufferEvent ev).resyncPending = true := by
  rw [bufferEvent]
  split_ifs
  · rfl
  · exact h

/-- With nothing in the buffer a snapshot just seeds the book. -/
lemma onSnapshot_of_empty (h : s.buffer = []) (bids asks : List Level) (S : UInt64) :
    (s.onSnapshot bids asks S).session =
      { s with ob := s.ob.setSnapshot .stored bids asks S, resyncPending := false } := by
  rw [onSnapshot, h, replayBuffer, ← h]

/-- The last event that waits is the one that has come last. -/
lemma getLast?_bufferEvent (s : BookSession) (ev : DepthEvent) :
    (s.bufferEvent ev).buffer.getLast? = some ev := by
  rw [bufferEvent]
  exact List.getLast?_concat ..

end BookSession

/-! ## Sessions of a replay -/

variable {parse : Bytes → Option DepthEvent} {cfg : Config} {y : Bytes}

/-- A session of a replay. -/
structure Kept (v : Venue) (s : BookSession) : Prop where
  inv : s.Inv
  venue : s.venue = v

lemma Kept.step {v : Venue} {s : BookSession} (h : Kept v s) (c : Call) :
    Kept v (BookSession.step s c).1 :=
  ⟨h.inv.step c, (venue_step s c).trans h.venue⟩

lemma Kept.enterEpoch {v : Venue} {r : SymReplay} (h : Kept v r.sess) (n : UInt64) :
    Kept v (r.enterEpoch n).sess := by
  cases he : r.epoch with
  | none =>
    rw [sess_enterEpoch_none he]
    exact h
  | some e =>
    rw [sess_enterEpoch_some he]
    split_ifs
    · exact h
    · exact h.step .requestResync

/-- A row is quiet, or a diff, or a depth5 event. -/
lemma Row.cases_of_parse (parse : Bytes → Option DepthEvent) (row : Row) :
    row.Quiet parse ∨ (∃ ev, row.diffEvent parse = some ev) ∨
      ∃ ev, row.depth5Event parse = some ev := by
  cases hd : row.diffEvent parse with
  | some ev => exact .inr (.inl ⟨ev, rfl⟩)
  | none =>
    cases h5 : row.depth5Event parse with
    | some ev => exact .inr (.inr ⟨ev, rfl⟩)
    | none => exact .inl ⟨hd, h5⟩

lemma kept_bareRun (rows : List Row) : Kept cfg.venue (bareRun parse cfg y rows).sess := by
  induction rows using List.reverseRecOn with
  | nil => exact ⟨inv_new _ _, rfl⟩
  | append_singleton rows row ih =>
    have hentered := ih.enterEpoch row.connEpoch
    rw [bareRun_concat]
    rcases row.cases_of_parse parse with hq | ⟨ev, hev⟩ | ⟨ev, hev⟩
    · rw [sess_bare_quiet hq]
      exact hentered
    · rw [sess_bare_diff hev]
      exact hentered.step (.onDiff ev)
    · rw [sess_bare_depth5 hev]
      exact hentered.step (.onSnapshot ev.bids ev.asks ev.lastUpdateId)

/-! ## One connection -/

/-- A connection among the rows of a symbol: rows of one epoch, with another epoch before. -/
structure Connection (epoch : UInt64) (before block : List Row) : Prop where
  same : ∀ row ∈ block, row.connEpoch = epoch
  starts : ∀ row ∈ before.getLast?, row.connEpoch ≠ epoch

variable (parse cfg y) in
/-- The session as a row of the connection finds it, after the rows that were before. -/
def found (epoch : UInt64) (rows : List Row) : BookSession :=
  ((bareRun parse cfg y rows).enterEpoch epoch).sess

section Found

variable {epoch : UInt64} {before block : List Row} {row : Row} {ev : DepthEvent}

lemma kept_found (rows : List Row) : Kept cfg.venue (found parse cfg y epoch rows) :=
  (kept_bareRun rows).enterEpoch epoch

lemma found_concat (hrow : row.connEpoch = epoch) (rows : List Row) :
    found parse cfg y epoch (rows ++ [row]) =
      ((bareRun parse cfg y rows).bare parse cfg row).sess := by
  rw [found, bareRun_concat, sess_enterEpoch_some (epoch_bare _ row), if_pos hrow]

lemma found_diff (hrow : row.connEpoch = epoch) (hev : row.diffEvent parse = some ev)
    (rows : List Row) :
    found parse cfg y epoch (rows ++ [row]) = ((found parse cfg y epoch rows).onDiff ev).2 := by
  rw [found_concat hrow, sess_bare_diff hev, hrow]
  rfl

lemma found_depth5 (hrow : row.connEpoch = epoch) (hev : row.depth5Event parse = some ev)
    (rows : List Row) :
    found parse cfg y epoch (rows ++ [row]) =
      ((found parse cfg y epoch rows).onSnapshot ev.bids ev.asks ev.lastUpdateId).session := by
  rw [found_concat hrow, sess_bare_depth5 hev, hrow]
  rfl

lemma found_quiet (hrow : row.connEpoch = epoch) (hq : row.Quiet parse) (rows : List Row) :
    found parse cfg y epoch (rows ++ [row]) = found parse cfg y epoch rows := by
  rw [found_concat hrow, sess_bare_quiet hq, hrow]
  rfl

/-- The connection starts with an empty buffer and without a book. -/
lemma found_start (h : Connection epoch before block) :
    ¬ (found parse cfg y epoch before).Synced ∧ (found parse cfg y epoch before).buffer = [] := by
  rw [found]
  cases hlast : before.getLast? with
  | none =>
    obtain rfl := List.getLast?_eq_none_iff.mp hlast
    rw [sess_enterEpoch_none rfl]
    exact ⟨fun hs => absurd hs.1 (by simp [bareRun, SymReplay.new, Emitter.new, BookSession.new]),
      rfl⟩
  | some row =>
    have he : (bareRun parse cfg y before).epoch = some row.connEpoch := by
      rw [epoch_bareRun, hlast]
      rfl
    rw [sess_enterEpoch_some he, if_neg (h.starts row hlast)]
    exact ⟨fun hs => absurd hs.1 (by simp [requestResync]), rfl⟩

variable (parse cfg y) in
/-- The last depth data that the session has seen is a checkpoint that has found nothing in the
buffer, so the id of the book is that of the checkpoint. -/
def AtCheckpoint (epoch : UInt64) (before rows : List Row) : Prop :=
  ∃ b0 chk quiet C, rows = b0 ++ chk :: quiet ∧ (∀ q ∈ quiet, q.Quiet parse) ∧
    chk.depth5Event parse = some C ∧
    ((found parse cfg y epoch (before ++ b0)).Synced ∨ diffEvents parse b0 = []) ∧
    (found parse cfg y epoch (before ++ rows)).ob.lastUpdateId = C.lastUpdateId

variable (parse cfg y) in
/-- How the session stands after some rows of the connection: as long as it is pending the last
diff waits at the end of the buffer, and later the book is not behind it, unless a checkpoint has
moved it back. -/
structure Standing (epoch : UInt64) (before rows : List Row) : Prop where
  waiting : ¬ (found parse cfg y epoch (before ++ rows)).Synced →
    (found parse cfg y epoch (before ++ rows)).buffer.getLast? = (diffEvents parse rows).getLast?
  ready : (found parse cfg y epoch (before ++ rows)).Synced →
    (∃ d ∈ (diffEvents parse rows).getLast?,
      d.u ≤ (found parse cfg y epoch (before ++ rows)).ob.lastUpdateId) ∨
    AtCheckpoint parse cfg y epoch before rows

lemma diffEvents_concat (rows : List Row) (row : Row) :
    diffEvents parse (rows ++ [row]) = diffEvents parse rows ++ (row.diffEvent parse).toList := by
  rw [diffEvents, List.filterMap_append, diffEvents]
  cases hd : row.diffEvent parse with
  | none => rw [List.filterMap_cons_none hd]; rfl
  | some ev => rw [List.filterMap_cons_some hd]; rfl

lemma diffEvent_of_depth5 (h : row.depth5Event parse = some ev) : row.diffEvent parse = none := by
  rw [Row.depth5Event] at h
  split_ifs at h with h5
  rw [Row.diffEvent, if_neg]
  rw [h5]
  decide

namespace Standing

variable {rows : List Row}

lemma nil (h : Connection epoch before block) : Standing parse cfg y epoch before [] := by
  obtain ⟨hs, hbuffer⟩ := @found_start parse cfg y _ _ _ h
  rw [← List.append_nil before] at hs hbuffer
  exact ⟨fun _ => by rw [hbuffer]; rfl, fun hsync => absurd hsync hs⟩

lemma quiet (h : Standing parse cfg y epoch before rows) (hrow : row.connEpoch = epoch)
    (hq : row.Quiet parse) : Standing parse cfg y epoch before (rows ++ [row]) := by
  have hfound := @found_quiet parse cfg y _ _ hrow hq (before ++ rows)
  rw [List.append_assoc] at hfound
  have hdiffs : diffEvents parse (rows ++ [row]) = diffEvents parse rows := by
    rw [diffEvents_concat, hq.1]
    exact List.append_nil _
  constructor
  · rw [hfound, hdiffs]
    exact h.waiting
  · rw [hfound, hdiffs]
    intro hs
    refine (h.ready hs).imp_right ?_
    rintro ⟨b0, chk, quiet, C, rfl, hquiet, hC, hempty, hid⟩
    refine ⟨b0, chk, quiet ++ [row], C, by simp, fun q hmem => ?_, hC, hempty, ?_⟩
    · rcases List.mem_append.mp hmem with hmem | hmem
      · exact hquiet q hmem
      · rwa [List.mem_singleton.mp hmem]
    · rw [hfound, hid]

/-- After a diff it does not matter how the session stood before. -/
lemma diff (hrow : row.connEpoch = epoch) (hev : row.diffEvent parse = some ev) :
    Standing parse cfg y epoch before (rows ++ [row]) := by
  have hfound := @found_diff parse cfg y _ _ _ hrow hev (before ++ rows)
  rw [List.append_assoc] at hfound
  have hinv := (@kept_found parse cfg y epoch (before ++ rows)).inv
  have hlast : (diffEvents parse (rows ++ [row])).getLast? = some ev := by
    rw [diffEvents_concat, hev]
    exact List.getLast?_concat ..
  rcases (found parse cfg y epoch (before ++ rows)).onDiff_cases ev with
    ⟨hs, heq⟩ | ⟨hs, hold, heq⟩ | ⟨hs, -, -, heq⟩ | ⟨-, -, -, heq⟩
  · rw [heq] at hfound
    have hp := pending_bufferEvent (by simpa [hinv.synced_iff] using hs) ev
    refine ⟨fun _ => ?_, fun hsync => ?_⟩
    · rw [hfound, hlast]
      exact getLast?_bufferEvent _ _
    · rw [hfound] at hsync
      exact absurd hsync.1 (by simp [hp])
  · rw [heq] at hfound
    refine ⟨fun hn => absurd (hfound ▸ hs) hn, fun _ => .inl ⟨ev, hlast, ?_⟩⟩
    rwa [hfound]
  · rw [heq] at hfound
    refine ⟨fun hn => absurd ?_ hn, fun _ => .inl ⟨ev, hlast, ?_⟩⟩
    · rw [hfound]
      exact ⟨hs.1, (OrderBook.initialized_advance ev _).trans hs.2⟩
    · rw [hfound]
      exact le_rfl
  · -- the diff that shows a gap waits, too
    rw [heq] at hfound
    refine ⟨fun _ => ?_, fun hsync => ?_⟩
    · rw [hfound, hlast]
      exact getLast?_bufferEvent _ _
    · rw [hfound] at hsync
      exact absurd hsync.1 (by simp [pending_bufferEvent])

lemma depth5 (h : Standing parse cfg y epoch before rows) (hrow : row.connEpoch = epoch)
    (hev : row.depth5Event parse = some ev) :
    Standing parse cfg y epoch before (rows ++ [row]) := by
  have hfound := @found_depth5 parse cfg y _ _ _ hrow hev (before ++ rows)
  rw [List.append_assoc] at hfound
  have hinv := (@kept_found parse cfg y epoch (before ++ rows)).inv
  have hdiffs : diffEvents parse (rows ++ [row]) = diffEvents parse rows := by
    rw [diffEvents_concat, diffEvent_of_depth5 hev]
    exact List.append_nil _
  by_cases hbuffer : (found parse cfg y epoch (before ++ rows)).buffer = []
  · -- the checkpoint becomes the book
    rw [onSnapshot_of_empty hbuffer] at hfound
    refine ⟨fun hn => absurd ?_ hn, fun _ => .inr ⟨rows, row, [], ev, rfl, by simp, hev, ?_, ?_⟩⟩
    · rw [hfound]
      exact ⟨rfl, rfl⟩
    · by_cases hs : (found parse cfg y epoch (before ++ rows)).Synced
      · exact .inl hs
      · have hlast := h.waiting hs
        rw [hbuffer, List.getLast?_nil] at hlast
        exact .inr (List.getLast?_eq_none_iff.mp hlast.symm)
    · rw [hfound]
      rfl
  · have hs : ¬ (found parse cfg y epoch (before ++ rows)).Synced := fun hs =>
      hbuffer (hinv.synced hs.1).2
    have hlast := h.waiting hs
    obtain ⟨b', cbs, rest, hc, heq⟩ := (found parse cfg y epoch (before ++ rows)).onSnapshot_cases
      ev.bids ev.asks ev.lastUpdateId
    rw [heq] at hfound
    by_cases hrest : rest = []
    · refine ⟨fun hn => absurd ?_ hn, fun _ => .inl ?_⟩
      · rw [hfound]
        exact ⟨by simp [hrest], hc.initialized⟩
      · -- the last diff is no longer ahead of the book
        obtain ⟨d, hd⟩ := Option.isSome_iff_exists.mp (List.getLast?_isSome.mpr hbuffer)
        refine ⟨d, by rw [hdiffs, ← hlast, hd]; rfl, ?_⟩
        rw [hfound]
        exact hc.le_of_mem hrest le_rfl d (List.mem_of_getLast? hd)
    · refine ⟨fun _ => ?_, fun hsync => ?_⟩
      · rw [hfound, hdiffs, ← hlast]
        obtain ⟨pre, hpre⟩ := hc.suffix
        rw [← hpre, List.getLast?_append_of_ne_nil _ hrest]
      · rw [hfound] at hsync
        exact absurd hsync.1 (by simpa using hrest)

/-- How the session stands at every row of the connection. -/
lemma of_prefix (h : Connection epoch before block) {rows rest : List Row}
    (hrows : block = rows ++ rest) : Standing parse cfg y epoch before rows := by
  induction rows using List.reverseRecOn generalizing rest with
  | nil => exact nil h
  | append_singleton rows row ih =>
    rw [List.append_assoc] at hrows
    have hstanding := ih hrows
    have hrow : row.connEpoch = epoch := h.same row (by simp [hrows])
    rcases row.cases_of_parse parse with hq | ⟨ev, hev⟩ | ⟨ev, hev⟩
    · exact hstanding.quiet hrow hq
    · exact diff hrow hev
    · exact hstanding.depth5 hrow hev

end Standing

/-! ## Rows that go smoothly -/

variable (parse cfg) in
/-- A row that finds a book which is seeded and not pending leaves it so and shows no gap, and a
diff that is ahead of the book is applied and has its row. -/
def Smooth (r : SymReplay) (row : Row) : Prop :=
  (r.enterEpoch row.connEpoch).sess.Synced →
    (r.bare parse cfg row).sess.Synced ∧
      r.diffOutcome parse row ≠ some .resyncNeeded ∧
      ∀ ev ∈ row.diffEvent parse,
        (r.enterEpoch row.connEpoch).sess.ob.lastUpdateId < ev.u →
          r.diffOutcome parse row = some .applied ∧
            (r.bare parse cfg row).rows = r.rows ++
              [(r.bare parse cfg row).sess.ob.fillTop5
                { ts := row.ts, seqNo := r.seq + 1, type := 'D' }]

variable (parse cfg y) in
/-- A depth5 row that finds the book seeded and not pending, and is the last one with depth data
between two diffs, is not behind the first of these. -/
def CheckpointsKeepUp (before block : List Row) : Prop :=
  ∀ b0 chk quiet row b2, block = b0 ++ chk :: (quiet ++ row :: b2) →
    ((bareRun parse cfg y (before ++ b0)).enterEpoch chk.connEpoch).sess.Synced →
    (∀ q ∈ quiet, q.Quiet parse) → (row.diffEvent parse).isSome →
      ∀ C ∈ chk.depth5Event parse, ∀ d ∈ (diffEvents parse b0).getLast?, d.u ≤ C.lastUpdateId

/-- A row without a diff never does any harm. -/
lemma smooth_of_no_diff {r : SymReplay} (hinv : (r.enterEpoch row.connEpoch).sess.Inv)
    (hd : row.diffEvent parse = none) : Smooth parse cfg r row := by
  intro hs
  have hnone : r.diffOutcome parse row = none := by rw [diffOutcome, hd]; rfl
  refine ⟨?_, by simp [hnone], fun ev hev => absurd (hd ▸ hev) (by simp)⟩
  rcases row.cases_of_parse parse with hq | ⟨ev, hev⟩ | ⟨ev, hev⟩
  · rw [sess_bare_quiet hq]
    exact hs
  · exact absurd (hd ▸ hev) (by simp)
  · rw [sess_bare_depth5 hev, onSnapshot_of_empty (hinv.synced hs.1).2]
    exact ⟨rfl, rfl⟩

/-- A diff does no harm when it is old or connects to the book. -/
lemma smooth_of_bridges {r : SymReplay} (hev : row.diffEvent parse = some ev)
    (hb : (r.enterEpoch row.connEpoch).sess.ob.lastUpdateId < ev.u →
      (r.enterEpoch row.connEpoch).sess.ob.Bridges (r.enterEpoch row.connEpoch).sess.venue ev) :
    Smooth parse cfg r row := by
  intro hs
  have houtcome : r.diffOutcome parse row =
      some ((r.enterEpoch row.connEpoch).sess.onDiff ev).1 := by rw [diffOutcome, hev]; rfl
  rw [houtcome, sess_bare_diff hev]
  rcases (r.enterEpoch row.connEpoch).sess.onDiff_cases ev with
    ⟨hn, -⟩ | ⟨-, hold, heq⟩ | ⟨-, hnew, -, heq⟩ | ⟨-, hnew, hnb, -⟩
  · exact absurd hs hn
  · rw [heq]
    refine ⟨hs, by simp, fun e he hnew => absurd hold (not_le_of_gt ?_)⟩
    obtain rfl : ev = e := Option.some.inj (hev.symm.trans he)
    exact hnew
  · have ho : ((r.enterEpoch row.connEpoch).sess.onDiff ev).1 = .applied := by rw [heq]
    refine ⟨synced_onDiff ho, by simp [ho], fun e _ _ => ⟨by rw [ho], ?_⟩⟩
    rw [← sess_bare_diff hev]
    exact rows_bare_applied hev ho
  · exact absurd (hb hnew) hnb

/-- The diffs before and after a row that has one. -/
lemma diffEvents_split {b1 b2 : List Row} (hev : row.diffEvent parse = some ev) :
    diffEvents parse (b1 ++ row :: b2) = diffEvents parse b1 ++ ev :: diffEvents parse b2 := by
  rw [diffEvents, List.filterMap_append, List.filterMap_cons_some hev]
  rfl

/-- The next diff starts right behind the last one. -/
lemma next_of_contiguous {b1 b2 : List Row} {d : DepthEvent}
    (h : Contiguous (diffEvents parse (b1 ++ row :: b2))) (hev : row.diffEvent parse = some ev)
    (hd : d ∈ (diffEvents parse b1).getLast?) : ev.U.toNat = d.u.toNat + 1 := by
  rw [diffEvents_split hev] at h
  exact (List.isChain_append.mp h.2).2.2 d hd ev rfl

/-- A checkpoint and quiet rows add no diffs. -/
lemma diffEvents_checkpoint {b0 quiet : List Row} {chk : Row} {C : DepthEvent}
    (hC : chk.depth5Event parse = some C) (hquiet : ∀ q ∈ quiet, q.Quiet parse) :
    diffEvents parse (b0 ++ chk :: quiet) = diffEvents parse b0 := by
  have hnone : quiet.filterMap (Row.diffEvent parse) = [] :=
    List.filterMap_eq_nil_iff.mpr fun q hq => (hquiet q hq).1
  rw [diffEvents, List.filterMap_append, List.filterMap_cons_none (diffEvent_of_depth5 hC), hnone,
    List.append_nil]
  rfl

/-- Quiet rows leave the session as it is. -/
lemma found_append_quiet {quiet : List Row} (hquiet : ∀ q ∈ quiet, q.Quiet parse)
    (hsame : ∀ q ∈ quiet, q.connEpoch = epoch) (rows : List Row) :
    found parse cfg y epoch (rows ++ quiet) = found parse cfg y epoch rows := by
  induction quiet generalizing rows with
  | nil => rw [List.append_nil]
  | cons q quiet ih =>
    rw [List.append_cons, ih (fun x hx => hquiet x (List.mem_cons_of_mem _ hx))
      fun x hx => hsame x (List.mem_cons_of_mem _ hx)]
    exact found_quiet (hsame q List.mem_cons_self) (hquiet q List.mem_cons_self) rows

/-- The checkpoint that the book stands at is not behind the last diff. -/
lemma le_of_atCheckpoint {rows rest : List Row} (h : Connection epoch before block)
    (hblock : block = rows ++ row :: rest) (hkeep : CheckpointsKeepUp parse cfg y before block)
    (hev : row.diffEvent parse = some ev) (hat : AtCheckpoint parse cfg y epoch before rows) :
    (∀ d ∈ (diffEvents parse rows).getLast?,
        d.u ≤ (found parse cfg y epoch (before ++ rows)).ob.lastUpdateId) ∧
      ∃ chk ∈ block, ∃ C ∈ chk.depth5Event parse,
        (found parse cfg y epoch (before ++ rows)).ob.lastUpdateId = C.lastUpdateId := by
  obtain ⟨b0, chk, quiet, C, rfl, hquiet, hC, hempty, hid⟩ := hat
  have hsplit : block = b0 ++ chk :: (quiet ++ row :: rest) := by
    rw [hblock, List.append_assoc, List.cons_append]
  have hchk : chk ∈ block := by simp [hsplit]
  refine ⟨fun d hd => ?_, chk, hchk, C, hC, hid⟩
  rw [diffEvents_checkpoint hC hquiet] at hd
  rw [hid]
  rcases hempty with hs | hnil
  · rw [found, ← h.same chk hchk] at hs
    exact hkeep b0 chk quiet row rest hsplit hs hquiet (by simp [hev]) C hC d hd
  · simp [hnil] at hd

/-- With checkpoints that keep up every row of the connection goes smoothly. -/
lemma smooth_of_keepUp (hv : cfg.venue = .spot) (h : Connection epoch before block)
    (hc : Contiguous (diffEvents parse block))
    (hrange : ∀ chk ∈ block, ∀ C ∈ chk.depth5Event parse,
      ∀ d ∈ (diffEvents parse block).head?, d.U ≤ C.lastUpdateId)
    (hkeep : CheckpointsKeepUp parse cfg y before block) {rows rest : List Row}
    (hblock : block = rows ++ row :: rest) :
    Smooth parse cfg (bareRun parse cfg y (before ++ rows)) row := by
  have hrow : row.connEpoch = epoch := h.same row (by simp [hblock])
  have hkept := @kept_found parse cfg y row.connEpoch (before ++ rows)
  cases hd : row.diffEvent parse with
  | none => exact smooth_of_no_diff hkept.inv hd
  | some ev =>
    intro hs
    refine smooth_of_bridges hd (fun _ => ?_) hs
    have hvenue : ((bareRun parse cfg y (before ++ rows)).enterEpoch row.connEpoch).sess.venue =
        .spot := hkept.venue.trans hv
    rw [hvenue]
    show ev.U.toNat ≤ (found parse cfg y row.connEpoch (before ++ rows)).ob.lastUpdateId.toNat + 1
    rw [hrow]
    have hs' : (found parse cfg y epoch (before ++ rows)).Synced := by rwa [found, ← hrow]
    -- either the book is not behind the last diff, or there was none and a checkpoint is ahead
    have hle : ∀ d ∈ (diffEvents parse rows).getLast?,
        d.u ≤ (found parse cfg y epoch (before ++ rows)).ob.lastUpdateId →
        ev.U.toNat ≤ (found parse cfg y epoch (before ++ rows)).ob.lastUpdateId.toNat + 1 := by
      intro d hlast hle
      have hnext := next_of_contiguous (hblock ▸ hc) hd hlast
      rw [UInt64.le_iff_toNat_le] at hle
      omega
    rcases (Standing.of_prefix h hblock).ready hs' with ⟨d, hlast, hd⟩ | hat
    · exact hle d hlast hd
    · obtain ⟨hback, chk, hchk, C, hC, hid⟩ := le_of_atCheckpoint h hblock hkeep hd hat
      cases hlast : (diffEvents parse rows).getLast? with
      | some d => exact hle d hlast (hback d hlast)
      | none =>
        have hfirst : ev ∈ (diffEvents parse block).head? := by
          rw [hblock, diffEvents_split hd, List.getLast?_eq_none_iff.mp hlast]
          rfl
        have hU := hrange chk hchk C hC ev hfirst
        rw [hid]
        rw [UInt64.le_iff_toNat_le] at hU
        omega

/-- A checkpoint that is behind shows as a gap at the next diff. -/
lemma keepUp_of_smooth (hv : cfg.venue = .spot) (h : Connection epoch before block)
    (hc : Contiguous (diffEvents parse block))
    (hsmooth : ∀ rows row rest, block = rows ++ row :: rest →
      Smooth parse cfg (bareRun parse cfg y (before ++ rows)) row) :
    CheckpointsKeepUp parse cfg y before block := by
  intro b0 chk quiet row b2 hblock hs hquiet hrow C hC d hd
  obtain ⟨ev, hev⟩ := Option.isSome_iff_exists.mp hrow
  have hsame : ∀ x ∈ chk :: (quiet ++ row :: b2), x.connEpoch = epoch := fun x hx =>
    h.same x (by rw [hblock]; exact List.mem_append_right _ hx)
  have hchk : chk.connEpoch = epoch := hsame chk List.mem_cons_self
  have hepoch : row.connEpoch = epoch := hsame row (by simp)
  rw [hchk] at hs
  -- the checkpoint is the book that the diff finds
  have hfound : found parse cfg y epoch (before ++ (b0 ++ chk :: quiet)) =
      ((found parse cfg y epoch (before ++ b0)).onSnapshot C.bids C.asks
        C.lastUpdateId).session := by
    have hlist : before ++ (b0 ++ chk :: quiet) = before ++ b0 ++ [chk] ++ quiet := by simp
    rw [hlist, found_append_quiet hquiet fun q hq => hsame q (by simp [hq]),
      found_depth5 hchk hC]
  have hbuffer : (found parse cfg y epoch (before ++ b0)).buffer = [] :=
    ((@kept_found parse cfg y epoch (before ++ b0)).inv.synced hs.1).2
  rw [onSnapshot_of_empty hbuffer] at hfound
  have hsplit : block = (b0 ++ chk :: quiet) ++ row :: b2 := by
    rw [hblock, List.append_assoc, List.cons_append]
  have hsession : ((bareRun parse cfg y (before ++ (b0 ++ chk :: quiet))).enterEpoch
      row.connEpoch).sess = _ := (congrArg (fun e => found parse cfg y e _) hepoch).trans hfound
  obtain ⟨-, hgap, -⟩ := hsmooth _ row b2 hsplit (by rw [hsession]; exact ⟨rfl, rfl⟩)
  rw [diffOutcome, hev, Option.map_some, hsession] at hgap
  have hnext : ev.U.toNat = d.u.toNat + 1 := next_of_contiguous (hsplit ▸ hc) hev
    (by rwa [diffEvents_checkpoint hC hquiet])
  have hUu : ev.U ≤ ev.u := hc.1 ev (by rw [hsplit, diffEvents_split hev]; simp)
  by_contra hlt
  rw [UInt64.le_iff_toNat_le] at hUu hlt
  have hvenue := (@kept_found parse cfg y epoch (before ++ b0)).venue.trans hv
  generalize ht : ({ found parse cfg y epoch (before ++ b0) with
    ob := (found parse cfg y epoch (before ++ b0)).ob.setSnapshot .stored C.bids C.asks
      C.lastUpdateId
    resyncPending := false } : BookSession) = t at hgap
  have hid : t.ob.lastUpdateId = C.lastUpdateId := by rw [← ht]; rfl
  have ht' : t.venue = .spot := by rw [← ht]; exact hvenue
  rcases t.onDiff_cases ev with ⟨hn, -⟩ | ⟨-, hold, -⟩ | ⟨-, -, hb, -⟩ | ⟨-, -, -, heq⟩
  · exact hn (by rw [← ht]; exact ⟨rfl, rfl⟩)
  · rw [hid, UInt64.le_iff_toNat_le] at hold
    omega
  · rw [ht'] at hb
    simp only [OrderBook.Bridges, hid] at hb
    omega
  · exact hgap (by rw [heq])

/-! ## Result -/

/-- **Contiguous diffs show no gap, exactly when the checkpoints keep up.** -/
theorem replay_smooth_iff (parse : Bytes → Option DepthEvent) (cfg : Config)
    (hv : cfg.venue = .spot) (y md : Bytes) (epoch : UInt64) (before block after : List Row)
    (hrows : fileRows y md = before ++ block ++ after) (h : Connection epoch before block)
    (hc : Contiguous (diffEvents parse block))
    (hrange : ∀ chk ∈ block, ∀ C ∈ chk.depth5Event parse,
      ∀ d ∈ (diffEvents parse block).head?, d.U ≤ C.lastUpdateId) :
    (runReplay parse cfg md none).1.book cfg y =
        after.foldl (bare parse cfg) (bareRun parse cfg y (before ++ block)) ∧
      ((∀ rows row rest, block = rows ++ row :: rest →
          Smooth parse cfg (bareRun parse cfg y (before ++ rows)) row) ↔
        CheckpointsKeepUp parse cfg y before block) := by
  refine ⟨?_, keepUp_of_smooth hv h hc, fun hkeep rows row rest hblock =>
    smooth_of_keepUp hv h hc hrange hkeep hblock⟩
  rw [book_runReplay_none, hrows, bareRun, List.foldl_append, ← bareRun]

end Found

/-- A market-data file with rows of the symbol `A`, all of one connection. -/
def captured (venue : Venue) (rows : List (StreamKind × String)) : Bytes :=
  marketDataHeader ++ newline :: rows.flatMap fun x =>
    writeRow ⟨7, 8⟩ venue x.1 0 0 0 (lit "A") (lit x.2)

/-- A spot diff of one id. -/
def oneId (id : String) : StreamKind × String :=
  (.depthDiff, "\x7b\"U\":" ++ id ++ ",\"u\":" ++ id ++ ",\"b\":[],\"a\":[]\x7d")

/-- A spot depth5 payload. -/
def partialDepth (id : String) : StreamKind × String :=
  (.depth5, "\x7b\"lastUpdateId\":" ++ id ++ ",\"bids\":[],\"asks\":[]\x7d")

/-- A checkpoint that seeds the book, and contiguous diffs. -/
def alignedFile : Bytes := captured .spot [oneId "10", partialDepth "10", oneId "11"]

/-- The same with a checkpoint that is one diff behind. -/
def laggingFile : Bytes :=
  captured .spot [oneId "10", partialDepth "10", oneId "11", partialDepth "10", oneId "12"]

theorem replay_smooth_aligned :
    let block := fileRows (lit "A") alignedFile
    block.length = 3 ∧ ∀ rows row rest, block = rows ++ row :: rest →
      Smooth parseDepth oneSymbol (bareRun parseDepth oneSymbol (lit "A") rows) row := by
  intro block
  refine ⟨by decide +kernel, ?_⟩
  have hfacts : ∀ i < 3, ∀ chk ∈ block[i]?, chk.depth5Event parseDepth = none ∨
      ¬ ((bareRun parseDepth oneSymbol (lit "A") (block.take i)).enterEpoch
        chk.connEpoch).sess.Synced := by
    decide +kernel
  have hkeep : CheckpointsKeepUp parseDepth oneSymbol (lit "A") [] block := by
    intro b0 chk quiet row b2 hblock hs _ _ C hC
    have hlt : b0.length < 3 := by
      have hlen : block.length = 3 := by decide +kernel
      rw [hblock, List.length_append, List.length_cons] at hlen
      omega
    rcases hfacts b0.length hlt chk (by simp [hblock]) with hnone | hn
    · exact absurd (hnone ▸ hC) (by simp)
    · exact absurd hs (by rwa [hblock, List.take_left] at hn)
  exact (replay_smooth_iff parseDepth oneSymbol rfl (lit "A") alignedFile 0 [] block []
    (List.append_nil block).symm ⟨by decide +kernel, by simp⟩
    ⟨by decide +kernel, by decide +kernel⟩ (by decide +kernel)).2.mpr hkeep

/-- The checkpoint moves the book back, and the next diff shows a gap. -/
theorem replay_lagging :
    let block := fileRows (lit "A") laggingFile
    (Connection 0 [] block ∧ Contiguous (diffEvents parseDepth block) ∧
      ∀ chk ∈ block, ∀ C ∈ chk.depth5Event parseDepth, 10 ≤ C.lastUpdateId ∧ C.lastUpdateId ≤ 12) ∧
    ¬ ∀ rows row rest, block = rows ++ row :: rest →
      Smooth parseDepth oneSymbol (bareRun parseDepth oneSymbol (lit "A") rows) row := by
  intro block
  refine ⟨⟨⟨by decide +kernel, by simp⟩, ⟨by decide +kernel, by decide +kernel⟩,
    by decide +kernel⟩, fun h => ?_⟩
  have hlen : block.length = 5 := by decide +kernel
  have hfacts : ∀ row ∈ block[4]?,
      let r := bareRun parseDepth oneSymbol (lit "A") (block.take 4)
      (r.enterEpoch row.connEpoch).sess.Synced ∧
        r.diffOutcome parseDepth row = some .resyncNeeded := by
    decide +kernel
  have hsplit : block = block.take 4 ++ block[4] :: [] := by
    rw [List.take_append_getElem, List.take_of_length_le hlen.le]
  obtain ⟨hs, hgap⟩ := hfacts block[4] (List.getElem?_eq_getElem _)
  exact (h _ _ _ hsplit hs).2.1 hgap

end LobCapture
