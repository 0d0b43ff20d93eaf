/-
# A capture that was cut short

A market-data file may end anywhere in a row, when the process was killed or the disk was full.
The lines before that place are read as they were; what is left of the last one has the same
columns up to the one that was cut.  So only the payload of a row can be read in part, and a
replay goes wrong only if the parser accepts such a part as an event in which something else is
read, and the event gets through to the book or to the file.
-/
import LobCapture.Capture.Checkpoints
import Mathlib.Data.List.GetD

namespace LobCapture

open Lib BookSession

/-! ## Columns -/

namespace parseCsvLine

/-- The field that is being read only grows. -/
lemma go_head (q : Bool) (cur s : Bytes) :
    ∃ f fs, go q cur s = f :: fs ∧ cur <+: f := by
  induction q, cur, s using go.induct with
  | case1 q cur => cases q <;> exact ⟨cur, [], rfl, List.prefix_rfl⟩
  | case2 cur ih =>
    rw [go, if_pos rfl]
    exact ih
  | case3 cur ch hch ih =>
    obtain ⟨f, fs, hgo, hf⟩ := ih
    rw [go, if_neg hch]
    exact ⟨f, fs, hgo, (List.prefix_append _ _).trans hf⟩
  | case4 cur s ih =>
    obtain ⟨f, fs, hgo, hf⟩ := ih
    rw [go, if_pos rfl, if_pos rfl]
    exact ⟨f, fs, hgo, (List.prefix_append _ _).trans hf⟩
  | case5 cur next s hnext ih =>
    rw [go, if_pos rfl, if_neg hnext]
    exact ih
  | case6 cur ch next s hch ih =>
    obtain ⟨f, fs, hgo, hf⟩ := ih
    rw [go, if_neg hch]
    exact ⟨f, fs, hgo, (List.prefix_append _ _).trans hf⟩
  | case7 cur s ih =>
    rw [go, if_pos rfl]
    exact ih
  | case8 cur s hne ih =>
    rw [go, if_neg hne, if_pos rfl]
    exact ⟨cur, _, rfl, List.prefix_rfl⟩
  | case9 cur ch s hquote hcomma ih =>
    obtain ⟨f, fs, hgo, hf⟩ := ih
    rw [go, if_neg hquote, if_neg hcomma]
    exact ⟨f, fs, hgo, (List.prefix_append _ _).trans hf⟩

/-- A line that goes on has the same fields, up to the last one, which may go on as well. -/
lemma go_append (q : Bool) (cur s t : Bytes) :
    ∃ init last last' more, go q cur s = init ++ [last] ∧
      go q cur (s ++ t) = init ++ last' :: more ∧ last <+: last' := by
  induction q, cur, s using go.induct with
  | case1 q cur =>
    obtain ⟨f, fs, hgo, hf⟩ := go_head q cur t
    exact ⟨[], cur, f, fs, by cases q <;> rfl, hgo, hf⟩
  | case2 cur ih =>
    rw [go, if_pos rfl]
    cases t with
    | nil => exact ⟨[], cur, cur, [], rfl, by simp [go], List.prefix_rfl⟩
    | cons next t =>
      rw [List.singleton_append, go, go, if_pos rfl]
      split_ifs
      · -- the quote was the first of two
        obtain ⟨f, fs, hgo, hf⟩ := go_head true (cur ++ [quote]) t
        exact ⟨[], cur, f, fs, rfl, hgo, (List.prefix_append _ _).trans hf⟩
      · rwa [go] at ih
  | case3 cur ch hch ih =>
    rw [go, if_neg hch, List.singleton_append, go_char hch]
    exact ih
  | case4 cur s ih =>
    rw [go, if_pos rfl, if_pos rfl, List.cons_append, List.cons_append, go, if_pos rfl, if_pos rfl]
    exact ih
  | case5 cur next s hnext ih =>
    rw [go, if_pos rfl, if_neg hnext, List.cons_append, List.cons_append, go, if_pos rfl,
      if_neg hnext]
    exact ih
  | case6 cur ch next s hch ih =>
    rw [go, if_neg hch, List.cons_append, List.cons_append, go, if_neg hch]
    exact ih
  | case7 cur s ih =>
    rw [go, if_pos rfl, List.cons_append, go, if_pos rfl]
    exact ih
  | case8 cur s hne ih =>
    obtain ⟨init, last, last', more, hs, hst, hlast⟩ := ih
    rw [go, if_neg hne, if_pos rfl, List.cons_append, go, if_neg hne, if_pos rfl, hs, hst]
    exact ⟨cur :: init, last, last', more, rfl, rfl, hlast⟩
  | case9 cur ch s hquote hcomma ih =>
    rw [go, if_neg hquote, if_neg hcomma, List.cons_append, go, if_neg hquote, if_neg hcomma]
    exact ih

end parseCsvLine

/-- **What is left of a row** that was cut, if it is read at all, is the row with a part of its
payload. -/
lemma readRow_append {s t : Bytes} {p : Row} (h : readRow s = some p) :
    ∃ row, readRow (s ++ t) = some row ∧ p.payload <+: row.payload ∧
      p = { row with payload := p.payload } := by
  obtain ⟨init, last, last', more, hs, hst, hlast⟩ := parseCsvLine.go_append false [] s t
  have hfields : parseCsvLine s = init ++ [last] := hs
  have hfields' : parseCsvLine (s ++ t) = init ++ last' :: more := hst
  simp only [readRow] at h
  split_ifs at h with hne hlen
  rw [hfields, List.length_append, List.length_singleton] at hlen
  have hinit : 8 ≤ init.length := by omega
  have hget : ∀ i < 8, (init ++ last' :: more).getD i [] = (init ++ [last]).getD i [] := by
    intro i hi
    rw [List.getD_append _ _ _ _ (by omega), List.getD_append _ _ _ _ (by omega)]
  have hpayload : (init ++ [last]).getD 8 [] <+: (init ++ last' :: more).getD 8 [] := by
    rcases Nat.lt_or_eq_of_le hinit with hlt | heq
    · simp only [List.getD_append _ _ _ _ hlt, List.prefix_rfl]
    · rw [List.getD_append_right _ _ _ _ heq.ge, List.getD_append_right _ _ _ _ heq.ge, ← heq]
      exact hlast
  refine ⟨_, by rw [readRow, if_neg (by simp [hne]), if_neg (by simp [hfields']; omega)], ?_, ?_⟩
  · rw [← Option.some.inj h]
    simpa only [hfields, hfields'] using hpayload
  · rw [← Option.some.inj h]
    simp only [hfields, hfields', hget _ (by decide : 0 < 8), hget _ (by decide : 1 < 8),
      hget _ (by decide : 3 < 8), hget _ (by decide : 5 < 8), hget _ (by decide : 7 < 8)]

/-! ## Lines -/

/-- The lines of a text that goes on: the same, or with another end of the last one. -/
lemma lines_append_cases (a b : Bytes) :
    (∃ more, lines (a ++ b) = lines a ++ more) ∨
      ∃ before last end' after, lines a = before ++ [last] ∧
        lines (a ++ b) = before ++ (last ++ end') :: after := by
  induction a with
  | nil => exact .inl ⟨lines b, rfl⟩
  | cons c a ih =>
    rw [List.cons_append, lines, lines]
    by_cases hc : c = newline
    · rw [if_pos hc, if_pos hc]
      rcases ih with ⟨more, h⟩ | ⟨before, last, end', after, ha, h⟩
      · exact .inl ⟨more, by rw [h, List.cons_append]⟩
      · exact .inr ⟨[] :: before, last, end', after, by rw [ha, List.cons_append],
          by rw [h, List.cons_append]⟩
    · rw [if_neg hc, if_neg hc]
      cases hlines : lines a with
      | nil =>
        -- the text begins with this line
        right
        cases lines (a ++ b) with
        | nil => exact ⟨[], [c], [], [], rfl, rfl⟩
        | cons l ls => exact ⟨[], [c], l, ls, rfl, rfl⟩
      | cons l ls =>
        rw [hlines] at ih
        rcases ih with ⟨more, h⟩ | ⟨before, last, end', after, ha, h⟩
        · exact .inl ⟨more, by rw [h]; rfl⟩
        · right
          cases before with
          | nil =>
            obtain ⟨rfl, rfl⟩ := List.cons.inj ha
            exact ⟨[], c :: l, end', after, rfl, by rw [h]; rfl⟩
          | cons l' before =>
            obtain ⟨rfl, rfl⟩ := List.cons.inj ha
            exact ⟨(c :: l) :: before, last, end', after, rfl, by rw [h]; rfl⟩

/-! ## What the cut leaves -/

/-- The row that is read from what a cut leaves of a line, and the row that the line is. -/
def cutRows (md : Bytes) (n : ℕ) : Option (Row × Row) :=
  let k := (lines (md.take n)).length - 1
  if k = 0 then none
  else
    (readRow ((lines (md.take n)).getD k [])).bind fun p =>
      (readRow ((lines md).getD k [])).map fun row => (p, row)

variable (parse : Bytes → Option DepthEvent) (cfg : Config)

/-- The replay of the lines before the one that is cut. -/
def replayBefore (md : Bytes) (n : ℕ) (sidecar : Option Bytes) : Replay :=
  (run (Replay.onLine parse cfg sidecar.isSome) (.new parse sidecar)
    (((lines md).take ((lines (md.take n)).length - 1)).drop 1)).1

/-- A diff gets into the book of a session: at once, or out of the buffer, when the next one of
the recorded snapshots seeds the book. -/
def BookSession.Takes (snaps : List DepthEvent) (ev : DepthEvent) (s : BookSession) : Prop :=
  (s.onDiff ev).1 = .applied ∨ ∃ snap ∈ snaps.head?,
    ev ∈ ((s.onDiff ev).2.onSnapshot snap.bids snap.asks snap.lastUpdateId).callbacks.map Prod.fst

/-- A row gets no further than to the session of its symbol, where another payload would be in
its place: it is no depth5 row that the parser accepts, and no diff that gets into the book. -/
def SymReplay.Rejects (r : SymReplay) (snaps : List DepthEvent) (row : Row) (payload : Bytes) :
    Prop :=
  row.depth5Event parse = none ∧ ∀ ev ∈ row.diffEvent parse,
    parse payload ≠ none ∧ ¬ (r.enterEpoch row.connEpoch).sess.Takes snaps ev

/-- What a replay reads of the event of a row.  Of a depth5 event it shows five levels, and where
there is a sidecar that is all. -/
def Row.readPart (haveSidecar : Bool) (row : Row) (ev : DepthEvent) : DepthEvent :=
  if row.kind = lit "depth_diff" then
    { U := ev.U, u := ev.u, pu := ev.pu, bids := ev.bids, asks := ev.asks }
  else if haveSidecar then { bids := ev.bids.take 5, asks := ev.asks.take 5 }
  else { lastUpdateId := ev.lastUpdateId, bids := ev.bids, asks := ev.asks }

/-- What a replay reads of a payload. -/
def Row.readPayload (haveSidecar : Bool) (row : Row) (payload : Bytes) : Option DepthEvent :=
  (parse payload).map (row.readPart haveSidecar)

variable {parse} in
lemma Row.readPayload_cases {b : Bool} {row : Row} {d d' : Bytes}
    (h : row.readPayload parse b d = row.readPayload parse b d') :
    parse d = none ∧ parse d' = none ∨ ∃ ev ev', parse d = some ev ∧ parse d' = some ev' ∧
      row.readPart b ev = row.readPart b ev' := by
  rw [Row.readPayload, Row.readPayload] at h
  cases hp : parse d with
  | none =>
    rw [hp, Option.map_none, eq_comm, Option.map_eq_none_iff] at h
    exact .inl ⟨rfl, h⟩
  | some ev =>
    rw [hp, Option.map_some, eq_comm, Option.map_eq_some_iff] at h
    obtain ⟨ev', hp', hpart⟩ := h
    exact .inr ⟨ev, ev', rfl, hp', hpart.symm⟩

/-- What a cut leaves of a row reads like the whole row, or it is rejected. -/
def CutHarmless (md : Bytes) (n : ℕ) (sidecar : Option Bytes) : Prop :=
  ∀ x ∈ cutRows md n,
    x.2.readPayload parse sidecar.isSome x.1.payload =
        x.2.readPayload parse sidecar.isSome x.2.payload ∨
    ((replayBefore parse cfg md n sidecar).book cfg x.1.symbol).Rejects parse
      ((replayBefore parse cfg md n sidecar).snaps x.1.symbol) x.1 x.2.payload

variable {parse cfg} in
lemma SymReplay.rejects_of_eq_none {row : Row} (h : parse row.payload = none) (r : SymReplay)
    (snaps : List DepthEvent) (payload : Bytes) : r.Rejects parse snaps row payload := by
  have hdiff : row.diffEvent parse = none := by simp [Row.diffEvent, h]
  exact ⟨by simp [Row.depth5Event, h], by simp [hdiff]⟩

/-! ## A diff that does not get into the book -/

namespace BookSession

variable {s : BookSession} {ev : DepthEvent} {snaps : List DepthEvent}

/-- The buffer that a session keeps does not matter to the loop. -/
lemma callbacks_buffer (S : UInt64) (w l : List DepthEvent) (s : BookSession) :
    (replayBuffer S l { s with buffer := w }).callbacks = (replayBuffer S l s).callbacks := by
  induction l generalizing s with
  | nil => rfl
  | cons ev l ih =>
    rw [replayBuffer, replayBuffer, applyOne, applyOne]
    split_ifs
    · exact ih s
    · dsimp only
      cases s.ob.applyEvent s.venue ev with
      | mk result b =>
        cases result with
        | applied => exact congrArg (_ :: ·) (ih { s with ob := b })
        | ignoredOld => exact ih { s with ob := b }
        | gap => rfl
        | needSnapshot => exact ih { s with ob := b, resyncPending := true }

lemma fst_of_mem_callbacks {S : UInt64} {x : DepthEvent × OrderBook}
    (hx : x ∈ (replayBuffer S [ev] s).callbacks) : x.1 = ev := by
  rw [replayBuffer] at hx
  split_ifs at hx
  · simp [replayBuffer] at hx
  · rcases happly : s.applyOne ev with ⟨_ | _ | _ | _, s'⟩ <;> rw [happly] at hx <;>
      simp [replayBuffer] at hx
    rw [hx]

/-- An event at the end of the buffer adds at most a callback of its own. -/
lemma callbacks_concat (S : UInt64) (ev : DepthEvent) (l : List DepthEvent) (s : BookSession) :
    ∃ more, (replayBuffer S (l ++ [ev]) s).callbacks = (replayBuffer S l s).callbacks ++ more ∧
      ∀ x ∈ more, x.1 = ev := by
  induction l generalizing s with
  | nil => exact ⟨_, rfl, fun x hx => fst_of_mem_callbacks hx⟩
  | cons e l ih =>
    rw [List.cons_append, replayBuffer, replayBuffer]
    split_ifs
    · exact ih s
    · rcases s.applyOne e with ⟨_ | _ | _ | _, s'⟩
      · exact ih s'
      · obtain ⟨more, h, hmore⟩ := ih s'
        exact ⟨more, congrArg (_ :: ·) h, hmore⟩
      · exact ⟨[], (List.append_nil _).symm, by simp⟩
      · exact ih s'

/-- The callbacks of a snapshot that comes right after a diff has been buffered. -/
lemma callbacks_bufferEvent (snap : DepthEvent) (s : BookSession) :
    ∃ cbs, ∀ ev, ∃ more,
      ((s.bufferEvent ev).onSnapshot snap.bids snap.asks snap.lastUpdateId).callbacks =
        cbs ++ more ∧ ∀ x ∈ more, x.1 = ev := by
  rcases lt_or_ge s.buffer.length kMaxBuffer with hlt | hge
  · refine ⟨(s.onSnapshot snap.bids snap.asks snap.lastUpdateId).callbacks, fun ev => ?_⟩
    rw [bufferEvent_of_lt hlt]
    obtain ⟨more, h, hmore⟩ := callbacks_concat snap.lastUpdateId ev s.buffer
      { s with
        ob := s.ob.setSnapshot .stored snap.bids snap.asks snap.lastUpdateId
        resyncPending := false }
    exact ⟨more, (callbacks_buffer _ (s.buffer ++ [ev]) _ _).trans h, hmore⟩
  · refine ⟨[], fun ev => ?_⟩
    rw [bufferEvent_of_full hge]
    exact callbacks_concat snap.lastUpdateId ev [] _

/-- A diff that is the whole buffer, and does not get into the book, has no callback. -/
lemma callbacks_eq_nil {snap : DepthEvent} (hbuffer : (s.onDiff ev).2.buffer = [ev])
    (h : ¬ s.Takes (snap :: snaps) ev) :
    ((s.onDiff ev).2.onSnapshot snap.bids snap.asks snap.lastUpdateId).callbacks = [] := by
  rw [List.eq_nil_iff_forall_not_mem]
  intro x hx
  refine h (.inr ⟨snap, rfl, List.mem_map.mpr ⟨x, hx, ?_⟩⟩)
  rw [onSnapshot, hbuffer] at hx
  exact fst_of_mem_callbacks hx

/-- After a diff that does not get into the book, any other diff in its place leads to the same
callbacks and more. -/
lemma callbacks_of_not_takes (hs : ¬ s.Synced) {snap : DepthEvent}
    (h : ¬ s.Takes (snap :: snaps) ev) (ev' : DepthEvent) :
    ((s.bufferEvent ev).onSnapshot snap.bids snap.asks snap.lastUpdateId).callbacks <+:
      ((s.bufferEvent ev').onSnapshot snap.bids snap.asks snap.lastUpdateId).callbacks := by
  obtain ⟨cbs, hcbs⟩ := callbacks_bufferEvent snap s
  obtain ⟨more, heq, hmore⟩ := hcbs ev
  obtain ⟨more', heq', -⟩ := hcbs ev'
  have hnil : more = [] := by
    refine List.eq_nil_iff_forall_not_mem.mpr fun x hx => h (.inr ⟨snap, rfl, ?_⟩)
    rw [onDiff, if_pos (not_synced.mp hs), heq, List.map_append, List.mem_append]
    exact .inr (List.mem_map.mpr ⟨x, hx, hmore x hx⟩)
  rw [heq, heq', hnil, List.append_nil]
  exact List.prefix_append _ _

end BookSession

/-! ## Rows are only added -/

namespace Emitter

variable {e : Emitter} {ts : Timestamp} {ev : DepthEvent} {snaps : List DepthEvent}

lemma rows_emitIfReady (ts : Timestamp) (type : Char) (e : Emitter) :
    e.rows <+: (e.emitIfReady ts type).rows := by
  rw [emitIfReady]
  split_ifs
  · exact List.prefix_rfl
  · exact List.prefix_append _ _

lemma rows_emit (cbs : List (DepthEvent × OrderBook)) (e : Emitter) :
    e.rows <+: (cbs.foldl (fun e x => e.emitBook x.1.appliedTime 'D' x.2) e).rows :=
  List.foldlRecOn (motive := fun e' : Emitter => e.rows <+: e'.rows) _ _ List.prefix_rfl
    fun _ he _ _ => he.trans (List.prefix_append _ _)

lemma rows_seed (snap : DepthEvent) (e : Emitter) : e.rows <+: (e.seed snap).rows :=
  rows_emit _ { e with sess := (e.sess.onSnapshot snap.bids snap.asks snap.lastUpdateId).session }

lemma rows_takeDiff (ts : Timestamp) (ev : DepthEvent) (e : Emitter) :
    e.rows <+: (e.takeDiff ts ev).1.rows := by
  simp only [takeDiff]
  split_ifs
  · exact rows_emitIfReady ts 'D' { e with sess := (e.sess.onDiff ev).2 }
  · exact List.prefix_rfl

/-- A diff with the recorded snapshot that it asks for, if one is left. -/
def fetchDiff (ts : Timestamp) (snaps : List DepthEvent) (e : Emitter) (ev : DepthEvent) :
    Emitter :=
  if (e.takeDiff ts ev).2 = true then
    match snaps with
    | [] => (e.takeDiff ts ev).1
    | snap :: _ => (e.takeDiff ts ev).1.seed snap
  else (e.takeDiff ts ev).1

/-- The rows of the callbacks do not depend on the session. -/
lemma rows_emit_sess (s s' : BookSession) (cbs : List (DepthEvent × OrderBook)) (e : Emitter) :
    (cbs.foldl (fun (e : Emitter) x => e.emitBook x.1.appliedTime 'D' x.2)
        { e with sess := s }).rows =
      (cbs.foldl (fun (e : Emitter) x => e.emitBook x.1.appliedTime 'D' x.2)
        { e with sess := s' }).rows := by
  induction cbs generalizing e with
  | nil => rfl
  | cons x cbs ih => exact ih (e.emitBook x.1.appliedTime 'D' x.2)

/-- More callbacks write more rows. -/
lemma rows_seed_prefix {snap : DepthEvent} {s s' : BookSession}
    (h : (s.onSnapshot snap.bids snap.asks snap.lastUpdateId).callbacks <+:
      (s'.onSnapshot snap.bids snap.asks snap.lastUpdateId).callbacks) (e : Emitter) :
    ({ e with sess := s }.seed snap).rows <+: ({ e with sess := s' }.seed snap).rows := by
  obtain ⟨more, hmore⟩ := h
  simp only [seed, ← hmore, List.foldl_append]
  have hsess := rows_emit_sess (s.onSnapshot snap.bids snap.asks snap.lastUpdateId).session
    (s'.onSnapshot snap.bids snap.asks snap.lastUpdateId).session
    (s.onSnapshot snap.bids snap.asks snap.lastUpdateId).callbacks e
  rw [hsess]
  exact rows_emit more _

lemma rows_fetchDiff (ev : DepthEvent) : e.rows <+: (e.fetchDiff ts snaps ev).rows := by
  have hdiff := e.rows_takeDiff ts ev
  rw [fetchDiff.eq_def]
  split_ifs
  · cases snaps with
    | nil => exact hdiff
    | cons snap snaps => exact hdiff.trans (rows_seed snap _)
  · exact hdiff

/-- As long as the book is not there a diff waits in the buffer and asks for a snapshot. -/
lemma takeDiff_pending (hs : ¬ e.sess.Synced) (hp : e.sess.resyncPending = true)
    (ev : DepthEvent) : e.takeDiff ts ev = ({ e with sess := e.sess.bufferEvent ev }, true) := by
  rw [takeDiff, onDiff, if_pos (not_synced.mp hs)]
  simp [pending_bufferEvent hp]

/-- **A diff that does not get into the book** writes nothing that another one in its place would
not write. -/
lemma rows_fetchDiff_of_not_takes (hinv : e.sess.Inv) (h : ¬ e.sess.Takes snaps ev)
    (ev' : DepthEvent) : (e.fetchDiff ts snaps ev).rows <+: (e.fetchDiff ts snaps ev').rows := by
  by_cases hs : e.sess.Synced
  · suffices hrows : (e.fetchDiff ts snaps ev).rows = e.rows by
      rw [hrows]
      exact rows_fetchDiff ev'
    rcases e.sess.onDiff_cases ev with ⟨hn, -⟩ | ⟨-, -, heq⟩ | ⟨-, -, -, heq⟩ | ⟨-, -, -, heq⟩
    · exact absurd hs hn
    · simp [fetchDiff, takeDiff, heq]
    · exact absurd (.inl (by rw [heq])) h
    · -- the event shows a gap, and becomes the whole buffer
      rw [hinv.bufferEvent_gap hs] at heq
      cases snaps with
      | nil => simp [fetchDiff, takeDiff, heq]
      | cons snap snaps =>
        have htake : e.takeDiff ts ev = ({ e with sess := (e.sess.onDiff ev).2 }, true) := by
          simp [takeDiff, heq]
        have hnil := callbacks_eq_nil (by rw [heq]) h
        simp only [fetchDiff, htake, seed, hnil]
        rfl
  · have hp : e.sess.resyncPending = true := by simpa [hinv.synced_iff] using hs
    simp only [fetchDiff, takeDiff_pending hs hp, if_true]
    cases snaps with
    | nil => exact List.prefix_rfl
    | cons snap snaps => exact rows_seed_prefix (callbacks_of_not_takes hs h ev') e

end Emitter

/-! ## What is read of an event -/

/-- A diff without the fields that a replay does not read. -/
def DepthEvent.diffPart (ev : DepthEvent) : DepthEvent :=
  { ev with hasPu := false, lastUpdateId := 0, eventTimeMs := 0 }

namespace BookSession

variable {s s' : BookSession} {ev ev' : DepthEvent}

lemma applyOne_diffPart (ev : DepthEvent) (s : BookSession) :
    s.applyOne ev.diffPart = s.applyOne ev := by
  have happly : s.ob.applyEvent s.venue ev.diffPart = s.ob.applyEvent s.venue ev := by
    cases s.venue <;> rfl
  rw [applyOne, applyOne, happly]

/-- What the row of a callback is made of. -/
def shown (x : DepthEvent × OrderBook) : Timestamp × OrderBook := (x.1.appliedTime, x.2)

lemma shown_diffPart (S : UInt64) (l : List DepthEvent) (s : BookSession) :
    (replayBuffer S (l.map DepthEvent.diffPart) s).callbacks.map shown =
      (replayBuffer S l s).callbacks.map shown := by
  induction l generalizing s with
  | nil => rfl
  | cons ev l ih =>
    rw [List.map_cons, replayBuffer, replayBuffer, applyOne_diffPart]
    show List.map shown (Replayed.callbacks (if ev.u ≤ S then _ else _)) = _
    split_ifs
    · exact ih s
    · rcases s.applyOne ev with ⟨_ | _ | _ | _, s'⟩
      · exact ih s'
      · exact congrArg (_ :: ·) (ih s')
      · rfl
      · exact ih s'

/-- Two sessions that differ in what is not read of the diffs in their buffers. -/
structure ReadsAs (s s' : BookSession) : Prop where
  eq : s = { s' with buffer := s.buffer }
  buffer : s.buffer.map DepthEvent.diffPart = s'.buffer.map DepthEvent.diffPart

lemma ReadsAs.bufferEvent (h : ev.diffPart = ev'.diffPart) (s : BookSession) :
    (s.bufferEvent ev).ReadsAs (s.bufferEvent ev') :=
  ⟨rfl, by simp only [BookSession.bufferEvent, List.map_append, List.map_singleton, h]⟩

lemma onDiff_readsAs (h : ev.diffPart = ev'.diffPart) (s : BookSession) :
    (s.onDiff ev).1 = (s.onDiff ev').1 ∧ (s.onDiff ev).2.ReadsAs (s.onDiff ev').2 := by
  have happly : s.applyOne ev = s.applyOne ev' := by
    rw [← applyOne_diffPart, h, applyOne_diffPart]
  simp only [onDiff, happly]
  split_ifs
  · exact ⟨rfl, .bufferEvent h s⟩
  · exact ⟨rfl, .bufferEvent h _⟩
  · exact ⟨rfl, rfl, rfl⟩

lemma ReadsAs.shown_onSnapshot (h : s.ReadsAs s') (snap : DepthEvent) :
    (s.onSnapshot snap.bids snap.asks snap.lastUpdateId).callbacks.map shown =
      (s'.onSnapshot snap.bids snap.asks snap.lastUpdateId).callbacks.map shown := by
  rw [onSnapshot, onSnapshot, ← shown_diffPart, ← shown_diffPart _ s'.buffer, h.buffer, h.eq]
  exact congrArg _ (callbacks_buffer _ s.buffer _ { s' with
    ob := s'.ob.setSnapshot .stored snap.bids snap.asks snap.lastUpdateId
    resyncPending := false })

end BookSession

namespace Emitter

variable {ts : Timestamp} {ev ev' : DepthEvent} {snaps : List DepthEvent} {s s' : BookSession}

lemma rows_seed_congr (h : s.ReadsAs s') (snap : DepthEvent) (e : Emitter) :
    ({ e with sess := s }.seed snap).rows = ({ e with sess := s' }.seed snap).rows := by
  have hfold : ∀ (cbs : List (DepthEvent × OrderBook)) (e : Emitter),
      cbs.foldl (fun e x => e.emitBook x.1.appliedTime 'D' x.2) e =
        (cbs.map shown).foldl (fun e x => e.emitBook x.1 'D' x.2) e := fun cbs e => by
    rw [List.foldl_map]
    rfl
  simp only [seed]
  rw [rows_emit_sess _ (s'.onSnapshot snap.bids snap.asks snap.lastUpdateId).session, hfold,
    h.shown_onSnapshot, ← hfold]

lemma takeDiff_readsAs (h : ev.diffPart = ev'.diffPart) (e : Emitter) :
    (e.takeDiff ts ev).2 = (e.takeDiff ts ev').2 ∧
      ∃ s, s.ReadsAs (e.takeDiff ts ev').1.sess ∧
        (e.takeDiff ts ev).1 = { (e.takeDiff ts ev').1 with sess := s } := by
  obtain ⟨ho, heq, hbuffer⟩ := onDiff_readsAs h e.sess
  generalize hs : (e.sess.onDiff ev).2 = s at heq hbuffer
  generalize hs' : (e.sess.onDiff ev').2 = s' at heq hbuffer
  have hpending : s.resyncPending = s'.resyncPending := by rw [heq]
  have hinit : s.initialized = s'.initialized := by
    rw [heq]
    rfl
  have hob : s.ob = s'.ob := by rw [heq]
  simp only [takeDiff, emitIfReady, emitBook, ho, hs, hs', hpending, hinit, hob]
  split_ifs <;> exact ⟨rfl, s, ⟨heq, hbuffer⟩, rfl⟩

/-- A diff writes the rows of any other of which the same is read. -/
lemma rows_fetchDiff_congr (h : ev.diffPart = ev'.diffPart) (e : Emitter) :
    (e.fetchDiff ts snaps ev).rows = (e.fetchDiff ts snaps ev').rows := by
  obtain ⟨hwants, s, hs, heq⟩ := @takeDiff_readsAs ts _ _ h e
  rw [fetchDiff.eq_def, fetchDiff.eq_def, hwants, heq]
  split_ifs
  · cases snaps with
    | nil => rfl
    | cons snap snaps => exact rows_seed_congr hs snap _
  · rfl

lemma emitDepth5_congr (hbids : ev.bids.take 5 = ev'.bids.take 5)
    (hasks : ev.asks.take 5 = ev'.asks.take 5) (e : Emitter) :
    e.emitDepth5 ts ev = e.emitDepth5 ts ev' := by
  have hget : ∀ {l l' : List Level}, l.take 5 = l'.take 5 →
      ∀ i : Fin 5, l[(i : ℕ)]? = l'[(i : ℕ)]? := fun {l l'} h i => by
    rw [← List.getElem?_take_of_lt i.isLt, h, List.getElem?_take_of_lt i.isLt]
  simp only [emitDepth5, hget hbids, hget hasks]

end Emitter

namespace SymReplay

variable {parse cfg} {b : Bool} {r : SymReplay} {row : Row} {snaps : List DepthEvent}

lemma onRow_diff (h : row.diffEvent parse = some ev) (snaps : List DepthEvent) (r : SymReplay) :
    (r.onRow parse cfg b row snaps).1.toEmitter =
      (r.enterEpoch row.connEpoch).fetchDiff row.ts snaps ev := by
  rw [Row.diffEvent] at h
  split_ifs at h with hkind
  obtain ⟨ev', hparse, rfl⟩ := Option.map_eq_some_iff.mp h
  simp only [onRow, if_pos hkind, hparse, Emitter.fetchDiff]
  split_ifs
  · cases snaps <;> rfl
  · rfl

lemma onRow_depth5 (h : row.depth5Event parse = some ev) (snaps : List DepthEvent)
    (r : SymReplay) :
    (r.onRow parse cfg b row snaps).1.toEmitter =
      (if b then (r.enterEpoch row.connEpoch).toEmitter
        else (r.enterEpoch row.connEpoch).seed ev).emitDepth5 row.ts ev := by
  rw [Row.depth5Event] at h
  split_ifs at h with hkind
  obtain ⟨ev', hparse, rfl⟩ := Option.map_eq_some_iff.mp h
  have hd : row.kind ≠ lit "depth_diff" := by
    rw [hkind]
    decide
  simp only [onRow, if_neg hd, if_pos hkind, hparse]

lemma onRow_quiet (h : row.Quiet parse) (snaps : List DepthEvent) (r : SymReplay) :
    (r.onRow parse cfg b row snaps).1.toEmitter =
      if row.kind = lit "trade" ∧ cfg.integrateTrades = true then
        (r.enterEpoch row.connEpoch).emitIfReady row.ts 'T'
      else (r.enterEpoch row.connEpoch).toEmitter := by
  obtain ⟨hdiff, h5⟩ := h
  rw [Row.diffEvent] at hdiff
  rw [Row.depth5Event] at h5
  simp only [onRow]
  by_cases hkind : row.kind = lit "depth_diff"
  · rw [if_pos hkind] at hdiff ⊢
    rw [Option.map_eq_none_iff.mp hdiff, if_neg]
    rintro ⟨ht, -⟩
    exact absurd (hkind.symm.trans ht) (by decide)
  rw [if_neg hkind]
  by_cases hkind5 : row.kind = lit "depth5"
  · rw [if_pos hkind5] at h5 ⊢
    rw [Option.map_eq_none_iff.mp h5, if_neg]
    rintro ⟨ht, -⟩
    exact absurd (hkind5.symm.trans ht) (by decide)
  rw [if_neg hkind5]
  by_cases htrade : row.kind = lit "trade"
  · simp only [htrade, true_and, if_true]
    split_ifs <;> rfl
  · simp only [htrade, false_and, if_false]

lemma rows_onRow (row : Row) (snaps : List DepthEvent) (r : SymReplay) :
    r.rows <+: (r.onRow parse cfg b row snaps).1.rows := by
  rw [← rows_enterEpoch row.connEpoch r]
  rcases row.cases_of_parse parse with hq | ⟨ev, hev⟩ | ⟨ev, hev⟩
  · rw [onRow_quiet hq]
    split_ifs
    · exact Emitter.rows_emitIfReady _ _ _
    · exact List.prefix_rfl
  · rw [onRow_diff hev]
    exact Emitter.rows_fetchDiff ev
  · rw [onRow_depth5 hev]
    refine List.IsPrefix.trans ?_ (List.prefix_append _ _)
    split_ifs
    · exact List.prefix_rfl
    · exact Emitter.rows_seed ev _

lemma rows_run (rows : List Row) (s : SymReplay × List DepthEvent) :
    s.1.rows <+: (run (step parse cfg b) s rows).1.1.rows :=
  run_invariant (P := fun t : SymReplay × List DepthEvent => s.1.rows <+: t.1.rows)
    List.prefix_rfl (fun t row h => h.trans (rows_onRow row t.2 t.1)) rows

/-- A row that is rejected adds no row that the whole one in its place would not add. -/
lemma rows_onRow_cut {p : Row} (hp : p = { row with payload := p.payload }) (hinv : r.sess.Inv)
    (h : r.Rejects parse snaps p row.payload) (htrade : p.kind ≠ lit "trade") :
    (r.onRow parse cfg b p snaps).1.rows <+: (r.onRow parse cfg b row snaps).1.rows := by
  rcases p.cases_of_parse parse with hq | ⟨ev, hev⟩ | ⟨ev, hev⟩
  · rw [onRow_quiet hq, if_neg (fun ht => htrade ht.1), rows_enterEpoch]
    exact rows_onRow row snaps r
  · obtain ⟨hparse, htakes⟩ := h.2 ev hev
    obtain ⟨full, hfull⟩ := Option.ne_none_iff_exists'.mp hparse
    have hkind : row.kind = lit "depth_diff" := by
      by_contra hk
      rw [Row.diffEvent, if_neg (by rwa [hp])] at hev
      exact absurd hev (by simp)
    have hev' : row.diffEvent parse = some { full with appliedTime := row.ts } := by
      rw [Row.diffEvent, if_pos hkind, hfull]
      rfl
    have hts : p.ts = row.ts := by rw [hp]
    have hepoch : p.connEpoch = row.connEpoch := by rw [hp]
    have hkept : Kept r.sess.venue r.sess := ⟨hinv, rfl⟩
    rw [onRow_diff hev, onRow_diff hev', hts]
    rw [hepoch] at htakes ⊢
    exact Emitter.rows_fetchDiff_of_not_takes (hkept.enterEpoch _).inv htakes _
  · rw [h.1] at hev
    exact absurd hev (by simp)

/-- The session of a replay is one that is called and nothing else. -/
lemma inv_step {s : SymReplay × List DepthEvent} (h : s.1.sess.Inv) (row : Row) :
    (step parse cfg b s row).1.1.sess.Inv := by
  rw [step_actions]
  refine run_invariant (P := fun e : Emitter => e.sess.Inv) h (fun e a he => ?_) _
  show (e.act a).sess.Inv
  rw [Emitter.sess_act]
  cases a.call with
  | none => exact he
  | some c => exact he.step c

/-- Of the payload only what is read of its event matters, and that of a trade not at all. -/
lemma rows_onRow_payload {p : Row} (hp : p = { row with payload := p.payload })
    (h : row.readPayload parse b p.payload = row.readPayload parse b row.payload ∨
      row.kind = lit "trade") (snaps : List DepthEvent) (r : SymReplay) :
    (r.onRow parse cfg b p snaps).1.rows = (r.onRow parse cfg b row snaps).1.rows := by
  have hkind : p.kind = row.kind := by rw [hp]
  have hts : p.ts = row.ts := by rw [hp]
  have hepoch : p.connEpoch = row.connEpoch := by rw [hp]
  by_cases hd : row.kind = lit "depth_diff"
  · rcases Row.readPayload_cases (h.resolve_right (by rw [hd]; decide)) with
      ⟨hq, hq'⟩ | ⟨ev, ev', hq, hq', hpart⟩
    · simp only [onRow, hkind, hts, hepoch, hq, hq']
    rw [onRow_diff (Row.diffEvent_eq (hkind.trans hd) hq), onRow_diff (Row.diffEvent_eq hd hq'),
      hts, hepoch]
    refine Emitter.rows_fetchDiff_congr ?_ _
    simp only [Row.readPart, if_pos hd, DepthEvent.mk.injEq] at hpart
    obtain ⟨hU, hu, hpu, -, -, -, -, hbids, hasks⟩ := hpart
    simp only [DepthEvent.diffPart, hU, hu, hpu, hbids, hasks]
  by_cases h5 : row.kind = lit "depth5"
  · rcases Row.readPayload_cases (h.resolve_right (by rw [h5]; decide)) with
      ⟨hq, hq'⟩ | ⟨ev, ev', hq, hq', hpart⟩
    · simp only [onRow, hkind, hts, hepoch, hq, hq']
    rw [onRow_depth5 (Row.depth5Event_eq (hkind.trans h5) hq),
      onRow_depth5 (Row.depth5Event_eq h5 hq'), hts, hepoch]
    simp only [Row.readPart, if_neg hd] at hpart
    cases b with
    | true =>
      obtain ⟨hbids, hasks⟩ : ev.bids.take 5 = ev'.bids.take 5 ∧
          ev.asks.take 5 = ev'.asks.take 5 := by simpa using hpart
      exact congrArg Emitter.rows (Emitter.emitDepth5_congr hbids hasks _)
    | false =>
      obtain ⟨hid, hbids, hasks⟩ : ev.lastUpdateId = ev'.lastUpdateId ∧ ev.bids = ev'.bids ∧
          ev.asks = ev'.asks := by simpa using hpart
      simp only [Emitter.seed, Emitter.emitDepth5, hid, hbids, hasks]
  · simp only [onRow, hkind, hepoch, hts, if_neg hd, if_neg h5]

end SymReplay

/-! ## The replay of a file that was cut -/

section Cut

variable {parse cfg} {b : Bool} {y : Bytes} {t : Replay}

/-- A row that is left of another one adds a part of what the whole file adds. -/
lemma rows_step_cut {p row : Row} {s : SymReplay × List DepthEvent}
    (hp : p = { row with payload := p.payload }) (hinv : s.1.sess.Inv)
    (h : row.readPayload parse b p.payload = row.readPayload parse b row.payload ∨
      s.1.Rejects parse s.2 p row.payload)
    (rest : List Row) :
    (SymReplay.step parse cfg b s p).1.1.rows <+:
      (run (SymReplay.step parse cfg b) s (row :: rest)).1.1.rows := by
  rw [run_cons]
  refine List.IsPrefix.trans ?_ (SymReplay.rows_run rest (SymReplay.step parse cfg b s row).1)
  by_cases hsame : row.readPayload parse b p.payload = row.readPayload parse b row.payload ∨
      row.kind = lit "trade"
  · -- the row does what the whole one does
    simp only [SymReplay.step, SymReplay.rows_onRow_payload hp hsame]
    exact List.prefix_rfl
  · obtain ⟨hparse, htrade⟩ := not_or.mp hsame
    have hkind : p.kind ≠ lit "trade" := by
      rw [hp]
      exact htrade
    exact SymReplay.rows_onRow_cut hp hinv (h.resolve_left hparse) hkind

/-- What is kept for a symbol, after any lines, holds a session as it stands between two calls. -/
lemma inv_book (sidecar : Option Bytes) (ls : List Bytes) :
    ((run (Replay.onLine parse cfg b) (.new parse sidecar) ls).1.book cfg y).sess.Inv := by
  have h := (@part_book parse cfg y b).run_eq (.new parse sidecar) ls
  have hbook := congrArg Prod.fst h
  dsimp only at hbook
  rw [hbook]
  exact run_invariant (P := fun s : SymReplay × List DepthEvent => s.1.sess.Inv) (inv_new _ _)
    (fun _ row hs => SymReplay.inv_step hs row) _

/-- What a replay keeps for a symbol after some lines. -/
lemma book_run_append (ls more : List Bytes) :
    (((run (Replay.onLine parse cfg b) t (ls ++ more)).1.book cfg y).rows =
      (run (SymReplay.step parse cfg b)
        ((run (Replay.onLine parse cfg b) t ls).1.book cfg y,
          (run (Replay.onLine parse cfg b) t ls).1.snaps y)
        (more.filterMap fun line => (readRow line).filter (·.symbol = y))).1.1.rows) := by
  have h := (@part_book parse cfg y b).run_eq (run (Replay.onLine parse cfg b) t ls).1 more
  rw [run_append, ← congrArg Prod.fst h]

end Cut

/-- **A capture that was cut short replays to a prefix**, wherever it was cut, unless the parser
accepts the payload that is left of the last row as an event in which something else is read, and
this event gets through. -/
theorem cut_prefix (md : Bytes) (n : ℕ) (sidecar : Option Bytes)
    (h : CutHarmless parse cfg md n sidecar) (y : Bytes) :
    (runReplay parse cfg (md.take n) sidecar).1.rows y <+:
      (runReplay parse cfg md sidecar).1.rows y := by
  rw [Replay.rows_eq cfg, Replay.rows_eq cfg, runReplay, runReplay]
  have hmd := lines_append_cases (md.take n) (md.drop n)
  rw [List.take_append_drop] at hmd
  rcases hmd with ⟨more, hlines⟩ | ⟨before, last, end', after, hcut, hlines⟩
  · -- the cut is between two lines
    rw [hlines, List.drop_append, book_run_append]
    exact SymReplay.rows_run _ (_, _)
  cases before with
  | nil =>
    -- the header was cut
    rw [hcut, List.nil_append, List.drop_succ_cons, List.drop_zero,
      ← List.nil_append ((lines md).drop 1), book_run_append]
    exact SymReplay.rows_run _ (_, _)
  | cons header before =>
    have hk : (lines (md.take n)).length - 1 = before.length + 1 := by
      simp [hcut]
    have hbefore : replayBefore parse cfg md n sidecar =
        (run (Replay.onLine parse cfg sidecar.isSome) (.new parse sidecar) before).1 := by
      rw [replayBefore, hk, hlines]
      simp
    rw [hcut, hlines, List.cons_append, List.cons_append, List.drop_succ_cons, List.drop_zero,
      List.drop_succ_cons, List.drop_zero, book_run_append, book_run_append, ← hbefore]
    cases hrow : readRow last with
    | none =>
      rw [List.filterMap_cons_none (by simp [hrow])]
      exact SymReplay.rows_run _ (_, _)
    | some p =>
      obtain ⟨row, hfull, -, hp⟩ := @readRow_append last end' p hrow
      have hsymbol : row.symbol = p.symbol := by rw [hp]
      by_cases hy : p.symbol = y
      · have hx : (p, row) ∈ cutRows md n := by
          simp [cutRows, hcut, hlines, hrow, hfull]
        subst hy
        rw [List.filterMap_cons_some (b := p) (by simp [hrow]),
          List.filterMap_cons_some (b := row) (by simp [hfull, hsymbol])]
        have hinv := @inv_book parse cfg sidecar.isSome p.symbol sidecar before
        rw [← hbefore] at hinv
        exact @rows_step_cut parse cfg _ p row ((replayBefore parse cfg md n sidecar).book cfg _,
          (replayBefore parse cfg md n sidecar).snaps _) hp hinv (h _ hx) _
      · rw [List.filterMap_cons_none (by simp [hrow, hy])]
        exact SymReplay.rows_run _ (_, _)

/-- A checkpoint that seeds the book, and a diff of both sides. -/
def twoSidedFile : Bytes :=
  captured .spot
    [(.depth5, "\x7b\"lastUpdateId\":10,\"bids\":[[\"1\",\"1\"]],\"asks\":[[\"2\",\"1\"]]\x7d"),
      (.depthDiff, "\x7b\"U\":11,\"u\":11,\"b\":[[\"1\",\"5\"]],\"a\":[[\"2\",\"5\"]]\x7d")]

/-- With a cut inside the quantity of the ask the parser rejects the diff. -/
theorem cut_prefix_quantity :
    let n := twoSidedFile.length - 7
    (cutRows twoSidedFile n).isSome ∧ ∀ y,
      (runReplay parseDepth oneSymbol (twoSidedFile.take n) none).1.rows y <+:
        (runReplay parseDepth oneSymbol twoSidedFile none).1.rows y := by
  intro n
  have hnone : ∀ x ∈ cutRows twoSidedFile n, parseDepth x.1.payload = none := by decide +kernel
  have hharmless : CutHarmless parseDepth oneSymbol twoSidedFile n none := fun x hx =>
    .inr (SymReplay.rejects_of_eq_none (hnone x hx) _ _ _)
  exact ⟨by decide +kernel, cut_prefix parseDepth oneSymbol twoSidedFile n none hharmless⟩

/-- With a cut before the asks it accepts the rest as a diff of the bids alone. -/
theorem cut_before_asks :
    let n := twoSidedFile.length - 25
    (∀ row ∈ fileRows (lit "A") twoSidedFile, (parseDepth row.payload).isSome) ∧
      ¬ (runReplay parseDepth oneSymbol (twoSidedFile.take n) none).1.rows (lit "A") <+:
        (runReplay parseDepth oneSymbol twoSidedFile none).1.rows (lit "A") := by
  intro n
  refine ⟨by decide +kernel, fun h => ?_⟩
  -- the last row still shows the old size of the best ask
  have hsize := h.map fun r => r.askSize[0]
  rw [Replay.rows_eq oneSymbol, Replay.rows_eq oneSymbol, SymReplay.book_runReplay_none,
    SymReplay.book_runReplay_none] at hsize
  revert hsize
  decide +kernel

end LobCapture
