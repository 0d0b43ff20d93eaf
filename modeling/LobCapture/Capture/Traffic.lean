/-
# Other traffic leaves the diff book alone

depth5 messages and trades touch the epoch of a symbol and may invalidate its session, but never
in a way that makes a difference to the next diff: the diff would have done the same, and doing
it twice or earlier changes nothing.  So the diffs of a symbol, with the answers to its requests,
determine its diff rows.
-/
import LobCapture.Capture.Epochs

namespace LobCapture

open Lib BookSession

/-! ## Emitters with the same diff rows -/

namespace Emitter

/-- The diff rows of the file. -/
def diffRows (e : Emitter) : List ObRow := e.body.filter (·.type = 'D')

/-- Two emitters with the same session and the same diff rows. -/
structure SameDiffs (e e' : Emitter) : Prop where
  sess : e.sess = e'.sess
  rows : e.diffRows = e'.diffRows

variable {e e' : Emitter}

lemma diffRows_act (e : Emitter) (a : Action) :
    (e.act a).diffRows = e.diffRows ++ (e.written a).filter (·.type = 'D') := by
  rw [diffRows, body_act, List.filter_append]
  rfl

/-- What an action writes depends on the session only. -/
lemma written_congr (h : e.sess = e'.sess) (a : Action) : e.written a = e'.written a := by
  cases a <;> simp only [written, h]

lemma SameDiffs.act (h : SameDiffs e e') (a : Action) : SameDiffs (e.act a) (e'.act a) := by
  constructor
  · rw [sess_act, sess_act, h.sess]
  · rw [diffRows_act, diffRows_act, h.rows, written_congr h.sess]

end Emitter

/-! ## Entering an epoch early -/

namespace SymState

variable {st st' : SymState} {n m : UInt64}

/-- The state has nothing that an epoch from `n` on would have to invalidate but does not. -/
def Before (n : UInt64) (st : SymState) : Prop :=
  st.lastEpoch ≤ n ∨ st.lastEpoch = noEpoch ∧ st.sess.requestResync = st.sess

/-- Entering an epoch on the way to another one makes no difference. -/
lemma sess_enterEpoch_of_sess (hst : st.Before n) (hnm : n ≤ m) (hlast : st'.lastEpoch = n)
    (hsess : st'.sess = (st.enterEpoch n).sess) :
    (st'.enterEpoch m).sess = (st.enterEpoch m).sess := by
  rw [sess_enterEpoch, hsess, sess_enterEpoch, hlast, sess_enterEpoch]
  rcases hst with hle | ⟨hno, hfresh⟩
  · by_cases hn : st.lastEpoch = n
    · simp [hn]
    · -- the epochs only grow, so the state leaves its own for good
      have hlt : st.lastEpoch < n := lt_of_le_of_ne hle hn
      have hno : st.lastEpoch ≠ noEpoch := (hlt.trans_le (le_noEpoch n)).ne
      have hn' : st.lastEpoch ≠ n ∧ st.lastEpoch ≠ noEpoch := ⟨hn, hno⟩
      have hm' : st.lastEpoch ≠ m ∧ st.lastEpoch ≠ noEpoch := ⟨(hlt.trans_le hnm).ne, hno⟩
      rw [if_pos hn', if_pos hm', requestResync_requestResync, ite_self]
  · simp [hno, hfresh]

end SymState

/-! ## Diffs and other messages -/

section Diffs

variable {parse : Bytes → Option DepthEvent} {cfg : Config} {y : Bytes}
  {st st' : SymState} {x x' : Frame × Message} {xs : List (Frame × Message)}

/-- A message other than a diff enters its epoch, and does nothing else to the session or to the
diff rows. -/
lemma step_other (hk : x.2.kind ≠ .depthDiff) :
    (st.step parse cfg x).1.lastEpoch = x.1.connEpoch ∧
      (st.step parse cfg x).1.sess = (st.enterEpoch x.1.connEpoch).sess ∧
      (st.step parse cfg x).1.diffRows = st.diffRows ∧ (st.step parse cfg x).2 = .none := by
  refine ⟨SymState.lastEpoch_onMessage x.1 x.2, ?_⟩
  have henter : (st.enterEpoch x.1.connEpoch).toEmitter.diffRows = st.diffRows := by
    simp only [Emitter.diffRows, Emitter.body, SymState.rows_enterEpoch]
  simp only [SymState.step, SymState.onMessage]
  cases hkind : x.2.kind with
  | depthDiff => exact absurd hkind hk
  | depth5 =>
    cases x.2.event with
    | none => exact ⟨rfl, henter, rfl⟩
    | some ev =>
      refine ⟨rfl, ?_, rfl⟩
      have hact := Emitter.diffRows_act (st.enterEpoch x.1.connEpoch).toEmitter
        (.depth5 x.2.ts ev)
      exact (hact.trans (List.append_nil _)).trans henter
  | trade =>
    dsimp only
    split_ifs
    · have hact := Emitter.diffRows_act (st.enterEpoch x.1.connEpoch).toEmitter (.trade x.2.ts)
      have hnone : ((st.enterEpoch x.1.connEpoch).toEmitter.written (.trade x.2.ts)).filter
          (·.type = 'D') = [] := by
        simp only [Emitter.written]
        split_ifs <;> rfl
      rw [hnone, List.append_nil] at hact
      exact ⟨Emitter.sess_emitIfReady _ _ _, hact.trans henter, rfl⟩
    · exact ⟨rfl, henter, rfl⟩

/-- Two states in which a message of this epoch does the same. -/
structure SameAt (n : UInt64) (st st' : SymState) : Prop where
  sess : (st.enterEpoch n).sess = (st'.enterEpoch n).sess
  rows : st.diffRows = st'.diffRows

lemma SameAt.sameDiffs {n : UInt64} (h : SameAt n st st') :
    (st.enterEpoch n).SameDiffs (st'.enterEpoch n).toEmitter := by
  refine ⟨h.sess, ?_⟩
  simp only [Emitter.diffRows, Emitter.body, SymState.rows_enterEpoch]
  exact h.rows

lemma resync_ne_none (st : SymState) (response : Option Bytes) :
    (st.resync parse response).2 ≠ .none := by
  cases response with
  | none => simp [SymState.resync]
  | some raw =>
    simp only [SymState.resync]
    cases parse raw <;> simp

lemma resync_sameDiffs {response : Option Bytes} (h : st.SameDiffs st'.toEmitter) :
    (st.resync parse response).2 = (st'.resync parse response).2 ∧
      (st.resync parse response).1.SameDiffs (st'.resync parse response).1.toEmitter := by
  cases response with
  | none => exact ⟨rfl, h⟩
  | some raw =>
    simp only [SymState.resync]
    cases parse raw with
    | none => exact ⟨rfl, h⟩
    | some snap => exact ⟨rfl, h.act (.snapshot snap)⟩

/-- A diff message does the same in both states, when a request gets the same answer. -/
lemma step_diff (hk : x.2.kind = .depthDiff) (hm : x'.2 = x.2)
    (hepoch : x'.1.connEpoch = x.1.connEpoch) (h : SameAt x.1.connEpoch st st') :
    ((st.step parse cfg x).2 = .none ↔ (st'.step parse cfg x').2 = .none) ∧
      (((st.step parse cfg x).2 ≠ .none → x'.1.response = x.1.response) →
        (st.step parse cfg x).2 = (st'.step parse cfg x').2 ∧
          (st.step parse cfg x).1.SameDiffs (st'.step parse cfg x').1.toEmitter) := by
  simp only [SymState.step, SymState.onMessage, hm, hk, hepoch]
  cases x.2.event with
  | none => exact ⟨Iff.rfl, fun _ => ⟨rfl, h.sameDiffs⟩⟩
  | some ev =>
    -- whether a request is made depends on the session only
    have hdiff := h.sameDiffs.act (.diff x.2.ts ev)
    have hwants : ((st.enterEpoch x.1.connEpoch).takeDiff x.2.ts ev).2 =
        ((st'.enterEpoch x.1.connEpoch).takeDiff x.2.ts ev).2 := Emitter.snd_takeDiff_congr h.sess
    dsimp only
    rw [← hwants]
    split_ifs
    · refine ⟨iff_of_false (resync_ne_none _ _) (resync_ne_none _ _), fun hresponse => ?_⟩
      rw [hresponse (resync_ne_none _ _)]
      exact @resync_sameDiffs parse
        { st.enterEpoch x.1.connEpoch with
          toEmitter := ((st.enterEpoch x.1.connEpoch).takeDiff x.2.ts ev).1 }
        { st'.enterEpoch x.1.connEpoch with
          toEmitter := ((st'.enterEpoch x.1.connEpoch).takeDiff x.2.ts ev).1 }
        x.1.response hdiff
    · exact ⟨Iff.rfl, fun _ => ⟨rfl, hdiff⟩⟩

/-! ## A run without the other messages -/

/-- A state of a symbol beside that in a run over its diffs only. -/
structure Keeps (xs : List (Frame × Message)) (st st' : SymState) : Prop where
  same : ∀ x ∈ xs, SameAt x.1.connEpoch st st'
  rows : st.diffRows = st'.diffRows
  before : ∀ x ∈ xs, st.Before x.1.connEpoch
  later : xs.Pairwise fun a b => messageEpoch a ≤ messageEpoch b

/-- After the same diff two states are the same from its epoch on. -/
lemma sameAt_of_lastEpoch {n m : UInt64} (h : st.SameDiffs st'.toEmitter)
    (hst : st.lastEpoch = n) (hst' : st'.lastEpoch = n) : SameAt m st st' := by
  refine ⟨?_, h.rows⟩
  rw [SymState.sess_enterEpoch, SymState.sess_enterEpoch, hst, hst', h.sess]

lemma silences_other :
    Silences (SymState.step parse cfg) (fun x => x.2.kind = .depthDiff) Keeps where
  silent x xs st st' hk h := by
    obtain ⟨hlast, hsess, hrows, -⟩ := @step_other parse cfg st x hk
    obtain ⟨hfirst, hlater⟩ := List.pairwise_cons.mp h.later
    have hbefore := h.before x List.mem_cons_self
    refine ⟨fun z hz => ⟨?_, hrows.trans h.rows⟩, hrows.trans h.rows, fun z hz => ?_, hlater⟩
    · exact (SymState.sess_enterEpoch_of_sess hbefore (hfirst z hz) hlast hsess).trans
        (h.same z (List.mem_cons_of_mem _ hz)).sess
    · rw [SymState.Before, hlast]
      exact .inl (hfirst z hz)
  loud x xs st st' hk h := by
    obtain ⟨hfirst, hlater⟩ := List.pairwise_cons.mp h.later
    obtain ⟨hreply, hsame⟩ := (@step_diff parse cfg _ _ _ _ hk rfl rfl
      (h.same x List.mem_cons_self)).2 fun _ => rfl
    have hlast : ∀ st : SymState, (st.step parse cfg x).1.lastEpoch = x.1.connEpoch :=
      fun st => SymState.lastEpoch_onMessage x.1 x.2
    refine ⟨hreply, fun z _ => sameAt_of_lastEpoch hsame (hlast st) (hlast st'), hsame.rows,
      fun z hz => ?_, hlater⟩
    rw [SymState.Before, hlast]
    exact .inl (hfirst z hz)

/-! ## Two runs over the same diffs -/

/-- The answers to the requests of a run. -/
def answers (h : List ((Frame × Message) × Fetch)) : List (Option Bytes) :=
  h.filterMap fun z => if z.2 = .none then none else some z.1.1.response

/-- Two messages that are the same to the handler, apart from the answer to a request. -/
def SameDiff (x x' : Frame × Message) : Prop :=
  x'.2 = x.2 ∧ x'.1.connEpoch = x.1.connEpoch

/-- Runs over the same diffs with the same answers do the same. -/
lemma run_sameDiffs {xs' : List (Frame × Message)} (hxs : List.Forall₂ SameDiff xs xs')
    (hk : ∀ x ∈ xs, x.2.kind = .depthDiff) {outcomes : ℕ → Option Bytes}
    (hst : st.SameDiffs st'.toEmitter) (hlast : st.lastEpoch = st'.lastEpoch)
    (h : ∀ k r, (answers (symbolRun parse cfg st xs).2)[k]? = some r → r = outcomes k)
    (h' : ∀ k r, (answers (symbolRun parse cfg st' xs').2)[k]? = some r → r = outcomes k) :
    (symbolRun parse cfg st xs).1.diffRows = (symbolRun parse cfg st' xs').1.diffRows ∧
      (symbolRun parse cfg st xs).2.map Prod.snd =
        (symbolRun parse cfg st' xs').2.map Prod.snd := by
  induction hxs generalizing st st' outcomes with
  | nil => exact ⟨hst.rows, rfl⟩
  | @cons x x' xs xs' hx hxs ih =>
    have hkx := hk x List.mem_cons_self
    have hkxs : ∀ z ∈ xs, z.2.kind = .depthDiff := fun z hz => hk z (List.mem_cons_of_mem _ hz)
    obtain ⟨hnone, hstep⟩ := @step_diff parse cfg _ _ _ _ hkx hx.1 hx.2
      (sameAt_of_lastEpoch (m := x.1.connEpoch) hst rfl hlast.symm)
    have hlasts : (st.step parse cfg x).1.lastEpoch = (st'.step parse cfg x').1.lastEpoch :=
      (SymState.lastEpoch_onMessage x.1 x.2).trans
        (hx.2.symm.trans (SymState.lastEpoch_onMessage x'.1 x'.2).symm)
    simp only [symbolRun, run_cons] at h h' ⊢
    by_cases hf : (st.step parse cfg x).2 = .none
    · -- no request on either side
      obtain ⟨hreply, hsame⟩ := hstep fun hn => absurd hf hn
      rw [answers, List.filterMap_cons_none (by simp [hf])] at h
      rw [answers, List.filterMap_cons_none (by simp [hnone.mp hf])] at h'
      obtain ⟨hrows, hreplies⟩ := ih hkxs hsame hlasts h h'
      exact ⟨hrows, congrArg₂ List.cons hreply hreplies⟩
    · -- the two requests are both the next one
      have hf' : (st'.step parse cfg x').2 ≠ .none := fun hn => hf (hnone.mpr hn)
      rw [answers, List.filterMap_cons_some (by rw [if_neg hf])] at h
      rw [answers, List.filterMap_cons_some (by rw [if_neg hf'])] at h'
      obtain ⟨hreply, hsame⟩ := hstep fun _ => (h' 0 _ rfl).trans (h 0 _ rfl).symm
      obtain ⟨hrows, hreplies⟩ := ih hkxs hsame hlasts
        (fun k r hr => h (k + 1) r hr) (fun k r hr => h' (k + 1) r hr)
      exact ⟨hrows, congrArg₂ List.cons hreply hreplies⟩

end Diffs

/-! ## Two live runs -/

variable (parse : Bytes → Option DepthEvent) (cfg : Config) (y : Bytes)

/-- What two runs have in common of a frame with a diff of the symbol that the parser accepts:
the text, the epoch and the clock. -/
def diffOf (fr : Frame) : Option (Bytes × UInt64 × Timestamp) :=
  (fr.message parse cfg).bind fun m =>
    if m.symbol = y ∧ m.kind = .depthDiff ∧ m.event.isSome then
      some (fr.text, fr.connEpoch, fr.recvTs)
    else none

/-- The request for a snapshot that was made on a frame, if it was one of the symbol. -/
def requestOf (r : Option (Bytes × Fetch)) : Fetch :=
  match r with
  | some (symbol, fetch) => if symbol = y then fetch else .none
  | none => .none

/-- For each diff of the symbol, whether a snapshot was requested. -/
def requests (h : List (Frame × Option (Bytes × Fetch))) : List Bool :=
  h.filterMap fun x => (diffOf parse cfg y x.1).map fun _ => requestOf y x.2 ≠ .none

/-- The answers to the requests of the symbol. -/
def liveAnswers (h : List (Frame × Option (Bytes × Fetch))) : List (Option Bytes) :=
  h.filterMap fun x => if requestOf y x.2 = .none then none else some x.1.response

variable {parse cfg y} {frames frames' : List Frame}

/-- Only the payloads of subscribed symbols are parsed. -/
lemma mem_symbols_of_event {fr : Frame} {m : Message} (h : fr.message parse cfg = some m)
    (hev : m.event.isSome) : m.symbol ∈ cfg.symbols := by
  obtain ⟨⟨stream, data⟩, -, rfl⟩ := Option.map_eq_some_iff.mp h
  dsimp only at hev ⊢
  by_cases hdepth : (classifyStream stream = .depthDiff ∨ classifyStream stream = .depth5) ∧
      streamSymbol stream ∈ cfg.symbols
  · rw [if_pos hdepth]
    cases parse data <;> exact hdepth.2
  · rw [if_neg hdepth] at hev
    exact absurd hev (by simp)

variable (parse cfg y) in
/-- What the reply to a frame has to do with the symbol. -/
def RepliesTo (fr : Frame) (r : Option (Bytes × Fetch)) : Prop :=
  match pickHandled parse cfg y fr with
  | none => requestOf y r = .none ∧ diffOf parse cfg y fr = none
  | some z =>
    requestOf y r = (r.map Prod.snd).getD .none ∧
      (diffOf parse cfg y fr =
        if z.2.kind = .depthDiff then some (z.1.text, z.1.connEpoch, z.1.recvTs) else none) ∧
      (z.2.kind ≠ .depthDiff → requestOf y r = .none)

lemma repliesTo_handler (s : Shard) (fr : Frame) :
    RepliesTo parse cfg y fr (handler parse cfg s fr).2 := by
  rw [RepliesTo]
  cases hm : fr.message parse cfg with
  | none =>
    simp only [pickHandled, hm, Option.map_none, Option.filter_none, handler, diffOf]
    exact ⟨rfl, rfl⟩
  | some m =>
    by_cases hh : Handled cfg y (fr, m)
    · obtain ⟨rfl, hok, hsub⟩ := id hh
      have hpick : pickHandled parse cfg m.symbol fr = some (fr, m) := by
        simp [pickHandled, hm, hh]
      rw [hpick]
      simp only [handler, hm, requestOf, Shard.fetch_take, if_true]
      refine ⟨rfl, ?_, fun hk => ?_⟩
      · -- a diff that is handled has been parsed
        simp only [diffOf, hm, Option.bind_some, true_and]
        by_cases hk : m.kind = .depthDiff
        · have hev : m.event.isSome := by
            rw [Option.isSome_iff_ne_none]
            exact fun hnone => hok ⟨.inl hk, hnone⟩
          simp [hk, hev]
        · simp [hk]
      · rw [if_pos ⟨hok, hsub⟩]
        exact (step_other (x := (fr, m)) hk).2.2.2
    · have hpick : pickHandled parse cfg y fr = none := by simp [pickHandled, hm, hh]
      rw [hpick]
      simp only [handler, hm, requestOf, Shard.fetch_take, diffOf, Option.bind_some]
      constructor
      · split_ifs with hy hs
        · exact absurd ⟨hy, hs⟩ hh
        · rfl
        · rfl
      · refine if_neg fun hd => hh ⟨hd.1, fun hf => ?_, mem_symbols_of_event hm hd.2.2⟩
        rw [hf.2] at hd
        exact absurd hd.2.2 (by simp)

lemma repliesTo_runShard {x : Frame × Option (Bytes × Fetch)}
    (hx : x ∈ (runShard parse cfg frames).2) : RepliesTo parse cfg y x.1 x.2 :=
  reply_of_mem_run (P := RepliesTo parse cfg y) (fun fr _ s => repliesTo_handler s fr) (.new cfg) x
    hx

lemma requests_runShard :
    requests parse cfg y (runShard parse cfg frames).2 =
      (((symbolRun parse cfg (.new cfg y) (handled parse cfg y frames)).2.filter
        fun z => z.1.2.kind = .depthDiff).map Prod.snd).map fun f => decide (f ≠ .none) := by
  rw [← fetches_runShard, requests, List.filter_filterMap, List.map_map, List.map_filterMap]
  refine List.filterMap_congr fun x hx => ?_
  have hreply := repliesTo_runShard (y := y) hx
  rw [RepliesTo] at hreply
  cases hz : pickHandled parse cfg y x.1 with
  | none =>
    rw [hz] at hreply
    simp [hreply.2]
  | some z =>
    rw [hz] at hreply
    obtain ⟨hreq, hdiff, -⟩ := hreply
    rw [hdiff, hreq]
    by_cases hk : z.2.kind = .depthDiff <;> simp [hk]

lemma liveAnswers_runShard :
    liveAnswers y (runShard parse cfg frames).2 =
      answers ((symbolRun parse cfg (.new cfg y) (handled parse cfg y frames)).2.filter
        fun z => z.1.2.kind = .depthDiff) := by
  rw [← fetches_runShard, liveAnswers, answers, List.filter_filterMap, List.filterMap_filterMap]
  refine List.filterMap_congr fun x hx => ?_
  have hreply := repliesTo_runShard (y := y) hx
  rw [RepliesTo] at hreply
  cases hz : pickHandled parse cfg y x.1 with
  | none =>
    rw [hz] at hreply
    simp [hreply.1]
  | some z =>
    rw [hz] at hreply
    obtain ⟨hreq, -, hother⟩ := hreply
    obtain ⟨hfr, -, -⟩ := pickHandled_eq_some hz
    by_cases hk : z.2.kind = .depthDiff
    · simp [Option.filter, hk, hreq, hfr]
    · simp [Option.filter, hk, hother hk]

/-- A message depends on the text of its frame and on the clock. -/
lemma message_congr {fr fr' : Frame} (htext : fr.text = fr'.text) (hts : fr.recvTs = fr'.recvTs) :
    fr.message parse cfg = fr'.message parse cfg := by
  simp only [Frame.message, htext, hts]

/-- The diffs of a run, as far as they are the same in two runs. -/
lemma filterMap_diffOf :
    frames.filterMap (diffOf parse cfg y) =
      ((handled parse cfg y frames).filter (·.2.kind = .depthDiff)).map fun x =>
        (x.1.text, x.1.connEpoch, x.1.recvTs) := by
  rw [← filterMap_pickHandled, List.filter_filterMap, List.map_filterMap]
  refine List.filterMap_congr fun fr _ => ?_
  have hreply := @repliesTo_handler parse cfg y (.new cfg) fr
  rw [RepliesTo] at hreply
  cases hz : pickHandled parse cfg y fr with
  | none =>
    rw [hz] at hreply
    exact hreply.2
  | some z =>
    rw [hz] at hreply
    rw [hreply.2.1]
    by_cases hk : z.2.kind = .depthDiff <;> simp [Option.filter, hk]

/-- What the frame says is the rest of a handled message. -/
lemma forall₂_sameDiff_of_map {xs xs' : List (Frame × Message)}
    (h : List.Forall₂ (fun x x' => x.1.text = x'.1.text ∧ x.1.connEpoch = x'.1.connEpoch ∧
      x.1.recvTs = x'.1.recvTs) xs xs')
    (hxs : ∀ x ∈ xs, x.1.message parse cfg = some x.2)
    (hxs' : ∀ x ∈ xs', x.1.message parse cfg = some x.2) : List.Forall₂ SameDiff xs xs' := by
  induction h with
  | nil => exact .nil
  | @cons x x' xs xs' hx _ ih =>
    obtain ⟨htext, hepoch, hts⟩ := hx
    have hm : some x.2 = some x'.2 := by
      rw [← hxs x List.mem_cons_self, ← hxs' x' List.mem_cons_self]
      exact message_congr htext hts
    exact .cons ⟨(Option.some.inj hm).symm, hepoch.symm⟩
      (ih (fun z hz => hxs z (List.mem_cons_of_mem _ hz)) fun z hz =>
        hxs' z (List.mem_cons_of_mem _ hz))

lemma forall₂_sameDiff
    (h : frames.filterMap (diffOf parse cfg y) = frames'.filterMap (diffOf parse cfg y)) :
    List.Forall₂ SameDiff ((handled parse cfg y frames).filter (·.2.kind = .depthDiff))
      ((handled parse cfg y frames').filter (·.2.kind = .depthDiff)) := by
  rw [filterMap_diffOf, filterMap_diffOf, ← List.forall₂_eq_eq_eq, List.forall₂_map_left_iff,
    List.forall₂_map_right_iff] at h
  have hmem : ∀ {frames : List Frame},
      ∀ x ∈ (handled parse cfg y frames).filter (·.2.kind = .depthDiff),
        x.1.message parse cfg = some x.2 := fun x hx =>
    (mem_entries (List.mem_filter.mp (List.mem_filter.mp hx).1).1).2
  exact forall₂_sameDiff_of_map (h.imp fun x x' hx => by simpa using hx) hmem hmem

/-- A live run does to the diff rows what a run over the diffs alone does. -/
lemma run_diffs (h : frames.Pairwise fun a b => a.connEpoch ≤ b.connEpoch) :
    let ds := (handled parse cfg y frames).filter (·.2.kind = .depthDiff)
    ((runShard parse cfg frames).1.sym y).diffRows =
        (symbolRun parse cfg (.new cfg y) ds).1.diffRows ∧
      requests parse cfg y (runShard parse cfg frames).2 =
        ((symbolRun parse cfg (.new cfg y) ds).2.map Prod.snd).map (fun f => decide (f ≠ .none)) ∧
      liveAnswers y (runShard parse cfg frames).2 =
        answers (symbolRun parse cfg (.new cfg y) ds).2 := by
  intro ds
  have hkeeps : Keeps (handled parse cfg y frames) (.new cfg y) (.new cfg y) :=
    ⟨fun _ _ => ⟨rfl, rfl⟩, rfl, fun _ _ => .inr ⟨rfl, requestResync_new _ _⟩,
      (pairwise_entries h).filter _⟩
  obtain ⟨hreplies, hend⟩ := (@silences_other parse cfg).run_filter hkeeps
  refine ⟨?_, ?_, ?_⟩
  · rw [sym_runShard]
    exact hend.rows
  · rw [requests_runShard]
    exact congrArg (fun h => (List.map Prod.snd h).map fun f => decide (f ≠ Fetch.none)) hreplies
  · rw [liveAnswers_runShard]
    exact congrArg answers hreplies

/-- A run with a trade between two diffs, the second of which comes with a new connection. -/
def noisyRun : List Frame :=
  [diffFrame 0 "\"U\":2,\"u\":3" (some depthResponse),
    { text := lit "\x7b\"stream\":\"a@trade\",\"data\":\x7b\"T\":1\x7d\x7d", connEpoch := 1,
      connSeq := 0, recvTs := ⟨7, 8⟩, response := none, snapTs := ⟨9, 10⟩ },
    diffFrame 1 "\"U\":4,\"u\":5" (some depthResponse)]

/-- The same diffs without the trade. -/
def quietRun : List Frame :=
  [diffFrame 0 "\"U\":2,\"u\":3" (some depthResponse),
    diffFrame 1 "\"U\":4,\"u\":5" (some depthResponse)]

/-- **depth5 and trade traffic leaves the diff rows alone.** Two live runs with the same diffs of
a symbol, whose requests get the same answers, write the same diff rows, apart from the numbers,
and make their requests at the same diffs. -/
theorem diffRows_of_diffs (h : frames.Pairwise fun a b => a.connEpoch ≤ b.connEpoch)
    (h' : frames'.Pairwise fun a b => a.connEpoch ≤ b.connEpoch)
    (hdiffs : frames.filterMap (diffOf parse cfg y) = frames'.filterMap (diffOf parse cfg y))
    (outcomes : ℕ → Option Bytes)
    (hanswers : ∀ k r, (liveAnswers y (runShard parse cfg frames).2)[k]? = some r →
      r = outcomes k)
    (hanswers' : ∀ k r, (liveAnswers y (runShard parse cfg frames').2)[k]? = some r →
      r = outcomes k) :
    (((runShard parse cfg frames).1.sym y).rows.filter (·.type = 'D')).map ObRow.unnumbered =
        (((runShard parse cfg frames').1.sym y).rows.filter (·.type = 'D')).map
          ObRow.unnumbered ∧
      requests parse cfg y (runShard parse cfg frames).2 =
        requests parse cfg y (runShard parse cfg frames').2 ∧
      ∀ x ∈ (runShard parse cfg frames).2 ++ (runShard parse cfg frames').2,
        requestOf y x.2 ≠ .none → (diffOf parse cfg y x.1).isSome := by
  obtain ⟨hrows, hrequests, hlive⟩ := @run_diffs parse cfg y frames h
  obtain ⟨hrows', hrequests', hlive'⟩ := @run_diffs parse cfg y frames' h'
  rw [hlive] at hanswers
  rw [hlive'] at hanswers'
  obtain ⟨hsame, hreplies⟩ := run_sameDiffs (forall₂_sameDiff hdiffs)
    (fun x hx => by simpa using (List.mem_filter.mp hx).2) ⟨rfl, rfl⟩ rfl hanswers hanswers'
  refine ⟨?_, by rw [hrequests, hrequests', hreplies], fun x hx hreq => ?_⟩
  · rw [Emitter.filter_body (· = 'D'), Emitter.filter_body (· = 'D')]
    exact hrows.trans (hsame.trans hrows'.symm)
  · have hreply : RepliesTo parse cfg y x.1 x.2 := by
      rcases List.mem_append.mp hx with hx | hx <;> exact repliesTo_runShard hx
    rw [RepliesTo] at hreply
    cases hz : pickHandled parse cfg y x.1 with
    | none =>
      rw [hz] at hreply
      exact absurd hreply.1 hreq
    | some z =>
      rw [hz] at hreply
      have hk : z.2.kind = .depthDiff := by
        by_contra hk
        exact hreq (hreply.2.2 hk)
      rw [hreply.2.1, if_pos hk]
      rfl

theorem diffRows_of_diffs_trade :
    let rows (frames : List Frame) :=
      ((((runShard parseDepth oneSymbol frames).1.sym (lit "A")).rows.filter
        (·.type = 'D')).map ObRow.unnumbered)
    rows noisyRun ≠ [] ∧ rows noisyRun = rows quietRun := by
  have hanswers : ∀ frames ∈ [noisyRun, quietRun],
      ∀ r ∈ liveAnswers (lit "A") (runShard parseDepth oneSymbol frames).2,
        r = some (lit depthResponse) := by
    decide +kernel
  exact ⟨by decide +kernel, (diffRows_of_diffs (by decide +kernel) (by decide +kernel)
    (by decide +kernel) (fun _ => some (lit depthResponse))
    (fun k r hr => hanswers noisyRun (by simp) r (List.mem_of_getElem? hr))
    (fun k r hr => hanswers quietRun (by simp) r (List.mem_of_getElem? hr))).1⟩

end LobCapture
