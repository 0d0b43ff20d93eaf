/-
# A replay follows the live run

One symbol of a live run beside the same symbol of the replay of its files.  The two take an
epoch at different places: the live handler looks at it after it has parsed the payload, the
replay before, so a replay may have invalidated a book that the live run has yet to invalidate.
As soon as a frame is handled the two sessions are the same again, and they remain so as long
as the replay is given the snapshots that the live run got.
-/
import LobCapture.Capture.Files
import LobCapture.Lib.Queue

namespace LobCapture

open Lib

/-! ## Emitters with the same session -/

namespace Emitter

@[simp] lemma sess_emitBook (ts : Timestamp) (type : Char) (book : OrderBook) (e : Emitter) :
    (e.emitBook ts type book).sess = e.sess := rfl

@[simp] lemma sess_emitIfReady (ts : Timestamp) (type : Char) (e : Emitter) :
    (e.emitIfReady ts type).sess = e.sess := by
  rw [emitIfReady]
  split_ifs <;> rfl

@[simp] lemma sess_emitDepth5 (ts : Timestamp) (ev : DepthEvent) (e : Emitter) :
    (e.emitDepth5 ts ev).sess = e.sess := rfl

lemma sess_seed (snap : DepthEvent) (e : Emitter) :
    (e.seed snap).sess = (e.sess.onSnapshot snap.bids snap.asks snap.lastUpdateId).session := by
  -- the rows of the callbacks leave the session alone
  exact List.foldlRecOn (motive := fun e' : Emitter => e'.sess = _) _ _ rfl fun _ he _ _ => he

lemma sess_takeDiff (ts : Timestamp) (ev : DepthEvent) (e : Emitter) :
    (e.takeDiff ts ev).1.sess = (e.sess.onDiff ev).2 := by
  simp only [takeDiff]
  split_ifs
  · exact sess_emitIfReady _ _ _
  · rfl

lemma snd_takeDiff_congr {ts : Timestamp} {ev : DepthEvent} {e e' : Emitter}
    (h : e.sess = e'.sess) : (e.takeDiff ts ev).2 = (e'.takeDiff ts ev).2 := by
  simp only [takeDiff, h]
  split_ifs <;> rfl

/-- Two emitters with the same session which, if `P` holds, have written the same rows. -/
def Alike (P : Prop) (e e' : Emitter) : Prop := e.sess = e'.sess ∧ (P → e = e')

variable {P : Prop} {e e' : Emitter}

lemma Alike.of_eq (hsess : e.sess = e'.sess) (hseq : P → e.seq = e'.seq)
    (hrows : P → e.rows = e'.rows) : Alike P e e' := by
  refine ⟨hsess, fun hp => ?_⟩
  cases e
  cases e'
  simp_all

/-- A function that treats the session without looking at the rows keeps emitters alike. -/
lemma Alike.map {f : Emitter → Emitter} (g : BookSession → BookSession)
    (hf : ∀ e, (f e).sess = g e.sess) (h : Alike P e e') : Alike P (f e) (f e') := by
  constructor
  · rw [hf, hf, h.1]
  · intro hp
    rw [h.2 hp]

lemma Alike.seed (h : Alike P e e') (snap : DepthEvent) : Alike P (e.seed snap) (e'.seed snap) :=
  h.map (fun s => (s.onSnapshot snap.bids snap.asks snap.lastUpdateId).session) (sess_seed snap)

lemma Alike.takeDiff (h : Alike P e e') (ts : Timestamp) (ev : DepthEvent) :
    Alike P (e.takeDiff ts ev).1 (e'.takeDiff ts ev).1 :=
  h.map (fun s => (s.onDiff ev).2) (sess_takeDiff ts ev)

lemma Alike.emitDepth5 (h : Alike P e e') (ts : Timestamp) (ev : DepthEvent) :
    Alike P (e.emitDepth5 ts ev) (e'.emitDepth5 ts ev) :=
  h.map id (sess_emitDepth5 ts ev)

/-- On a trade the rows agree if both sides write one, or both write none. -/
lemma Alike.trade {b b' : Bool} (h : Alike P e e') (hb : P → b' = b) (ts : Timestamp) :
    Alike P (if b then e.emitIfReady ts 'T' else e) (if b' then e'.emitIfReady ts 'T' else e') := by
  have hsess : ∀ (b : Bool) (e : Emitter),
      (if b then e.emitIfReady ts 'T' else e).sess = e.sess := by
    intro b e
    split_ifs
    · exact sess_emitIfReady ts 'T' e
    · rfl
  constructor
  · rw [hsess, hsess, h.1]
  · intro hp
    rw [h.2 hp, hb hp]

end Emitter

/-! ## Entering an epoch -/

/-- The value of `last_epoch` before the first frame. -/
def noEpoch : UInt64 := .ofNat (UInt64.size - 1)

lemma le_noEpoch (c : UInt64) : c ≤ noEpoch := by
  rw [UInt64.le_iff_toNat_le]
  have hlt := c.toNat_lt_size
  have hmax : noEpoch.toNat = UInt64.size - 1 := rfl
  omega

/-- The sessions of a symbol in the live run and in the replay.  Either no frame of the symbol
has been handled, or the live run has yet to enter the epoch of the replay, or the sessions are
the same. -/
def Synced (fresh : BookSession) (st : SymState) (r : SymReplay) : Prop :=
  (st.lastEpoch = noEpoch ∧ st.sess = fresh ∧ r.sess = fresh) ∨
    ∃ e, r.epoch = some e ∧ st.lastEpoch ≤ e ∧
      r.sess = if st.lastEpoch = e then st.sess else st.sess.requestResync

lemma BookSession.requestResync_requestResync (s : BookSession) :
    s.requestResync.requestResync = s.requestResync := rfl

lemma BookSession.requestResync_new (id : Int32) (v : Venue) :
    (BookSession.new id v).requestResync = .new id v := rfl

namespace SymState

@[simp] lemma lastEpoch_enterEpoch (c : UInt64) (st : SymState) :
    (st.enterEpoch c).lastEpoch = c := by
  by_cases h : st.lastEpoch = c
  · simp [enterEpoch, h]
  · simp [enterEpoch, h]

@[simp] lemma seq_enterEpoch (c : UInt64) (st : SymState) : (st.enterEpoch c).seq = st.seq := by
  rw [enterEpoch]
  split_ifs <;> rfl

@[simp] lemma rows_enterEpoch (c : UInt64) (st : SymState) :
    (st.enterEpoch c).rows = st.rows := by
  rw [enterEpoch]
  split_ifs <;> rfl

lemma sess_enterEpoch (c : UInt64) (st : SymState) :
    (st.enterEpoch c).sess =
      if st.lastEpoch ≠ c ∧ st.lastEpoch ≠ noEpoch then st.sess.requestResync else st.sess := by
  rw [enterEpoch]
  split_ifs <;> simp_all [noEpoch]

end SymState

namespace SymReplay

@[simp] lemma epoch_enterEpoch (c : UInt64) (r : SymReplay) :
    (r.enterEpoch c).epoch = some c := by
  rw [enterEpoch]
  cases he : r.epoch with
  | none => rfl
  | some e =>
    dsimp only
    split_ifs with h
    · rfl
    · rw [he, not_not.mp h]

@[simp] lemma seq_enterEpoch (c : UInt64) (r : SymReplay) : (r.enterEpoch c).seq = r.seq := by
  rw [enterEpoch]
  cases r.epoch with
  | none => rfl
  | some e => dsimp only; split_ifs <;> rfl

@[simp] lemma rows_enterEpoch (c : UInt64) (r : SymReplay) : (r.enterEpoch c).rows = r.rows := by
  rw [enterEpoch]
  cases r.epoch with
  | none => rfl
  | some e => dsimp only; split_ifs <;> rfl

lemma sess_enterEpoch_none {c : UInt64} {r : SymReplay} (h : r.epoch = none) :
    (r.enterEpoch c).sess = r.sess := by
  rw [enterEpoch, h]

lemma sess_enterEpoch_some {c e : UInt64} {r : SymReplay} (h : r.epoch = some e) :
    (r.enterEpoch c).sess = if e = c then r.sess else r.sess.requestResync := by
  rw [enterEpoch, h]
  by_cases hec : e = c <;> simp [hec]

/-- A session that has seen nothing has nothing to invalidate. -/
lemma sess_enterEpoch_fresh {c : UInt64} {r : SymReplay}
    (h : r.sess.requestResync = r.sess) : (r.enterEpoch c).sess = r.sess := by
  cases he : r.epoch with
  | none => exact sess_enterEpoch_none he
  | some e => rw [sess_enterEpoch_some he, h, ite_self]

end SymReplay

namespace Synced

variable {fresh : BookSession} {st : SymState} {r : SymReplay}

/-- A frame that cannot be parsed changes the session of the replay only. -/
lemma enterEpoch (h : Synced fresh st r) (hfresh : fresh.requestResync = fresh) {c : UInt64}
    (hc : ∀ e ∈ r.epoch, e ≤ c) : Synced fresh st (r.enterEpoch c) := by
  rcases h with ⟨hlast, hst, hr⟩ | ⟨e, he, hle, hr⟩
  · refine .inl ⟨hlast, hst, ?_⟩
    rw [SymReplay.sess_enterEpoch_fresh (by rw [hr, hfresh]), hr]
  · have hec : e ≤ c := hc e he
    refine .inr ⟨c, SymReplay.epoch_enterEpoch c r, hle.trans hec, ?_⟩
    rw [SymReplay.sess_enterEpoch_some he, hr]
    by_cases h : e = c
    · simp [h]
    · have hne : st.lastEpoch ≠ c := (lt_of_le_of_lt hle (lt_of_le_of_ne hec h)).ne
      rw [if_neg h, if_neg hne]
      -- invalidating a second time changes nothing
      split_ifs
      · rfl
      · exact st.sess.requestResync_requestResync

/-- Once the live run has entered the epoch too, the sessions are the same. -/
lemma sess_eq (h : Synced fresh st r) (hfresh : fresh.requestResync = fresh) {c : UInt64}
    (hc : ∀ e ∈ r.epoch, e ≤ c) : (st.enterEpoch c).sess = (r.enterEpoch c).sess := by
  rw [SymState.sess_enterEpoch]
  rcases h with ⟨hlast, hst, hr⟩ | ⟨e, he, hle, hr⟩
  · rw [if_neg (by simp [hlast]), SymReplay.sess_enterEpoch_fresh (by rw [hr, hfresh]), hst, hr]
  · have hec : e ≤ c := hc e he
    rw [SymReplay.sess_enterEpoch_some he, hr]
    by_cases hlast : st.lastEpoch = c
    · have hece : e = c := le_antisymm hec (hlast ▸ hle)
      simp [hlast, hece]
    · -- if the live run has seen no frame, the epochs of the replay are at their maximum
      have hno : st.lastEpoch ≠ noEpoch := by
        intro hno
        exact hlast (le_antisymm (hle.trans hec) (hno ▸ le_noEpoch c))
      rw [if_pos ⟨hlast, hno⟩]
      by_cases h : e = c
      · rw [if_pos h, h, if_neg hlast]
      · rw [if_neg h]
        split_ifs
        · rfl
        · exact st.sess.requestResync_requestResync.symm

/-- Sessions that are the same in the same epoch. -/
lemma of_eq {c : UInt64} (hlast : st.lastEpoch = c) (hepoch : r.epoch = some c)
    (hsess : st.sess = r.sess) : Synced fresh st r :=
  .inr ⟨c, hepoch, hlast.le, by rw [if_pos hlast, hsess]⟩

end Synced

/-! ## A row on both sides -/

/-- A request, without the body that was received. -/
def Fetch.attempt : Fetch → Attempt DepthEvent
  | .none => .none
  | .failed => .failed
  | .ok _ snap => .ok snap

section Row

variable {parse : Bytes → Option DepthEvent} {cfg rcfg : Config} {P : Prop}
  {st : SymState} {r : SymReplay}

@[simp] lemma SymState.lastEpoch_resync (response : Option Bytes) :
    (st.resync parse response).1.lastEpoch = st.lastEpoch := by
  cases response with
  | none => rfl
  | some raw =>
    simp only [resync]
    cases parse raw <;> rfl

@[simp] lemma SymState.lastEpoch_onMessage (fr : Frame) (m : Message) :
    (st.onMessage parse cfg fr m).1.lastEpoch = fr.connEpoch := by
  simp only [onMessage]
  split
  · split_ifs <;> simp
  · simp
  · split_ifs <;> simp
  · simp

@[simp] lemma SymReplay.epoch_seedFromSidecar (snaps : List DepthEvent) :
    (r.seedFromSidecar snaps).1.epoch = r.epoch := by
  cases snaps <;> rfl

@[simp] lemma SymReplay.epoch_onRow (b : Bool) (row : Row) (snaps : List DepthEvent) :
    (r.onRow parse cfg b row snaps).1.epoch = some row.connEpoch := by
  cases hp : parse row.payload with
  | none =>
    simp only [onRow, hp]
    split_ifs <;> simp
  | some ev =>
    simp only [onRow, hp]
    split_ifs <;> simp

open Emitter in
/-- Both sides at the place where a snapshot is wanted. -/
lemma resync_alike (h : Alike P st.toEmitter r.toEmitter) (response : Option Bytes)
    (snaps : List DepthEvent) :
    Answers (st.resync parse response).2.attempt snaps (r.seedFromSidecar snaps).2.2
        (r.seedFromSidecar snaps).2.1 ∧
      ((r.seedFromSidecar snaps).2.2 = (st.resync parse response).2.attempt.result →
        Alike P (st.resync parse response).1.toEmitter (r.seedFromSidecar snaps).1.toEmitter) := by
  have hanswer : ∀ a : Attempt DepthEvent, a ≠ .none →
      Answers a snaps (r.seedFromSidecar snaps).2.2 (r.seedFromSidecar snaps).2.1 := by
    intro a ha
    cases a with
    | none => exact absurd rfl ha
    | failed => cases snaps <;> exact ⟨rfl, rfl⟩
    | ok a => cases snaps <;> exact ⟨rfl, rfl⟩
  -- a request that fails leaves the session alone, and so does an empty queue
  have hfailed : (r.seedFromSidecar snaps).2.2 = none →
      Alike P st.toEmitter (r.seedFromSidecar snaps).1.toEmitter := by
    intro hused
    cases snaps with
    | nil => exact h
    | cons snap snaps => exact absurd hused (by simp [SymReplay.seedFromSidecar])
  cases response with
  | none => exact ⟨hanswer _ (by simp [SymState.resync, Fetch.attempt]), hfailed⟩
  | some raw =>
    cases hp : parse raw with
    | none =>
      have hres : st.resync parse (some raw) = (st, .failed) := by simp only [SymState.resync, hp]
      rw [hres]
      exact ⟨hanswer _ (by simp [Fetch.attempt]), hfailed⟩
    | some snap =>
      have hres : st.resync parse (some raw) =
          ({ st with toEmitter := st.seed snap }, .ok raw snap) := by
        simp only [SymState.resync, hp]
      rw [hres]
      refine ⟨hanswer _ (by simp [Fetch.attempt]), fun hused => ?_⟩
      cases snaps with
      | nil =>
        exact absurd hused (by simp [SymReplay.seedFromSidecar, Fetch.attempt, Attempt.result])
      | cons snap' snaps =>
        obtain rfl : snap' = snap := Option.some.inj hused
        exact h.seed snap'

/-- A message as the handler makes it. -/
def Message.Stamped (parse : Bytes → Option DepthEvent) (m : Message) : Prop :=
  m.kind ≠ .trade → m.event = (parse m.payload).map fun ev => { ev with appliedTime := m.ts }

lemma stamped_message {fr : Frame} {m : Message} (h : fr.message parse cfg = some m)
    (hsub : m.symbol ∈ cfg.symbols) : m.Stamped parse := by
  obtain ⟨⟨stream, data⟩, -, rfl⟩ := Option.map_eq_some_iff.mp h
  dsimp only at hsub ⊢
  intro hkind
  by_cases hdepth : (classifyStream stream = .depthDiff ∨ classifyStream stream = .depth5) ∧
      streamSymbol stream ∈ cfg.symbols
  · rw [if_pos hdepth]
    cases hp : parse data <;> simp [hp]
  · rw [if_neg hdepth] at hsub hkind
    refine absurd ⟨?_, hsub⟩ hdepth
    cases hk : classifyStream stream with
    | depthDiff => exact .inl rfl
    | depth5 => exact .inr rfl
    | trade => exact absurd hk hkind

/-- **A handled frame and its row**, in sessions that are the same once the epoch is entered. -/
lemma onMessage_alike {fr : Frame} {m : Message} (hm : m.Stamped parse) (hok : ¬ m.ParseFailed)
    (htrades : P → rcfg.integrateTrades = cfg.integrateTrades)
    (h : (st.enterEpoch fr.connEpoch).Alike P (r.enterEpoch fr.connEpoch).toEmitter)
    (snaps : List DepthEvent) :
    Answers (st.onMessage parse cfg fr m).2.attempt snaps
        (r.onRow parse rcfg true (Message.toRow (fr, m)) snaps).2.2
        (r.onRow parse rcfg true (Message.toRow (fr, m)) snaps).2.1 ∧
      ((r.onRow parse rcfg true (Message.toRow (fr, m)) snaps).2.2 =
          (st.onMessage parse cfg fr m).2.attempt.result →
        (st.onMessage parse cfg fr m).1.Alike P
          (r.onRow parse rcfg true (Message.toRow (fr, m)) snaps).1.toEmitter) := by
  cases hk : m.kind with
  | depthDiff =>
    cases hp : parse m.payload with
    | none => exact absurd ⟨.inl hk, by rw [hm (by simp [hk]), hp]; rfl⟩ hok
    | some ev =>
      have hev : m.event = some { ev with appliedTime := m.ts } := by
        rw [hm (by simp [hk]), hp]
        rfl
      -- whether a snapshot is wanted depends on the session only, so both sides want one or none
      have hdiff := h.takeDiff m.ts { ev with appliedTime := m.ts }
      have hwants : ((st.enterEpoch fr.connEpoch).takeDiff m.ts { ev with appliedTime := m.ts }).2 =
          ((r.enterEpoch fr.connEpoch).takeDiff m.ts { ev with appliedTime := m.ts }).2 :=
        Emitter.snd_takeDiff_congr h.1
      simp only [SymState.onMessage, SymReplay.onRow, Message.toRow, hk, hev, hp,
        StreamKind.toText, if_true, ← hwants]
      split_ifs
      · exact resync_alike hdiff fr.response snaps
      · exact ⟨⟨rfl, rfl⟩, fun _ => hdiff⟩
  | depth5 =>
    cases hp : parse m.payload with
    | none => exact absurd ⟨.inr hk, by rw [hm (by simp [hk]), hp]; rfl⟩ hok
    | some ev =>
      have hev : m.event = some { ev with appliedTime := m.ts } := by
        rw [hm (by simp [hk]), hp]
        rfl
      have hne : lit "depth5" ≠ lit "depth_diff" := by decide
      simp only [SymState.onMessage, SymReplay.onRow, Message.toRow, hk, hev, hp,
        StreamKind.toText, if_true, if_neg hne]
      exact ⟨⟨rfl, rfl⟩, fun _ => h.emitDepth5 m.ts { ev with appliedTime := m.ts }⟩
  | trade =>
    have hne : lit "trade" ≠ lit "depth_diff" := by decide
    have hne' : lit "trade" ≠ lit "depth5" := by decide
    have htrade := h.trade htrades m.ts
    simp only [SymState.onMessage, SymReplay.onRow, Message.toRow, hk, StreamKind.toText,
      if_true, if_neg hne, if_neg hne']
    split_ifs at htrade ⊢ <;> exact ⟨⟨rfl, rfl⟩, fun _ => htrade⟩

/-- A frame that cannot be parsed, on the side of the replay. -/
lemma onRow_of_parseFailed {x : Frame × Message} (hm : x.2.Stamped parse)
    (hfailed : x.2.ParseFailed) (snaps : List DepthEvent) :
    r.onRow parse rcfg true (Message.toRow x) snaps =
      (r.enterEpoch x.1.connEpoch, snaps, none) := by
  obtain ⟨hkind, hnone⟩ := hfailed
  have hp : parse x.2.payload = none := by
    rw [hm (by rcases hkind with hk | hk <;> simp [hk])] at hnone
    exact Option.map_eq_none_iff.mp hnone
  have hne : lit "depth5" ≠ lit "depth_diff" := by decide
  rcases hkind with hk | hk
  · simp only [SymReplay.onRow, Message.toRow, hk, hp, StreamKind.toText, if_true]
  · simp only [SymReplay.onRow, Message.toRow, hk, hp, StreamKind.toText, if_true, if_neg hne]

end Row

/-! ## One symbol of a run -/

/-- The request that was made on a row, if it is a row of the symbol. -/
def attemptOf (y : Bytes) (x : Bytes × Fetch) : Attempt DepthEvent :=
  if x.1 = y then x.2.attempt else .none

/-- The snapshot that was used on a row, if it is a row of the symbol. -/
def usedBy (y : Bytes) (x : Bytes × Option DepthEvent) : Option DepthEvent :=
  if x.1 = y then x.2 else none

/-- What a replay has for a symbol. -/
def Replay.book (cfg : Config) (t : Replay) (y : Bytes) : SymReplay :=
  (t.books y).getD (.new cfg y)

section InStep

variable {parse : Bytes → Option DepthEvent} {cfg : Config} {y : Bytes}

lemma Shard.sym_take (s : Shard) (x : Frame × Message) :
    (s.take parse cfg x).1.sym y =
      if x.2.symbol = y ∧ ¬ x.2.ParseFailed ∧ x.2.symbol ∈ cfg.symbols then
        ((s.sym y).onMessage parse cfg x.1 x.2).1
      else s.sym y := by
  simp only [Shard.take]
  by_cases hy : x.2.symbol = y
  · subst hy
    by_cases hf : x.2.ParseFailed <;> by_cases hs : x.2.symbol ∈ cfg.symbols <;> simp [hf, hs]
  · simp only [hy, false_and, if_false]
    split_ifs
    · rfl
    · exact if_neg (Ne.symm hy)

lemma Shard.fetch_take (s : Shard) (x : Frame × Message) :
    (s.take parse cfg x).2 = (x.2.symbol,
      if ¬ x.2.ParseFailed ∧ x.2.symbol ∈ cfg.symbols then
        ((s.sym x.2.symbol).onMessage parse cfg x.1 x.2).2
      else .none) := by
  simp only [Shard.take]
  by_cases hf : x.2.ParseFailed <;> by_cases hs : x.2.symbol ∈ cfg.symbols <;> simp [hf, hs]

lemma Replay.book_take (b : Bool) (t : Replay) (row : Row) :
    (t.take parse cfg b row).1.book cfg y =
      if row.symbol = y then ((t.book cfg y).onRow parse cfg b row (t.snaps y)).1
      else t.book cfg y := by
  by_cases hy : row.symbol = y
  · subst hy
    simp only [Replay.take, Replay.book, if_true, Option.getD_some]
  · simp only [Replay.take, Replay.book, if_neg hy, if_neg (Ne.symm hy)]

lemma Replay.snaps_take (b : Bool) (t : Replay) (row : Row) :
    (t.take parse cfg b row).1.snaps y =
      if row.symbol = y then ((t.book cfg y).onRow parse cfg b row (t.snaps y)).2.1
      else t.snaps y := by
  by_cases hy : row.symbol = y
  · subst hy
    simp only [Replay.take, Replay.book, if_true]
  · simp only [Replay.take, if_neg hy, if_neg (Ne.symm hy)]

lemma Replay.used_take (b : Bool) (t : Replay) (row : Row) :
    (t.take parse cfg b row).2 = (row.symbol,
      ((t.book cfg row.symbol).onRow parse cfg b row (t.snaps row.symbol)).2.2) := rfl

variable (parse cfg y) in
/-- The state of a symbol in the live run and in the replay, with the entries that are left.
The rows agree if both runs treat trades in the same way. -/
structure Mirrors (rcfg : Config) (es : List (Frame × Message)) (s : Shard) (t : Replay) :
    Prop where
  synced : Synced (.new (deriveId y) cfg.venue) (s.sym y) (t.book rcfg y)
  seq : rcfg.integrateTrades = cfg.integrateTrades → (s.sym y).seq = (t.book rcfg y).seq
  rows : rcfg.integrateTrades = cfg.integrateTrades → (s.sym y).rows = (t.book rcfg y).rows
  epochs : ∀ e ∈ (t.book rcfg y).epoch, ∀ x ∈ es, e ≤ x.1.connEpoch
  later : es.Pairwise fun a b => a.1.connEpoch ≤ b.1.connEpoch
  stamped : ∀ x ∈ es, x.2.symbol = y → x.2.symbol ∈ cfg.symbols ∧ x.2.Stamped parse

namespace Mirrors

variable {rcfg : Config} {x : Frame × Message} {es : List (Frame × Message)} {s : Shard}
  {t : Replay}

/-- A row of another symbol. -/
lemma step_other (h : Mirrors parse cfg y rcfg (x :: es) s t) (hy : x.2.symbol ≠ y) :
    Mirrors parse cfg y rcfg es (s.take parse cfg x).1
      (t.take parse rcfg true (Message.toRow x)).1 := by
  have hlive : (s.take parse cfg x).1.sym y = s.sym y := by
    rw [Shard.sym_take, if_neg fun h => hy h.1]
  have hreplay : (t.take parse rcfg true (Message.toRow x)).1.book rcfg y = t.book rcfg y := by
    rw [Replay.book_take, if_neg (show (Message.toRow x).symbol ≠ y from hy)]
  constructor
  · rw [hlive, hreplay]
    exact h.synced
  · rw [hlive, hreplay]
    exact h.seq
  · rw [hlive, hreplay]
    exact h.rows
  · rw [hreplay]
    exact fun e he z hz => h.epochs e he z (List.mem_cons_of_mem _ hz)
  · exact h.later.of_cons
  · exact fun z hz => h.stamped z (List.mem_cons_of_mem _ hz)

/-- What is left to show of a row of the symbol itself: the states before the next row. -/
lemma of_states (h : Mirrors parse cfg y rcfg (x :: es) s t) {s' : Shard} {t' : Replay}
    (hsynced : Synced (.new (deriveId y) cfg.venue) (s'.sym y) (t'.book rcfg y))
    (hepoch : (t'.book rcfg y).epoch = some x.1.connEpoch)
    (hseq : rcfg.integrateTrades = cfg.integrateTrades → (s'.sym y).seq = (t'.book rcfg y).seq)
    (hrows : rcfg.integrateTrades = cfg.integrateTrades →
      (s'.sym y).rows = (t'.book rcfg y).rows) :
    Mirrors parse cfg y rcfg es s' t' where
  synced := hsynced
  seq := hseq
  rows := hrows
  epochs := by
    intro e he z hz
    obtain rfl : x.1.connEpoch = e := Option.some.inj (hepoch.symm.trans he)
    exact List.rel_of_pairwise_cons h.later hz
  later := h.later.of_cons
  stamped := fun z hz => h.stamped z (List.mem_cons_of_mem _ hz)

/-- A row of the symbol that the live handler drops because it cannot parse the payload. -/
lemma step_dropped (h : Mirrors parse cfg y rcfg (x :: es) s t) (hy : x.2.symbol = y)
    (hf : x.2.ParseFailed) :
    Mirrors parse cfg y rcfg es (s.take parse cfg x).1
      (t.take parse rcfg true (Message.toRow x)).1 := by
  have hlive : (s.take parse cfg x).1.sym y = s.sym y := by
    rw [Shard.sym_take, if_neg fun h => h.2.1 hf]
  have hreplay : (t.take parse rcfg true (Message.toRow x)).1.book rcfg y =
      (t.book rcfg y).enterEpoch x.1.connEpoch := by
    rw [Replay.book_take, if_pos (show (Message.toRow x).symbol = y from hy),
      onRow_of_parseFailed (h.stamped x List.mem_cons_self hy).2 hf]
  refine h.of_states ?_ ?_ ?_ ?_
  · rw [hlive, hreplay]
    exact h.synced.enterEpoch (BookSession.requestResync_new _ _)
      fun e he => h.epochs e he x List.mem_cons_self
  · rw [hreplay, SymReplay.epoch_enterEpoch]
  · rw [hlive, hreplay, SymReplay.seq_enterEpoch]
    exact h.seq
  · rw [hlive, hreplay, SymReplay.rows_enterEpoch]
    exact h.rows

/-- Before a row of the symbol is handled the sessions are brought into the same state. -/
lemma alike_enterEpoch (h : Mirrors parse cfg y rcfg (x :: es) s t) :
    ((s.sym y).enterEpoch x.1.connEpoch).Alike (rcfg.integrateTrades = cfg.integrateTrades)
      ((t.book rcfg y).enterEpoch x.1.connEpoch).toEmitter := by
  refine Emitter.Alike.of_eq ?_ ?_ ?_
  · exact h.synced.sess_eq (BookSession.requestResync_new _ _)
      fun e he => h.epochs e he x List.mem_cons_self
  · intro hp
    rw [SymState.seq_enterEpoch, SymReplay.seq_enterEpoch, h.seq hp]
  · intro hp
    rw [SymState.rows_enterEpoch, SymReplay.rows_enterEpoch, h.rows hp]

/-- **A step of both runs**: the replay takes a snapshot where the live run asked for one, and if
it is the one that the live run got, the runs go on as they were. -/
theorem inStep : InStep (Shard.take parse cfg)
    (fun t x => t.take parse rcfg true (Message.toRow x)) (attemptOf y) (usedBy y)
    (Replay.snaps · y) (Mirrors parse cfg y rcfg) := by
  have hstep : ∀ s t x es, Mirrors parse cfg y rcfg (x :: es) s t →
      Answers (attemptOf y (s.take parse cfg x).2) (t.snaps y)
          (usedBy y (t.take parse rcfg true (Message.toRow x)).2)
          ((t.take parse rcfg true (Message.toRow x)).1.snaps y) ∧
        (usedBy y (t.take parse rcfg true (Message.toRow x)).2 =
            (attemptOf y (s.take parse cfg x).2).result →
          Mirrors parse cfg y rcfg es (s.take parse cfg x).1
            (t.take parse rcfg true (Message.toRow x)).1) := by
    intro s t x es h
    have hsymbol : (Message.toRow x).symbol = x.2.symbol := rfl
    rw [Shard.fetch_take, Replay.used_take, Replay.snaps_take, hsymbol]
    by_cases hy : x.2.symbol = y
    · obtain ⟨hsub, hstamped⟩ := h.stamped x List.mem_cons_self hy
      rw [attemptOf, usedBy, if_pos hy, if_pos hy, if_pos hy, hy]
      -- a payload that cannot be parsed makes no request, and the replay takes nothing for it
      by_cases hf : x.2.ParseFailed
      · rw [if_neg fun h => h.1 hf, onRow_of_parseFailed hstamped hf]
        exact ⟨⟨rfl, rfl⟩, fun _ => h.step_dropped hy hf⟩
      · have hlive : (s.take parse cfg x).1.sym y =
            ((s.sym y).onMessage parse cfg x.1 x.2).1 := by
          rw [Shard.sym_take, if_pos ⟨hy, hf, hsub⟩]
        have hreplay : (t.take parse rcfg true (Message.toRow x)).1.book rcfg y =
            ((t.book rcfg y).onRow parse rcfg true (Message.toRow x) (t.snaps y)).1 := by
          rw [Replay.book_take, if_pos (hsymbol.trans hy)]
        rw [if_pos ⟨hf, hy ▸ hsub⟩]
        obtain ⟨hans, hnext⟩ := onMessage_alike hstamped hf id h.alike_enterEpoch (t.snaps y)
        refine ⟨hans, fun hused => ?_⟩
        obtain ⟨hsess, hemit⟩ := hnext hused
        refine h.of_states ?_ ?_ ?_ ?_
        · rw [hlive, hreplay]
          exact .of_eq (SymState.lastEpoch_onMessage _ _) (SymReplay.epoch_onRow _ _ _) hsess
        · rw [hreplay, SymReplay.epoch_onRow]
          rfl
        · rw [hlive, hreplay]
          exact fun hp => congrArg Emitter.seq (hemit hp)
        · rw [hlive, hreplay]
          exact fun hp => congrArg Emitter.rows (hemit hp)
    · rw [attemptOf, usedBy, if_neg hy, if_neg hy, if_neg hy]
      exact ⟨⟨rfl, rfl⟩, fun _ => h.step_other hy⟩
  exact ⟨fun s t x es h => (hstep s t x es h).1, fun s t x es h => (hstep s t x es h).2⟩

end Mirrors

end InStep

end LobCapture
