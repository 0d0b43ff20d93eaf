/-
# The rows of an emitter

Live handler and replay drive an emitter by the same few actions.  What an action writes is
stated here once, without the running number of the rows; the number is a matter of its own.  For
the rows that show the diff book it is also kept from which messages the book has come.
-/
import LobCapture.Capture.Mirror
import LobCapture.Session.Provenance

namespace LobCapture

open Lib BookSession

/-- What the drivers do with an emitter. -/
inductive Action where
  /-- a new connection -/
  | invalidate
  | diff (ts : Timestamp) (ev : DepthEvent)
  | snapshot (snap : DepthEvent)
  | depth5 (ts : Timestamp) (ev : DepthEvent)
  | trade (ts : Timestamp)

/-- The call of the session in an action. -/
def Action.call : Action → Option Call
  | .invalidate => some .requestResync
  | .diff _ ev => some (.onDiff ev)
  | .snapshot snap => some (.onSnapshot snap.bids snap.asks snap.lastUpdateId)
  | _ => none

/-! ## Rows -/

/-- A row without its number. -/
def ObRow.unnumbered (r : ObRow) : ObRow := { r with seqNo := 0 }

/-- A row that shows a book, without its number. -/
def bookRow (ts : Timestamp) (type : Char) (book : OrderBook) : ObRow :=
  book.fillTop5 { ts := ts, type := type }

/-- The row of a depth5 event, without its number. -/
def depth5Row (ts : Timestamp) (id : Int32) (ev : DepthEvent) : ObRow where
  ts := ts
  id := id
  type := 'S'
  bid := .ofFn fun i => (ev.bids[(i : ℕ)]?.map Level.price).getD 0
  bidSize := .ofFn fun i => (ev.bids[(i : ℕ)]?.map Level.qty).getD 0
  ask := .ofFn fun i => (ev.asks[(i : ℕ)]?.map Level.price).getD 0
  askSize := .ofFn fun i => (ev.asks[(i : ℕ)]?.map Level.qty).getD 0

namespace Emitter

/-- The rows of the file without their numbers. -/
def body (e : Emitter) : List ObRow := e.rows.map ObRow.unnumbered

lemma filter_body (p : Char → Bool) (e : Emitter) :
    (e.rows.filter fun r => p r.type).map ObRow.unnumbered = e.body.filter fun r => p r.type := by
  rw [body, List.filter_map]
  rfl

/-- One action. -/
def act (e : Emitter) : Action → Emitter
  | .invalidate => { e with sess := e.sess.requestResync }
  | .diff ts ev => (e.takeDiff ts ev).1
  | .snapshot snap => e.seed snap
  | .depth5 ts ev => e.emitDepth5 ts ev
  | .trade ts => e.emitIfReady ts 'T'

/-- The rows that an action writes, without their numbers. -/
def written (e : Emitter) : Action → List ObRow
  | .invalidate => []
  | .diff ts ev => (appliedBooks e.sess (.onDiff ev)).map fun x => bookRow ts 'D' x.2
  | .snapshot snap =>
    (appliedBooks e.sess (.onSnapshot snap.bids snap.asks snap.lastUpdateId)).map fun x =>
      bookRow x.1.appliedTime 'D' x.2
  | .depth5 ts ev => [depth5Row ts e.sess.ob.id ev]
  | .trade ts =>
    if e.sess.initialized = false ∨ e.sess.resyncPending = true then []
    else [bookRow ts 'T' e.sess.ob]

/-- One action, with the rows that it writes. -/
def step (e : Emitter) (a : Action) : Emitter × List ObRow := (e.act a, e.written a)

@[simp] lemma body_emitBook (ts : Timestamp) (type : Char) (book : OrderBook) (e : Emitter) :
    (e.emitBook ts type book).body = e.body ++ [bookRow ts type book] := by
  simp only [body, emitBook, List.map_append, List.map_singleton]
  rfl

lemma body_emitIfReady (ts : Timestamp) (type : Char) (e : Emitter) :
    (e.emitIfReady ts type).body =
      e.body ++ if e.sess.initialized = false ∨ e.sess.resyncPending = true then []
        else [bookRow ts type e.sess.ob] := by
  rw [emitIfReady]
  split_ifs
  · exact (List.append_nil _).symm
  · exact body_emitBook ts type e.sess.ob e

@[simp] lemma body_emitDepth5 (ts : Timestamp) (ev : DepthEvent) (e : Emitter) :
    (e.emitDepth5 ts ev).body = e.body ++ [depth5Row ts e.sess.ob.id ev] := by
  simp only [body, emitDepth5, List.map_append, List.map_singleton]
  rfl

lemma body_seed (snap : DepthEvent) (e : Emitter) :
    (e.seed snap).body =
      e.body ++ (e.sess.onSnapshot snap.bids snap.asks snap.lastUpdateId).callbacks.map fun x =>
        bookRow x.1.appliedTime 'D' x.2 := by
  have hfold : ∀ (cbs : List (DepthEvent × OrderBook)) (e : Emitter),
      (cbs.foldl (fun e x => e.emitBook x.1.appliedTime 'D' x.2) e).body =
        e.body ++ cbs.map fun x => bookRow x.1.appliedTime 'D' x.2 := by
    intro cbs
    induction cbs with
    | nil => simp
    | cons x cbs ih => simp [ih]
  exact hfold _ _

/-- A diff that has been applied leaves the session ready, so its row is written. -/
lemma body_takeDiff (ts : Timestamp) (ev : DepthEvent) (e : Emitter) :
    (e.takeDiff ts ev).1.body =
      e.body ++ (appliedBooks e.sess (.onDiff ev)).map fun x => bookRow ts 'D' x.2 := by
  simp only [takeDiff, appliedBooks]
  split_ifs with ho
  · rw [body_emitIfReady, if_neg]
    · rfl
    exact not_or_of_synced (synced_onDiff ho)
  · exact (List.append_nil _).symm

/-- **What an action writes.** -/
lemma body_act (e : Emitter) (a : Action) : (e.act a).body = e.body ++ e.written a := by
  cases a with
  | invalidate => exact (List.append_nil _).symm
  | diff ts ev => exact body_takeDiff ts ev e
  | snapshot snap => exact body_seed snap e
  | depth5 ts ev => exact body_emitDepth5 ts ev e
  | trade ts => exact body_emitIfReady ts 'T' e

/-- An action is at most one call of the session. -/
lemma sess_act (e : Emitter) (a : Action) :
    (e.act a).sess = match a.call with
      | some c => (BookSession.step e.sess c).1
      | none => e.sess := by
  cases a with
  | invalidate => rfl
  | diff ts ev => exact sess_takeDiff ts ev e
  | snapshot snap => exact sess_seed snap e
  | depth5 ts ev => rfl
  | trade ts => exact sess_emitIfReady ts 'T' e

lemma id_act (e : Emitter) (a : Action) : (e.act a).sess.ob.id = e.sess.ob.id := by
  rw [sess_act]
  cases a.call with
  | none => rfl
  | some c => exact id_step e.sess c

/-- The row that a depth5 event writes to the file of the symbol with this id. -/
def checkpoint (id : Int32) : Action → Option ObRow
  | .depth5 ts ev => some (depth5Row ts id ev)
  | _ => none

lemma written_checkpoint (e : Emitter) (a : Action) :
    (e.written a).filter (·.type = 'S') = (checkpoint e.sess.ob.id a).toList := by
  have hfilter : ∀ {β : Type} (f : β → ObRow) (l : List β), (∀ z, (f z).type ≠ 'S') →
      (l.map f).filter (·.type = 'S') = [] := by
    intro β f l hf
    rw [List.filter_eq_nil_iff]
    intro r hr
    obtain ⟨z, -, rfl⟩ := List.mem_map.mp hr
    simpa using hf z
  cases a with
  | invalidate => rfl
  | diff ts ev => exact hfilter _ _ fun _ => (by decide : 'D' ≠ 'S')
  | snapshot snap => exact hfilter _ _ fun _ => (by decide : 'D' ≠ 'S')
  | depth5 ts ev => rfl
  | trade ts =>
    simp only [written]
    split_ifs <;> rfl

/-- **The rows of depth5 events**, one for each of them. -/
lemma checkpoints_run (e : Emitter) (as : List Action) :
    (run step e as).1.body.filter (·.type = 'S') =
      e.body.filter (·.type = 'S') ++ as.filterMap (checkpoint e.sess.ob.id) := by
  induction as generalizing e with
  | nil => simp
  | cons a as ih =>
    rw [run_cons, ih, show (step e a).1 = e.act a from rfl, id_act, body_act, List.filter_append,
      written_checkpoint, List.append_assoc]
    cases hc : checkpoint e.sess.ob.id a with
    | none => rw [List.filterMap_cons_none hc]; rfl
    | some r => rw [List.filterMap_cons_some hc]; rfl

/-! ## Numbers -/

/-- The rows are numbered from one on, and the counter shows the last number. -/
def Numbered (e : Emitter) : Prop :=
  e.seq = .ofNat e.rows.length ∧
    e.rows.map ObRow.seqNo = (List.range e.rows.length).map fun i => .ofNat (i + 1)

lemma numbered_new (v : Venue) (symbol : Bytes) : (new v symbol).Numbered := ⟨rfl, rfl⟩

/-- All rows are written in this way. -/
lemma Numbered.concat {e : Emitter} (h : e.Numbered) {r : ObRow} (hr : r.seqNo = e.seq + 1) :
    Numbered { e with seq := e.seq + 1, rows := e.rows ++ [r] } := by
  have hseq : e.seq + 1 = .ofNat (e.rows.length + 1) := by
    rw [h.1, UInt64.ofNat_add]
    rfl
  constructor
  · simpa using hseq
  · simp only [List.map_append, List.length_append, List.length_singleton, List.range_succ, h.2]
    simp [hr, hseq]

lemma Numbered.emitBook {e : Emitter} (h : e.Numbered) (ts : Timestamp) (type : Char)
    (book : OrderBook) : (e.emitBook ts type book).Numbered := h.concat rfl

lemma Numbered.emitIfReady {e : Emitter} (h : e.Numbered) (ts : Timestamp) (type : Char) :
    (e.emitIfReady ts type).Numbered := by
  rw [Emitter.emitIfReady]
  split_ifs
  · exact h
  · exact h.emitBook ts type e.sess.ob

lemma Numbered.act {e : Emitter} (h : e.Numbered) (a : Action) : (e.act a).Numbered := by
  cases a with
  | invalidate => exact h
  | diff ts ev =>
    simp only [Emitter.act, takeDiff]
    split_ifs
    · exact Numbered.emitIfReady (e := { e with sess := (e.sess.onDiff ev).2 }) h ts 'D'
    · exact h
  | snapshot snap =>
    exact List.foldlRecOn (motive := Numbered) _ _ h fun e he x _ =>
      he.emitBook x.1.appliedTime 'D' x.2
  | depth5 ts ev => exact h.concat rfl
  | trade ts => exact h.emitIfReady ts 'T'

lemma numbered_run {e : Emitter} (h : e.Numbered) (as : List Action) :
    (run step e as).1.Numbered := run_invariant h (fun _ a h => h.act a) as

end Emitter

end LobCapture
