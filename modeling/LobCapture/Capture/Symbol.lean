/-
# One symbol of a live run

The state of a symbol is touched by the messages of the symbol only, so it goes through a run of
its own, and each of its messages is a few actions of its emitter.
-/
import LobCapture.Capture.Reproduction
import LobCapture.Capture.Sights

namespace LobCapture

open Lib BookSession

variable (parse : Bytes → Option DepthEvent) (cfg : Config) (y : Bytes)

/-- The handler gets past the market-data row of a message of the symbol. -/
def Handled (x : Frame × Message) : Prop :=
  x.2.symbol = y ∧ ¬ x.2.ParseFailed ∧ x.2.symbol ∈ cfg.symbols

instance handledDecidable (x : Frame × Message) : Decidable (Handled cfg y x) :=
  inferInstanceAs (Decidable (_ ∧ _))

/-- The messages of the symbol that are handled. -/
def handled (frames : List Frame) : List (Frame × Message) :=
  (entries parse cfg frames).filter (Handled cfg y)

/-- The state of the symbol before the first message. -/
def SymState.new : SymState := { toEmitter := .new cfg.venue y }

/-- The handler for a message of the symbol. -/
def SymState.step (st : SymState) (x : Frame × Message) : SymState × Fetch :=
  st.onMessage parse cfg x.1 x.2

/-- The run of one symbol. -/
abbrev symbolRun (st : SymState) (xs : List (Frame × Message)) :
    SymState × List ((Frame × Message) × Fetch) :=
  run (SymState.step parse cfg) st xs

/-- What follows a request for a snapshot. -/
def Fetch.actions : Fetch → List Action
  | .ok _ snap => [.snapshot snap]
  | _ => []

/-- The action of a message that comes with another connection. -/
def SymState.entering (st : SymState) (connEpoch : UInt64) : List Action :=
  if st.lastEpoch ≠ connEpoch ∧ st.lastEpoch ≠ noEpoch then [.invalidate] else []

/-- The actions in which a message is handled. -/
def SymState.actions (st : SymState) (x : Frame × Message) : List Action :=
  st.entering x.1.connEpoch ++
    match x.2.kind, x.2.event with
    | .depthDiff, some ev => .diff x.2.ts ev :: (st.step parse cfg x).2.actions
    | .depth5, some ev => [.depth5 x.2.ts ev]
    | .trade, _ => if cfg.integrateTrades then [.trade x.2.ts] else []
    | _, none => []

/-- The actions of a run, each labelled with its message. -/
def symbolActions (st : SymState) (xs : List (Frame × Message)) :
    List ((Frame × Message) × Action) :=
  outputs (SymState.step parse cfg) (fun st x => (st.actions parse cfg x).map fun a => (x, a)) st
    xs

variable {parse cfg y} {frames : List Frame} {st : SymState} {x : Frame × Message}

/-- The message of a frame, if it is handled and one of the symbol. -/
def pickHandled (parse : Bytes → Option DepthEvent) (cfg : Config) (y : Bytes) (fr : Frame) :
    Option (Frame × Message) :=
  ((fr.message parse cfg).map fun m => (fr, m)).filter (Handled cfg y)

lemma filterMap_pickHandled : frames.filterMap (pickHandled parse cfg y) =
    handled parse cfg y frames := by
  rw [handled, entries, List.filter_filterMap]
  rfl

lemma pickHandled_eq_some {fr : Frame} (h : pickHandled parse cfg y fr = some x) :
    x.1 = fr ∧ fr.message parse cfg = some x.2 ∧ Handled cfg y x := by
  obtain ⟨hm, hh⟩ := Option.filter_eq_some_iff.mp h
  obtain ⟨m, hmessage, rfl⟩ := Option.map_eq_some_iff.mp hm
  exact ⟨rfl, hmessage, by simpa using hh⟩

lemma part_sym :
    Part (handler parse cfg) (SymState.step parse cfg) (fun s => s.sym y)
      (pickHandled parse cfg y) where
  frame s fr hfr := by
    cases hm : fr.message parse cfg with
    | none => simp only [handler, hm]
    | some m =>
      have hn : ¬ Handled cfg y (fr, m) := fun hh => by simp [pickHandled, hm, hh] at hfr
      simp only [handler, hm]
      exact (Shard.sym_take s (fr, m)).trans (if_neg hn)
  own s fr x hx := by
    obtain ⟨rfl, hm, hh⟩ := pickHandled_eq_some hx
    simp only [handler, hm]
    exact (Shard.sym_take s x).trans (if_pos hh)

/-- **The state of a symbol after a live run** is that after a run over its own messages. -/
lemma sym_runShard :
    (runShard parse cfg frames).1.sym y =
      (symbolRun parse cfg (.new cfg y) (handled parse cfg y frames)).1 := by
  rw [← filterMap_pickHandled]
  exact part_sym.run_eq (.new cfg) frames

/-- What became of the requests of the symbol in a live run. -/
lemma fetches_runShard :
    ((runShard parse cfg frames).2.filterMap fun x =>
        (pickHandled parse cfg y x.1).map fun z => (z, (x.2.map Prod.snd).getD .none)) =
      (symbolRun parse cfg (.new cfg y) (handled parse cfg y frames)).2 := by
  rw [← filterMap_pickHandled]
  have got (s : Shard) (fr : Frame) (x : Frame × Message)
      (hx : pickHandled parse cfg y fr = some x) :
      ((handler parse cfg s fr).2.map Prod.snd).getD Fetch.none =
        ((s.sym y).step parse cfg x).2 := by
    obtain ⟨rfl, hm, hh⟩ := pickHandled_eq_some hx
    obtain ⟨rfl, hok, hsub⟩ := hh
    simp only [handler, hm, Option.map_some, Option.getD_some, Shard.fetch_take]
    exact if_pos ⟨hok, hsub⟩
  exact Part.history (g := fun o : Option (Bytes × Fetch) => (o.map Prod.snd).getD .none)
    part_sym got (.new cfg) frames

/-- Entering an epoch is at most one action. -/
lemma enterEpoch_actions (st : SymState) (n : UInt64) :
    (st.enterEpoch n).toEmitter = (run Emitter.step st.toEmitter (st.entering n)).1 := by
  rw [SymState.entering]
  by_cases h : st.lastEpoch = n
  · simp [SymState.enterEpoch, h]
  by_cases hno : st.lastEpoch = .ofNat (UInt64.size - 1)
  · rw [SymState.enterEpoch, if_pos h, if_neg (not_not.mpr hno), if_neg fun hn => hn.2 hno]
    rfl
  · rw [SymState.enterEpoch, if_pos h, if_pos hno, if_pos ⟨h, hno⟩]
    rfl

/-- **A message is handled in its actions.** -/
lemma step_actions (st : SymState) (x : Frame × Message) :
    (st.step parse cfg x).1.toEmitter =
      (run Emitter.step st.toEmitter (st.actions parse cfg x)).1 := by
  rw [SymState.actions, run_append, ← enterEpoch_actions]
  have hresync : ∀ (st : SymState) (response : Option Bytes),
      (st.resync parse response).1.toEmitter =
        (run Emitter.step st.toEmitter (st.resync parse response).2.actions).1 := by
    intro st response
    cases response with
    | none => rfl
    | some raw =>
      cases hp : parse raw <;> simp only [SymState.resync, hp] <;> rfl
  simp only [SymState.step, SymState.onMessage]
  cases x.2.kind with
  | depthDiff =>
    cases x.2.event with
    | none => rfl
    | some ev =>
      dsimp only
      split_ifs
      · exact hresync _ _
      · rfl
  | depth5 =>
    cases x.2.event <;> rfl
  | trade =>
    dsimp only
    split_ifs <;> rfl

/-! ## The actions of a run -/

/-- What the messages of the symbol look like. -/
lemma of_mem_handled (hx : x ∈ handled parse cfg y frames) :
    x.2.symbol = y ∧ ¬ x.2.ParseFailed ∧ x.2.Stamped parse := by
  obtain ⟨hmem, hh⟩ := List.mem_filter.mp hx
  obtain ⟨hsym, hok, hsub⟩ : Handled cfg y x := by simpa using hh
  exact ⟨hsym, hok, stamped_message (mem_entries hmem).2 hsub⟩

/-- A parsed event carries the time of its message. -/
lemma Message.Stamped.appliedTime {m : Message} (h : m.Stamped parse) (hk : m.kind ≠ .trade)
    {ev : DepthEvent} (hev : m.event = some ev) : ev.appliedTime = m.ts := by
  rw [h hk] at hev
  obtain ⟨e, -, rfl⟩ := Option.map_eq_some_iff.mp hev
  rfl

lemma labelled_actions (st : SymState) (x : Frame × Message) :
    ((st.actions parse cfg x).map fun a => (x, a)).map Prod.snd = st.actions parse cfg x := by
  rw [List.map_map]
  exact List.map_id _

/-- The emitter of a symbol goes through the actions of its messages. -/
lemma symbolRun_toEmitter (st : SymState) (xs : List (Frame × Message)) :
    (symbolRun parse cfg st xs).1.toEmitter =
      (run Emitter.track (st.toEmitter, {}) (symbolActions parse cfg st xs)).1.1 := by
  refine (outputs_induction (R := fun _ (st : SymState) (t : Emitter × _) => st.toEmitter = t.1)
    (Q := fun _ => True) (fun x _ st t hR => ⟨?_, by simp⟩) rfl).1
  rw [Emitter.run_track, labelled_actions, ← hR]
  exact step_actions st x

/-- The action that a message is about, apart from what a reconnect or a snapshot needs. -/
def mainAction (cfg : Config) (x : Frame × Message) : Option Action :=
  match x.2.kind, x.2.event with
  | .depthDiff, some ev => some (.diff x.2.ts ev)
  | .depth5, some ev => some (.depth5 x.2.ts ev)
  | .trade, _ => if cfg.integrateTrades then some (.trade x.2.ts) else none
  | _, none => none

/-- What is made of the actions, when reconnects and snapshots give nothing. -/
lemma flatMap_symbolActions {β : Type*} {f : (Frame × Message) × Action → List β}
    (hinvalidate : ∀ x, f (x, .invalidate) = []) (hsnapshot : ∀ x snap, f (x, .snapshot snap) = [])
    (st : SymState) (xs : List (Frame × Message)) :
    (symbolActions parse cfg st xs).flatMap f =
      xs.flatMap fun x => (mainAction cfg x).toList.flatMap fun a => f (x, a) := by
  refine flatMap_outputs (fun x _ st => ?_) st
  have hfetch : ∀ r : Fetch, (r.actions.map fun a => (x, a)).flatMap f = [] := by
    intro r
    cases r with
    | none => rfl
    | failed => rfl
    | ok raw snap => simp [Fetch.actions, hsnapshot]
  have henter : ((st.entering x.1.connEpoch).map fun a => (x, a)).flatMap f = [] := by
    rw [SymState.entering]
    split_ifs <;> simp [hinvalidate]
  rw [SymState.actions, List.map_append, List.flatMap_append, henter, List.nil_append, mainAction]
  cases x.2.kind with
  | depthDiff =>
    cases x.2.event with
    | none => rfl
    | some ev =>
      dsimp only
      rw [List.map_cons, List.flatMap_cons, hfetch]
      rfl
  | depth5 => cases x.2.event <;> rfl
  | trade =>
    dsimp only
    split_ifs <;> rfl

/-- The diffs of a run are those of its messages. -/
lemma diffs_symbolActions (st : SymState) {xs : List (Frame × Message)}
    (hxs : ∀ x ∈ xs, ¬ x.2.ParseFailed) :
    ((symbolActions parse cfg st xs).flatMap Emitter.labelledDiff).map Prod.fst =
      xs.filter (·.2.kind = .depthDiff) := by
  rw [flatMap_symbolActions (fun _ => rfl) (fun _ _ => rfl)]
  induction xs with
  | nil => rfl
  | cons x xs ih =>
    have hok := hxs x List.mem_cons_self
    rw [List.flatMap_cons, List.map_append, ih fun z hz => hxs z (List.mem_cons_of_mem _ hz)]
    cases hk : x.2.kind with
    | depthDiff =>
      cases hev : x.2.event with
      | none => exact absurd ⟨.inl hk, hev⟩ hok
      | some ev => simp [mainAction, hk, hev, Emitter.labelledDiff]
    | depth5 => cases hev : x.2.event <;> simp [mainAction, hk, hev, Emitter.labelledDiff]
    | trade => by_cases ht : cfg.integrateTrades <;> simp [mainAction, hk, ht, Emitter.labelledDiff]

end LobCapture
