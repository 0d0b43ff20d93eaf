/-
# A capture over several shards

`main` spreads the symbols over shards, and each of them runs on its own connection.  The shards
share nothing but the metrics, so a capture is a run over the frames of all shards in any order.
The order-book file of a symbol is written by the shard that has the symbol, and its rows are
those of a capture of the symbol alone.
-/
import LobCapture.Capture.Buffers
import LobCapture.Capture.Symbol

namespace LobCapture

open Lib

/-! ## Symbols and shards -/

/-- The number of shards, in `shard_symbols`. -/
def shardCount (symbols : List Bytes) (shards : ℤ) : ℕ :=
  let shards := if shards < 1 then 1 else shards
  if shards.toNat > symbols.length then (if symbols = [] then 1 else symbols.length)
  else shards.toNat

/-- `shard_symbols`. -/
def shardSymbols (symbols : List Bytes) (shards : ℤ) : List (List Bytes) :=
  symbols.zipIdx.foldl
    (fun out x => out.modify (x.2 % shardCount symbols shards) (· ++ [x.1]))
    (List.replicate (shardCount symbols shards) [])

/-- The shards that have a symbol. -/
def owners (groups : List (List Bytes)) (y : Bytes) : List ℕ :=
  (List.range groups.length).filter fun i => (groups.getD i []).contains y

section Groups

variable {symbols : List Bytes} {shards : ℤ} {y : Bytes}

lemma shardCount_pos (symbols : List Bytes) (shards : ℤ) : 0 < shardCount symbols shards := by
  simp only [shardCount]
  split_ifs with h1 h2 h3 h4 h5
  all_goals try omega
  · exact List.length_pos_iff.mpr h3
  · exact List.length_pos_iff.mpr h5

lemma getElem?_foldl_modify (n : ℕ) (xs : List (Bytes × ℕ)) (out : List (List Bytes)) (i : ℕ) :
    (xs.foldl (fun out x => out.modify (x.2 % n) (· ++ [x.1])) out)[i]? =
      out[i]?.map (· ++ (xs.filter (·.2 % n = i)).map Prod.fst) := by
  induction xs generalizing out with
  | nil => simp
  | cons x xs ih =>
    rw [List.foldl_cons, ih, List.getElem?_modify]
    by_cases hi : x.2 % n = i
    · simp [hi, Function.comp_def]
    · simp [hi]

/-- The symbols go round the shards. -/
lemma getElem?_shardSymbols (i : ℕ) :
    (shardSymbols symbols shards)[i]? =
      if i < shardCount symbols shards then
        some ((symbols.zipIdx.filter (·.2 % shardCount symbols shards = i)).map Prod.fst)
      else none := by
  rw [shardSymbols, getElem?_foldl_modify, List.getElem?_replicate]
  split_ifs <;> simp

lemma mem_owners {groups : List (List Bytes)} {i : ℕ} :
    i ∈ owners groups y ↔ ∃ group, groups[i]? = some group ∧ y ∈ group := by
  rw [owners, List.mem_filter, List.mem_range, List.getD_eq_getElem?_getD, List.contains_iff_mem]
  constructor
  · rintro ⟨hi, hy⟩
    rw [List.getElem?_eq_getElem hi] at hy ⊢
    exact ⟨_, rfl, hy⟩
  · rintro ⟨group, hgroup, hy⟩
    rw [hgroup]
    exact ⟨(List.getElem?_eq_some_iff.mp hgroup).1, hy⟩

lemma mem_owners_shardSymbols {i : ℕ} :
    i ∈ owners (shardSymbols symbols shards) y ↔
      ∃ j, symbols[j]? = some y ∧ j % shardCount symbols shards = i := by
  rw [mem_owners, getElem?_shardSymbols]
  constructor
  · rintro ⟨group, hgroup, hy⟩
    split_ifs at hgroup
    obtain rfl := Option.some.inj hgroup
    obtain ⟨⟨x, j⟩, hmem, rfl⟩ := List.mem_map.mp hy
    obtain ⟨hj, hi⟩ := List.mem_filter.mp hmem
    exact ⟨j, List.mem_zipIdx_iff_getElem?.mp hj, by simpa using hi⟩
  · rintro ⟨j, hj, rfl⟩
    rw [if_pos (Nat.mod_lt j (shardCount_pos symbols shards))]
    refine ⟨_, rfl, List.mem_map.mpr ⟨(y, j), List.mem_filter.mpr ⟨?_, by simp⟩, rfl⟩⟩
    exact List.mem_zipIdx_iff_getElem?.mpr hj

/-- **Every symbol has one shard.** -/
lemma owners_shardSymbols (h : symbols.Nodup) (hy : y ∈ symbols) :
    ∃ i, owners (shardSymbols symbols shards) y = [i] := by
  obtain ⟨j, hj⟩ := List.mem_iff_getElem?.mp hy
  refine ⟨j % shardCount symbols shards, List.perm_singleton.mp ?_⟩
  refine (List.perm_ext_iff_of_nodup (List.nodup_range.filter _)
    (List.nodup_singleton _)).mpr fun i => mem_owners_shardSymbols.trans ?_
  rw [List.mem_singleton]
  constructor
  · rintro ⟨k, hk, rfl⟩
    -- the symbols are distinct
    rw [(List.getElem?_inj (List.getElem?_eq_some_iff.mp hk).1 h).mp (hk.trans hj.symm)]
  · rintro rfl
    exact ⟨j, hj, rfl⟩

end Groups

/-! ## The capture -/

/-- The settings of a shard. -/
def shardConfig (cfg : Config) (group : List Bytes) (i : ℕ) : Config :=
  { cfg with symbols := group, shardId := .ofNat i }

section Capture

variable (parser : Parser) (cfg : Config) (groups : List (List Bytes))

/-- A frame of one of the shards. -/
def captureStep (s : ℕ → BufferedShard) (x : ℕ × Frame) :
    (ℕ → BufferedShard) × Option (Bytes × Fetch) :=
  match groups[x.1]? with
  | none => (s, none)
  | some group =>
    if group = [] then (s, none)
    else
      let (shard, r) := handlerInPlace parser (shardConfig cfg group x.1) (s x.1) x.2
      (fun i => if i = x.1 then shard else s i, r)

/-- The shards before the first frame. -/
def captureNew (i : ℕ) : BufferedShard :=
  { toShard := .new (shardConfig cfg (groups.getD i []) i) }

end Capture

/-- The shards after a capture, with the frames of all of them in the order in which they are
handled. -/
def runCapture (parser : Parser) (cfg : Config) (shards : ℤ) (inputs : List (ℕ × Frame)) :
    ℕ → BufferedShard :=
  let groups := shardSymbols cfg.symbols shards
  (run (captureStep parser cfg groups) (captureNew cfg groups) inputs).1

/-- The rows of a symbol's order-book file. -/
def captureRows (parser : Parser) (cfg : Config) (shards : ℤ) (inputs : List (ℕ × Frame))
    (y : Bytes) : List ObRow :=
  (owners (shardSymbols cfg.symbols shards) y).flatMap fun i =>
    ((runCapture parser cfg shards inputs i).sym y).rows

/-- The symbol that the handler reads from a frame. -/
def Frame.symbol (fr : Frame) : Option Bytes :=
  (splitEnvelope fr.text).map fun x => streamSymbol x.1

/-- The frames of a symbol that come to its shard. -/
def ownFrames (cfg : Config) (shards : ℤ) (y : Bytes) (inputs : List (ℕ × Frame)) : List Frame :=
  inputs.filterMap fun x =>
    if x.1 ∈ owners (shardSymbols cfg.symbols shards) y ∧ x.2.symbol = some y then some x.2
    else none

/-! ## The part of a symbol -/

section Symbol

variable {parser : Parser} {cfg cfg' : Config} {shards : ℤ} {y : Bytes}

lemma part_inPlace :
    Part (handlerInPlace parser cfg) (handler parser.fresh cfg) BufferedShard.toShard some where
  frame _ _ h := absurd h (Option.some_ne_none _)
  own s fr fr' h := by
    obtain rfl := Option.some.inj h
    exact (handlerInPlace_eq s fr).1

lemma part_shard {groups : List (List Bytes)} {i : ℕ} {group : List Bytes}
    (hi : groups[i]? = some group) (hne : group ≠ []) :
    Part (captureStep parser cfg groups) (handlerInPlace parser (shardConfig cfg group i))
      (fun s => s i) fun x => if x.1 = i then some x.2 else none where
  frame s x hx := by
    have hne : i ≠ x.1 := fun h => by simp [h] at hx
    rw [captureStep]
    cases groups[x.1]? with
    | none => rfl
    | some group =>
      dsimp only
      split_ifs
      · rfl
      · exact if_neg hne
  own s x fr hx := by
    obtain ⟨j, fr'⟩ := x
    obtain ⟨rfl, rfl⟩ : j = i ∧ fr' = fr := by simpa using hx
    simp only [captureStep, hi, if_neg hne, if_true]

/-- Two captures with the same settings, apart from the symbols. -/
structure SameSettings (cfg cfg' : Config) : Prop where
  venue : cfg.venue = cfg'.venue
  timePolicy : cfg.timePolicy = cfg'.timePolicy
  integrateTrades : cfg.integrateTrades = cfg'.integrateTrades

lemma symbol_message {parse : Bytes → Option DepthEvent} (fr : Frame) :
    (fr.message parse cfg).map (·.symbol) = fr.symbol := by
  rw [Frame.message, Frame.symbol, Option.map_map]
  refine Option.map_congr fun x _ => ?_
  dsimp only [Function.comp_apply]
  split
  · cases parse x.2 <;> rfl
  · rfl

/-- Which messages of a symbol are handled, and as what, depends on the settings only. -/
lemma pickHandled_congr {parse : Bytes → Option DepthEvent} (h : SameSettings cfg cfg')
    (hy : y ∈ cfg.symbols) (hy' : y ∈ cfg'.symbols) (fr : Frame) :
    pickHandled parse cfg y fr =
      (if fr.symbol = some y then some fr else none).bind (pickHandled parse cfg' y) := by
  split_ifs with hfr
  · -- the message is the same, and so is what is asked of it
    obtain ⟨x, hx, hsymbol⟩ := Option.map_eq_some_iff.mp hfr
    have hm : fr.message parse cfg = fr.message parse cfg' := by
      simp only [Frame.message, hx, Option.map_some, hsymbol, hy, hy', and_true, h.timePolicy]
    have hsym := @symbol_message cfg' parse fr
    rw [Option.bind_some, pickHandled, pickHandled, hm]
    cases hmessage : fr.message parse cfg' with
    | none => rfl
    | some m =>
      obtain rfl : m.symbol = y := by simpa [hmessage, hfr] using hsym
      simp only [Option.map_some, Option.filter, Handled, hy, hy']
  · rw [Option.bind_none, Option.eq_none_iff_forall_ne_some]
    intro x hx
    obtain ⟨rfl, hm, rfl, -⟩ := pickHandled_eq_some hx
    exact hfr (by rw [← @symbol_message cfg parse, hm]; rfl)

/-- The messages of a symbol that are handled in its shard. -/
lemma filterMap_pickHandled_inputs {parse : Bytes → Option DepthEvent} {i : ℕ}
    {group : List Bytes} (h : SameSettings cfg cfg')
    (howners : owners (shardSymbols cfg.symbols shards) y = [i]) (hmem : y ∈ group)
    (hy' : y ∈ cfg'.symbols) (inputs : List (ℕ × Frame)) :
    (inputs.filterMap fun x => ((if x.1 = i then some x.2 else none).bind some).bind
        (pickHandled parse (shardConfig cfg group i) y)) =
      handled parse cfg' y (ownFrames cfg shards y inputs) := by
  have hsame : SameSettings (shardConfig cfg group i) cfg' := ⟨h.1, h.2, h.3⟩
  rw [← filterMap_pickHandled, ownFrames, List.filterMap_filterMap]
  refine List.filterMap_congr fun x _ => ?_
  simp only [howners, List.mem_singleton]
  by_cases hi : x.1 = i
  · simpa [hi] using pickHandled_congr hsame hmem hy' x.2
  · simp [hi]

/-- The rows of a symbol are those of a run over its own frames. -/
lemma captureRows_eq (h : SameSettings cfg cfg') (hcfg : cfg.symbols.Nodup)
    (hy : y ∈ cfg.symbols) (hy' : y ∈ cfg'.symbols) (inputs : List (ℕ × Frame)) :
    captureRows parser cfg shards inputs y =
      (symbolRun parser.fresh cfg' (.new cfg' y)
        (handled parser.fresh cfg' y (ownFrames cfg shards y inputs))).1.rows := by
  obtain ⟨i, howners⟩ := @owners_shardSymbols cfg.symbols shards y hcfg hy
  have hi : i ∈ owners (shardSymbols cfg.symbols shards) y := by simp [howners]
  obtain ⟨group, hgroup, hmem⟩ := mem_owners.mp hi
  have hpart := ((@part_shard parser cfg _ _ _ hgroup
    (List.ne_nil_of_mem hmem)).trans part_inPlace).trans (@part_sym parser.fresh _ y)
  have hstate := hpart.run_eq (captureNew cfg (shardSymbols cfg.symbols shards)) inputs
  have hstep : SymState.step parser.fresh (shardConfig cfg group i) =
      SymState.step parser.fresh cfg' := by
    funext st x
    simp only [SymState.step, SymState.onMessage, shardConfig, h.integrateTrades]
  have hnew : (captureNew cfg (shardSymbols cfg.symbols shards) i).sym y = .new cfg' y := by
    simp only [captureNew, Shard.new, SymState.new, shardConfig, h.venue]
  rw [filterMap_pickHandled_inputs h howners hmem hy', hnew, hstep] at hstate
  rw [captureRows, howners, List.flatMap_singleton]
  exact congrArg (fun st : SymState => st.rows) hstate

/-- A capture of the symbol alone has one shard. -/
lemma owners_alone (y : Bytes) : owners (shardSymbols [y] 1) y = [0] := by
  have hgroups : shardSymbols [y] 1 = [[y]] := rfl
  rw [hgroups]
  simp [owners]

lemma ownFrames_alone (inputs : List (ℕ × Frame)) :
    ownFrames { cfg with symbols := [y] } 1 y
        ((ownFrames cfg shards y inputs).map fun fr => (0, fr)) =
      ownFrames cfg shards y inputs := by
  have hown : ∀ fr ∈ ownFrames cfg shards y inputs, fr.symbol = some y := by
    intro fr hfr
    obtain ⟨x, -, hx⟩ := List.mem_filterMap.mp hfr
    split_ifs at hx with h
    obtain rfl := Option.some.inj hx
    exact h.2
  rw [ownFrames, List.filterMap_map]
  refine (List.filterMap_congr fun fr hfr => ?_).trans List.filterMap_some
  simp [owners_alone, hown fr hfr]

end Symbol

/-! ## Result -/

variable {cfg cfg' : Config} {y : Bytes}

/-- **Symbols are isolated.** The rows of a symbol are those of a capture that has no other symbol
and no other frames, and they are the same in all captures with the same settings in which the
same frames of the symbol come to its shard. -/
theorem captureRows_isolated (parser : Parser) (shards : ℤ) (inputs : List (ℕ × Frame))
    (hcfg : cfg.symbols.Nodup) (hy : y ∈ cfg.symbols) :
    captureRows parser cfg shards inputs y =
        captureRows parser { cfg with symbols := [y] } 1
          ((ownFrames cfg shards y inputs).map fun fr => (0, fr)) y ∧
      ∀ (cfg' : Config) (shards' : ℤ) (inputs' : List (ℕ × Frame)), SameSettings cfg cfg' →
        cfg'.symbols.Nodup → y ∈ cfg'.symbols →
        ownFrames cfg' shards' y inputs' = ownFrames cfg shards y inputs →
        captureRows parser cfg' shards' inputs' y = captureRows parser cfg shards inputs y := by
  have hrefl : SameSettings cfg cfg := ⟨rfl, rfl, rfl⟩
  constructor
  · have halone : SameSettings { cfg with symbols := [y] } cfg := ⟨rfl, rfl, rfl⟩
    rw [captureRows_eq hrefl hcfg hy hy,
      captureRows_eq halone (List.nodup_singleton y) (List.mem_singleton_self y) hy,
      ownFrames_alone]
  · intro cfg' shards' inputs' h hcfg' hy' hown
    have h' : SameSettings cfg' cfg := ⟨h.1.symm, h.2.symm, h.3.symm⟩
    rw [captureRows_eq h' hcfg' hy' hy, captureRows_eq hrefl hcfg hy hy, hown]

/-- The two diffs of `seededRun`, among the frames of another shard and a frame that cannot be
read. -/
def mixedInputs : List (ℕ × Frame) :=
  let other : Frame := { diffFrame 5 "\"U\":9,\"u\":9" none with
    text := lit "\x7b\"stream\":\"b@depth\",\"data\":\x7b\"u\":9\x7d\x7d" }
  let malformed : Frame := { diffFrame 6 "" none with text := lit "\x7b\"stream\":\"a@depth" }
  (1, other) :: seededRun.flatMap fun fr => [(0, fr), (0, malformed), (1, other)]

theorem captureRows_isolated_mixed :
    let rows := captureRows parseDepthInto { oneSymbol with symbols := [lit "A", lit "B"] } 2
      mixedInputs (lit "A")
    rows ≠ [] ∧
      rows = captureRows parseDepthInto { oneSymbol with symbols := [lit "A"] } 1
        (seededRun.map fun fr => (0, fr)) (lit "A") := by
  refine ⟨by decide +kernel, ?_⟩
  exact (@captureRows_isolated { oneSymbol with symbols := [lit "A", lit "B"] } (lit "A")
    parseDepthInto 2 mixedInputs (by decide +kernel) (by decide +kernel)).1

end LobCapture
