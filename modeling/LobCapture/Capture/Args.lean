/-
# The command line

`from_args` in `config.cpp` reads the options, and checks that no shard needs more streams than a
connection may have.  The check computes the size of the largest shard with a division, while
`shard_symbols` deals the symbols out one by one; both come to the same.
-/
import LobCapture.Capture.Shards
import LobCapture.Capture.Streams
import Mathlib.Data.Int.CardIntervalMod

namespace LobCapture

open Lib

/-! ## Options -/

def kStreamsPerSymbol : ℕ := 3
def kMaxCombinedStreams : ℕ := 1024

/-- All of `Config`. -/
structure Options extends Config where
  venue := .spot
  symbols := []
  timePolicy := .recvWallClock
  integrateTrades := false
  shardId := 0
  outputDir : Bytes := lit "./output"
  /-- `0` to run until the process is stopped -/
  durationS : Int32 := 0
  /-- write the CSV files inline -/
  syncWrites : Bool := false
  /-- the number of connections -/
  shards : Int32 := 1
  /-- empty in live mode -/
  replayInput : Bytes := []

/-- `split_csv`. -/
def splitCsv (s : Bytes) : List Bytes := (s.splitOn comma).filter (· ≠ [])

/-- The options with a value. -/
def valueOptions : List Bytes :=
  [lit "--venue", lit "--symbols", lit "--output-dir", lit "--duration", lit "--shard-id",
    lit "--shards", lit "--time-policy", lit "--replay"]

/-- The option `a` with the value `v`, or what is returned with an error. -/
def Options.setValue (c : Options) (a v : Bytes) : Except (Options × Bytes) Options :=
  if a = lit "--venue" then
    if v = lit "spot" then .ok { c with venue := .spot }
    else if v = lit "usdm" then .ok { c with venue := .usdm }
    else .error (c, lit "invalid --venue")
  else if a = lit "--symbols" then .ok { c with symbols := (splitCsv v).map (·.map toUpper) }
  else if a = lit "--output-dir" then .ok { c with outputDir := v }
  else if a = lit "--duration" then .ok { c with durationS := atoi v }
  else if a = lit "--shard-id" then .ok { c with shardId := atoi v }
  else if a = lit "--shards" then .ok { c with shards := if atoi v < 1 then 1 else atoi v }
  else if a = lit "--time-policy" then
    .ok { c with timePolicy := if v = lit "event" then .binanceEventTime else .recvWallClock }
  else .ok { c with replayInput := v }

/-- The option `a` without a value. -/
def Options.setFlag (c : Options) (a : Bytes) : Except (Options × Bytes) Options :=
  if a = lit "--integrate-trades" then .ok { c with integrateTrades := true }
  else if a = lit "--sync-writes" then .ok { c with syncWrites := true }
  else if a = lit "--help" ∨ a = lit "-h" then .error (c, lit "help")
  else .error (c, lit "unknown argument: " ++ a)

/-- The loop over the arguments. -/
def fromArgs.loop : List Bytes → Options → Except (Options × Bytes) Options
  | [], c => .ok c
  | [a], c =>
    if valueOptions.contains a then .error (c, lit "missing value for " ++ a) else c.setFlag a
  | a :: v :: args, c =>
    if valueOptions.contains a then
      match c.setValue a v with
      | .error e => .error e
      | .ok c => fromArgs.loop args c
    else
      match c.setFlag a with
      | .error e => .error e
      | .ok c => fromArgs.loop (v :: args) c

/-- The symbols without those that occurred before. -/
def uniq (symbols : List Bytes) : List Bytes :=
  symbols.foldl (fun uniq sy => if uniq.contains sy then uniq else uniq ++ [sy]) []

def tooManySymbols : Bytes :=
  lit "too many symbols per shard: Binance permits at most " ++ decimal kMaxCombinedStreams ++
    lit " combined streams per connection; increase --shards"

/-- The checks after the loop.  The last case would be a division by zero. -/
def Options.check (c : Options) : Option (Options × Bytes) :=
  let c := { c with symbols := uniq c.symbols }
  let err :=
    if c.replayInput = [] ∧ c.symbols = [] then
      lit "at least one --symbols required (or use --replay)"
    else []
  if err = [] ∧ c.replayInput = [] then
    let shardCount := min c.symbols.length (c.shards.toInt % 2 ^ 64).toNat
    if shardCount ≠ 0 then
      let maxSymbolsPerShard := (c.symbols.length + shardCount - 1) / shardCount
      if maxSymbolsPerShard * kStreamsPerSymbol > kMaxCombinedStreams then some (c, tooManySymbols)
      else some (c, err)
    else none
  else some (c, err)

/-- `from_args`: the options and the error, which is empty if there is none. -/
def fromArgs (args : List Bytes) : Option (Options × Bytes) :=
  match fromArgs.loop args {} with
  | .error e => some e
  | .ok c => c.check

/-- Two symbols, one of them twice. -/
example :
    (fromArgs [lit "--symbols", lit "btcusdt,,ETHUSDT,BTCUSDT", lit "--shards", lit "0"]).map
      (fun r => (r.1.symbols, r.1.shards, r.2)) =
      some ([lit "BTCUSDT", lit "ETHUSDT"], 1, []) := by
  decide

/-! ## Groups -/

/-- The symbols are spread evenly over `n` groups. -/
structure SpreadOver (symbols : List Bytes) (n : ℕ) (groups : List (List Bytes)) : Prop where
  length_eq : groups.length = n
  ne_nil : ∀ g ∈ groups, g ≠ []
  perm : groups.flatten.Perm symbols
  /-- every group keeps the order -/
  sublist : ∀ g ∈ groups, g.Sublist symbols
  balanced : ∀ g ∈ groups, ∀ g' ∈ groups, g.length ≤ g'.length + 1

section Groups

variable {symbols : List Bytes} {shards : ℤ}

lemma length_shardSymbols : (shardSymbols symbols shards).length = shardCount symbols shards := by
  refine eq_of_forall_ge_iff fun i => ?_
  rw [← List.getElem?_eq_none_iff, getElem?_shardSymbols]
  split_ifs with hi
  · simp [hi]
  · simp [not_lt.mp hi]

lemma mem_shardSymbols {g : List Bytes} :
    g ∈ shardSymbols symbols shards ↔
      ∃ i < shardCount symbols shards,
        g = (symbols.zipIdx.filter (·.2 % shardCount symbols shards = i)).map Prod.fst := by
  rw [List.mem_iff_getElem?]
  constructor
  · rintro ⟨i, hi⟩
    rw [getElem?_shardSymbols] at hi
    split_ifs at hi with hlt
    exact ⟨i, hlt, (Option.some.inj hi).symm⟩
  · rintro ⟨i, hlt, rfl⟩
    exact ⟨i, by rw [getElem?_shardSymbols, if_pos hlt]⟩

/-- A group keeps the order. -/
lemma sublist_of_mem_shardSymbols {g : List Bytes} (h : g ∈ shardSymbols symbols shards) :
    g.Sublist symbols := by
  obtain ⟨i, -, rfl⟩ := mem_shardSymbols.mp h
  conv_rhs => rw [← List.zipIdx_map_fst 0 symbols]
  exact List.filter_sublist.map Prod.fst

lemma mem_flatten_shardSymbols {y : Bytes} :
    y ∈ (shardSymbols symbols shards).flatten ↔ y ∈ symbols := by
  rw [List.mem_flatten]
  constructor
  · rintro ⟨g, hg, hy⟩
    exact (sublist_of_mem_shardSymbols hg).subset hy
  · intro hy
    obtain ⟨j, hj⟩ := List.mem_iff_getElem?.mp hy
    obtain ⟨g, hg, hyg⟩ := mem_owners.mp (mem_owners_shardSymbols.mpr
      ⟨j, hj, rfl⟩)
    exact ⟨g, List.mem_of_getElem? hg, hyg⟩

/-- The size of a group: what everyone gets, and one more for the first groups. -/
lemma length_group {m i : ℕ} (hi : i < m) :
    ((symbols.zipIdx.filter (·.2 % m = i)).map Prod.fst).length =
      symbols.length / m + if i < symbols.length % m then 1 else 0 := by
  have hcount : ((symbols.zipIdx.filter (·.2 % m = i)).map Prod.fst).length =
      symbols.length.count (· ≡ i [MOD m]) := by
    have hindex : List.range symbols.length = symbols.zipIdx.map Prod.snd := by
      rw [List.zipIdx_map_snd, List.range_eq_range']
    rw [List.length_map, ← List.countP_eq_length_filter, Nat.count, hindex, List.countP_map]
    refine List.countP_congr fun x _ => ?_
    simp [Nat.ModEq, Nat.mod_eq_of_lt hi]
  rw [hcount, Nat.count_modEq_card _ (by omega), Nat.mod_eq_of_lt hi]

lemma shardCount_eq_min (h : symbols ≠ []) (hshards : 1 ≤ shards) :
    shardCount symbols shards = min shards.toNat symbols.length := by
  simp only [shardCount, if_neg (not_lt.mpr hshards), if_neg h]
  split_ifs <;> omega

/-- **The groups.** -/
lemma spreadOver_shardSymbols (hnodup : symbols.Nodup) (h : symbols ≠ []) (hshards : 1 ≤ shards) :
    SpreadOver symbols (min shards.toNat symbols.length) (shardSymbols symbols shards) := by
  have hpos := shardCount_pos symbols shards
  have hmin := shardCount_eq_min h hshards
  constructor
  case length_eq => rw [length_shardSymbols, hmin]
  case ne_nil =>
    intro g hg
    obtain ⟨i, hi, rfl⟩ := mem_shardSymbols.mp hg
    have hle : 1 ≤ symbols.length / shardCount symbols shards :=
      (Nat.one_le_div_iff hpos).mpr (by omega)
    rw [← List.length_pos_iff, length_group hi]
    omega
  case sublist => exact fun g hg => sublist_of_mem_shardSymbols hg
  case balanced =>
    intro g hg g' hg'
    obtain ⟨i, hi, rfl⟩ := mem_shardSymbols.mp hg
    obtain ⟨j, hj, rfl⟩ := mem_shardSymbols.mp hg'
    rw [length_group hi, length_group hj]
    split_ifs <;> omega
  case perm =>
    refine (List.perm_ext_iff_of_nodup ?_ hnodup).mpr fun y => mem_flatten_shardSymbols
    -- a symbol has one group, and is there once
    rw [List.nodup_flatten]
    refine ⟨fun g hg => (sublist_of_mem_shardSymbols hg).nodup hnodup, ?_⟩
    refine List.pairwise_iff_getElem.mpr fun i j hi hj hij y hyi hyj => ?_
    have howner : ∀ k (hk : k < (shardSymbols symbols shards).length),
        y ∈ (shardSymbols symbols shards)[k] → k ∈ owners (shardSymbols symbols shards) y :=
      fun k hk hy => mem_owners.mpr ⟨_, List.getElem?_eq_getElem hk, hy⟩
    have hy := mem_flatten_shardSymbols.mp (List.mem_flatten.mpr ⟨_, List.getElem_mem hi, hyi⟩)
    obtain ⟨k, hk⟩ := owners_shardSymbols hnodup hy
    have hik := howner i hi hyi
    have hjk := howner j hj hyj
    rw [hk, List.mem_singleton] at hik hjk
    omega

lemma ceil_div (n : ℕ) {m : ℕ} (hm : 0 < m) :
    (n + m - 1) / m = n / m + if 0 < n % m then 1 else 0 := by
  have hn := Nat.div_add_mod n m
  have hlt := Nat.mod_lt n hm
  split_ifs with hrem
  · have heq : n + m - 1 = (n % m - 1) + m * (n / m + 1) := by
      rw [Nat.mul_add, Nat.mul_one]
      omega
    rw [heq, Nat.add_mul_div_left _ _ hm, Nat.div_eq_of_lt (by omega), Nat.zero_add]
  · have heq : n + m - 1 = (m - 1) + m * (n / m) := by omega
    rw [heq, Nat.add_mul_div_left _ _ hm, Nat.div_eq_of_lt (by omega), Nat.zero_add, Nat.add_zero]

/-- The division gives the size of the first group, and no group is larger. -/
lemma length_le_ceil (h : symbols ≠ []) (hshards : 1 ≤ shards) :
    let m := min shards.toNat symbols.length
    (∀ g ∈ shardSymbols symbols shards, g.length ≤ (symbols.length + m - 1) / m) ∧
      ∃ g ∈ shardSymbols symbols shards, g.length = (symbols.length + m - 1) / m := by
  intro m
  have hm : shardCount symbols shards = m := shardCount_eq_min h hshards
  have hpos : 0 < m := hm ▸ shardCount_pos symbols shards
  rw [ceil_div _ hpos]
  refine ⟨fun g hg => ?_, _, mem_shardSymbols.mpr ⟨0, hm ▸ hpos, rfl⟩, ?_⟩
  · obtain ⟨i, hi, rfl⟩ := mem_shardSymbols.mp hg
    rw [length_group hi, hm]
    split_ifs <;> omega
  · rw [length_group (hm ▸ hpos), hm]

/-- A group needs three streams for each symbol. -/
lemma length_streams (g : List Bytes) :
    (g.flatMap streamNames).length = g.length * kStreamsPerSymbol := by
  induction g with
  | nil => rfl
  | cons y g ih =>
    rw [List.flatMap_cons, List.length_append, ih, List.length_cons, Nat.add_mul, Nat.add_comm]
    rfl

end Groups

/-! ## The checks -/

/-- The loop keeps the first occurrences. -/
lemma uniq_eq_eraseDups (symbols : List Bytes) : uniq symbols = symbols.eraseDups := by
  have hfold : ∀ (l out : List Bytes),
      l.foldl (fun uniq sy => if uniq.contains sy then uniq else uniq ++ [sy]) out =
        out ++ (l.filter fun y => !out.contains y).eraseDups := by
    intro l
    induction l with
    | nil => simp
    | cons y l ih =>
      intro out
      rw [List.foldl_cons, ih]
      by_cases hy : out.contains y = true
      · rw [if_pos hy, List.filter_cons_of_neg (by rw [hy]; simp)]
      · rw [if_neg hy, List.filter_cons_of_pos (by simpa using hy), List.eraseDups_cons,
          List.append_assoc, List.singleton_append, List.filter_filter]
        congr 3
        refine List.filter_congr fun z _ => ?_
        rw [Bool.eq_iff_iff]
        simp [and_comm]
  rw [uniq, hfold]
  simp

lemma nodup_eraseDups (l : List Bytes) : l.eraseDups.Nodup := by
  induction hn : l.length using Nat.strong_induction_on generalizing l with
  | _ n ih =>
    cases l with
    | nil => simp
    | cons y l =>
      rw [List.eraseDups_cons, List.nodup_cons]
      constructor
      · rw [List.mem_eraseDups]
        simp
      · have hle := List.length_filter_le (fun z => !z == y) l
        rw [List.length_cons] at hn
        exact ih _ (by omega) _ rfl

lemma toUpper_toUpper (c : UInt8) : toUpper (toUpper c) = toUpper c := by
  unfold toUpper
  split_ifs with h hsub
  · -- the large letter is none of the small ones
    have hc : (c - 32).toNat = c.toNat - 32 := UInt8.toNat_sub_of_le _ _ (by
      simp only [UInt8.le_iff_toNat_le, UInt8.reduceToNat] at h ⊢
      omega)
    simp only [UInt8.le_iff_toNat_le, UInt8.reduceToNat, hc] at h hsub
    omega
  · rfl
  · rfl

/-- What the loop keeps: there is a shard, and the symbols are upper-case. -/
structure Options.Sound (c : Options) : Prop where
  one_le_shards : 1 ≤ c.shards.toInt
  upper : ∀ y ∈ c.symbols, y.map toUpper = y

/-- Sound options, or an error that is not one of the later checks. -/
def SoundResult : Except (Options × Bytes) Options → Prop
  | .ok c => c.Sound
  | .error e => e.2 ≠ [] ∧ e.2 ≠ tooManySymbols

/-- An error text is told from the later ones by its first character. -/
lemma soundResult_error {c : Options} {b : UInt8} {err : Bytes} (h : err.head? = some b)
    (hb : b ≠ 116) : SoundResult (.error (c, err)) := by
  constructor
  · rintro rfl
    exact absurd h (by simp)
  · rintro rfl
    exact hb (Option.some.inj (h.symm.trans (by decide)))

lemma Options.Sound.setValue {c : Options} (h : c.Sound) (a v : Bytes) :
    SoundResult (c.setValue a v) := by
  -- the two options that matter, and the others
  by_cases hsymbols : a = lit "--symbols"
  · have hset : c.setValue a v = .ok { c with symbols := (splitCsv v).map (·.map toUpper) } := by
      rw [Options.setValue, if_neg (by rw [hsymbols]; decide), if_pos hsymbols]
    rw [hset]
    refine ⟨h.one_le_shards, fun y hy => ?_⟩
    obtain ⟨x, -, rfl⟩ := List.mem_map.mp hy
    rw [List.map_map]
    exact List.map_congr_left fun c _ => toUpper_toUpper c
  by_cases hshards : a = lit "--shards"
  · have hset : c.setValue a v = .ok { c with shards := if atoi v < 1 then 1 else atoi v } := by
      subst hshards
      rfl
    rw [hset]
    refine ⟨?_, h.upper⟩
    show 1 ≤ (if atoi v < 1 then 1 else atoi v : Int32).toInt
    split_ifs with hless
    · decide
    · rw [Int32.lt_iff_toInt_lt] at hless
      exact not_lt.mp hless
  unfold Options.setValue
  split_ifs
  case neg => exact @soundResult_error _ 105 _ (by decide) (by decide)
  all_goals exact ⟨h.one_le_shards, h.upper⟩

lemma Options.Sound.setFlag {c : Options} (h : c.Sound) (a : Bytes) :
    SoundResult (c.setFlag a) := by
  unfold Options.setFlag
  split_ifs
  · exact ⟨h.one_le_shards, h.upper⟩
  · exact ⟨h.one_le_shards, h.upper⟩
  · exact @soundResult_error _ 104 _ (by decide) (by decide)
  · exact @soundResult_error _ 117 _ rfl (by decide)

lemma Options.Sound.loop {args : List Bytes} {c : Options} (h : c.Sound) :
    SoundResult (fromArgs.loop args c) := by
  fun_induction fromArgs.loop args c with
  | case1 => exact h
  | case2 => exact @soundResult_error _ 109 _ rfl (by decide)
  | case3 => exact h.setFlag _
  | case4 a v args c _ e hset =>
    have hresult := h.setValue a v
    rwa [hset] at hresult
  | case5 a v args c _ c' hset ih =>
    have hresult := h.setValue a v
    rw [hset] at hresult
    exact ih hresult
  | case6 a v args c _ e hset =>
    have hresult := h.setFlag a
    rwa [hset] at hresult
  | case7 a v args c _ c' hset ih =>
    have hresult := h.setFlag a
    rw [hset] at hresult
    exact ih hresult

/-- The checks on sound options: the shards are counted right, and there is no division by zero. -/
lemma Options.Sound.check_eq {c : Options} (h : c.Sound) :
    c.check = some ({ c with symbols := c.symbols.eraseDups },
      if c.replayInput = [] then
        if c.symbols.eraseDups = [] then
          lit "at least one --symbols required (or use --replay)"
        else
          let m := min c.shards.toInt.toNat c.symbols.eraseDups.length
          if (c.symbols.eraseDups.length + m - 1) / m * kStreamsPerSymbol > kMaxCombinedStreams then
            tooManySymbols
          else []
      else []) := by
  have hpos := h.one_le_shards
  have hshards : (c.shards.toInt % 2 ^ 64).toNat = c.shards.toInt.toNat := by
    have hlt := Int32.toInt_lt c.shards
    rw [Int.emod_eq_of_lt (by omega) (by omega)]
  rw [Options.check]
  dsimp only
  rw [uniq_eq_eraseDups, hshards, Nat.min_comm]
  by_cases hlive : c.replayInput = []
  · by_cases hempty : c.symbols.eraseDups = []
    · have herr : lit "at least one --symbols required (or use --replay)" ≠ [] := by decide
      simp only [hlive, hempty, herr, true_and, false_and, if_true, if_false]
    · have hcount : min c.shards.toInt.toNat c.symbols.eraseDups.length ≠ 0 := by
        have hlen := List.length_pos_iff.mpr hempty
        omega
      simp only [hlive, hempty, and_false, and_self, if_true, if_false]
      rw [if_pos hcount]
      split_ifs <;> rfl
  · simp only [hlive, false_and, and_false, if_false]

/-- The partition of the symbols, when there are any. -/
lemma check_shards {symbols : List Bytes} {shards : ℤ} (h : symbols ≠ []) (hshards : 1 ≤ shards) :
    let m := min shards.toNat symbols.length
    (¬ (symbols.length + m - 1) / m * kStreamsPerSymbol > kMaxCombinedStreams →
      ∀ g ∈ shardSymbols symbols shards, (g.flatMap streamNames).length ≤ kMaxCombinedStreams) ∧
    ((symbols.length + m - 1) / m * kStreamsPerSymbol > kMaxCombinedStreams →
      ∃ g ∈ shardSymbols symbols shards,
        kMaxCombinedStreams < (g.flatMap streamNames).length) := by
  intro m
  obtain ⟨hle, g, hg, heq⟩ := length_le_ceil h hshards
  constructor
  · intro hfit g hg
    rw [length_streams]
    exact (Nat.mul_le_mul_right _ (hle g hg)).trans (not_lt.mp hfit)
  · intro hmany
    refine ⟨g, hg, ?_⟩
    rw [length_streams, heq]
    exact hmany

/-- **The configuration check and the partition agree.**  No arguments lead to a division by zero.
In live mode, the symbols of accepted arguments are spread evenly over the shards, and no shard
needs more streams than a connection may have; and if there are said to be too many, then a shard
does. -/
theorem fromArgs_shards (args : List Bytes) :
    fromArgs args ≠ none ∧
      (∀ c, fromArgs args = some (c, []) → c.replayInput = [] →
        (∃ c', fromArgs.loop args {} = .ok c' ∧ c.symbols = c'.symbols.eraseDups ∧
          ∀ y ∈ c'.symbols, y.map toUpper = y) ∧
        SpreadOver c.symbols (min c.shards.toInt.toNat c.symbols.length)
          (shardSymbols c.symbols c.shards.toInt) ∧
        (∀ y ∈ c.symbols, (shardSymbols c.symbols c.shards.toInt).flatten.count y = 1) ∧
        ∀ g ∈ shardSymbols c.symbols c.shards.toInt,
          (g.flatMap streamNames).length ≤ kMaxCombinedStreams) ∧
      ∀ c, fromArgs args = some (c, tooManySymbols) →
        ∃ g ∈ shardSymbols c.symbols c.shards.toInt,
          kMaxCombinedStreams < (g.flatMap streamNames).length := by
  have hresult : SoundResult (fromArgs.loop args {}) := Options.Sound.loop ⟨by decide, by simp⟩
  rw [fromArgs]
  cases hloop : fromArgs.loop args {} with
  | error e =>
    rw [hloop] at hresult
    refine ⟨by simp, fun c hc => ?_, fun c hc => ?_⟩
    · obtain rfl := Option.some.inj hc
      exact absurd rfl hresult.1
    · obtain rfl := Option.some.inj hc
      exact absurd rfl hresult.2
  | ok c' =>
    rw [hloop] at hresult
    obtain ⟨hpos, hupper⟩ : c'.Sound := hresult
    dsimp only
    rw [Options.Sound.check_eq ⟨hpos, hupper⟩]
    have hnodup := nodup_eraseDups c'.symbols
    have hnone : lit "at least one --symbols required (or use --replay)" ≠ [] := by decide
    have hother : lit "at least one --symbols required (or use --replay)" ≠ tooManySymbols := by
      decide
    have hmany : tooManySymbols ≠ [] := by decide
    refine ⟨by simp, fun c hc hlive => ?_, fun c hc => ?_⟩
    · obtain ⟨rfl, herr⟩ := Prod.mk.inj (Option.some.inj hc)
      dsimp only at hlive herr ⊢
      rw [if_pos hlive] at herr
      split_ifs at herr with hempty hfit
      · exact absurd herr hnone
      · exact absurd herr hmany
      have hspread := spreadOver_shardSymbols hnodup hempty hpos
      refine ⟨⟨c', rfl, rfl, hupper⟩, hspread, fun y hy => ?_, (check_shards hempty hpos).1 hfit⟩
      rw [hspread.perm.count_eq]
      exact List.count_eq_one_of_mem hnodup hy
    · obtain ⟨rfl, herr⟩ := Prod.mk.inj (Option.some.inj hc)
      dsimp only at herr ⊢
      split_ifs at herr with hlive hempty hfit
      · exact absurd herr hother
      · exact (check_shards hempty hpos).2 hfit
      · exact absurd herr.symm hmany
      · exact absurd herr.symm hmany

/-- Three symbols, one of them twice, on two connections. -/
theorem fromArgs_shards_three :
    let args := [lit "--symbols", lit "btcusdt,,ETHUSDT,BTCUSDT,solusdt", lit "--shards", lit "2"]
    ∃ c, fromArgs args = some (c, []) ∧
      c.symbols = [lit "BTCUSDT", lit "ETHUSDT", lit "SOLUSDT"] ∧
      SpreadOver c.symbols 2 (shardSymbols c.symbols c.shards.toInt) := by
  intro args
  have hargs : fromArgs args =
      some ({ symbols := [lit "BTCUSDT", lit "ETHUSDT", lit "SOLUSDT"], shards := 2 }, []) := rfl
  exact ⟨_, hargs, rfl, ((fromArgs_shards args).2.1 _ hargs rfl).2.1⟩

end LobCapture
