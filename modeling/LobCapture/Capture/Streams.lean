/-
# The subscribed streams

The URL of a shard names three streams for each of its symbols, in lower case.  The names come
back in the frames, and the handler takes the symbol and the kind of the message out of them.  The
kinds are told apart by a search for a text that starts with `@`, so the text of the symbol does
not matter.
-/
import LobCapture.Capture.Live
import LobCapture.Capture.Scan

namespace LobCapture

open Lib

/-! ## Names -/

/-- `/` -/
def slash : UInt8 := 47

/-- `tolower` in the C locale. -/
def toLower (c : UInt8) : UInt8 := if 65 ≤ c ∧ c ≤ 90 then c + 32 else c

/-- One round of the loop of `combined_streams`. -/
def addStreams (out : Bytes) (x : Bytes × ℕ) : Bytes :=
  let sym := x.1.map toLower
  let out := if x.2 ≠ 0 then out ++ [slash] else out
  out ++ (sym ++ lit "@depth@100ms/" ++ sym ++ lit "@depth5@100ms/" ++ sym ++ lit "@trade")

/-- `combined_streams`. -/
def Config.combinedStreams (cfg : Config) : Bytes := cfg.symbols.zipIdx.foldl addStreams []

def depthStream (y : Bytes) : Bytes := y.map toLower ++ lit "@depth@100ms"
def depth5Stream (y : Bytes) : Bytes := y.map toLower ++ lit "@depth5@100ms"
def tradeStream (y : Bytes) : Bytes := y.map toLower ++ lit "@trade"

/-- The streams of a symbol. -/
def streamNames (y : Bytes) : List Bytes := [depthStream y, depth5Stream y, tradeStream y]

/-- The pieces between the separators of a text.  An empty text has none. -/
def pieces (sep : UInt8) (s : Bytes) : List Bytes := if s = [] then [] else s.splitOn sep

/-- A symbol: upper-case ASCII, without the two separators. -/
structure IsSymbol (y : Bytes) : Prop where
  ne_nil : y ≠ []
  ascii : ∀ c ∈ y, c < 128
  upper : ∀ c ∈ y, toUpper c = c
  atSign_notMem : atSign ∉ y
  slash_notMem : slash ∉ y

instance isSymbolDecidable (y : Bytes) : Decidable (IsSymbol y) :=
  decidable_of_iff (y ≠ [] ∧ y.all (fun c => c < 128) ∧ y.all (fun c => toUpper c = c) ∧
      atSign ∉ y ∧ slash ∉ y)
    ⟨fun h => ⟨h.1, by simpa using h.2.1, by simpa using h.2.2.1, h.2.2.2.1, h.2.2.2.2⟩,
      fun h => ⟨h.ne_nil, by simpa using h.ascii, by simpa using h.upper, h.atSign_notMem,
        h.slash_notMem⟩⟩

/-! ## Letters -/

section Letters

variable {c : UInt8}

lemma toNat_small (h : 65 ≤ c ∧ c ≤ 90) : (c + 32).toNat = c.toNat + 32 := by
  simp only [UInt8.le_iff_toNat_le, UInt8.reduceToNat] at h
  rw [UInt8.toNat_add]
  show (c.toNat + 32) % 256 = c.toNat + 32
  omega

/-- Making a letter small does not lose it. -/
lemma toUpper_toLower (c : UInt8) : toUpper (toLower c) = toUpper c := by
  unfold toLower
  split_ifs with h
  · have hc := toNat_small h
    rw [toUpper, toUpper, if_pos, if_neg, UInt8.add_sub_cancel]
    all_goals
      simp only [UInt8.le_iff_toNat_le, UInt8.reduceToNat, hc] at h ⊢
      omega
  · rfl

/-- A character that is no letter comes from itself only. -/
lemma mem_map_toLower {b : UInt8} (hb : b < 65) {s : Bytes} : b ∈ s.map toLower ↔ b ∈ s := by
  have hiff : ∀ d, toLower d = b ↔ d = b := by
    intro d
    unfold toLower
    split_ifs with hd
    · have hc := toNat_small hd
      simp only [UInt8.le_iff_toNat_le, UInt8.lt_iff_toNat_lt, UInt8.reduceToNat] at hd hb
      rw [← UInt8.toNat_inj, ← UInt8.toNat_inj, hc]
      omega
    · rfl
  simp only [List.mem_map, hiff]
  constructor
  · rintro ⟨d, hd, rfl⟩
    exact hd
  · exact fun h => ⟨b, h, rfl⟩

end Letters

/-! ## Kinds -/

section Kinds

variable {s p suffix pat : Bytes} {c : UInt8}

lemma find_isSome_iff : (find s pat 0).isSome = true ↔ pat <:+: s := by
  rw [find, List.find?_isSome]
  constructor
  · rintro ⟨i, -, hi⟩
    exact (List.isPrefixOf_iff_prefix.mp hi).isInfix.trans (List.drop_suffix i s).isInfix
  · rintro ⟨a, b, rfl⟩
    refine ⟨a.length, List.mem_range'_1.mpr ⟨Nat.zero_le _, ?_⟩, ?_⟩
    · simp only [List.length_append]
      omega
    · rw [List.append_assoc, List.drop_left]
      exact List.isPrefixOf_iff_prefix.mpr (List.prefix_append pat b)

/-- A text that starts with `c` is not found across a part without `c`. -/
lemma infix_append_iff (h : c ∉ p) : c :: pat <:+: p ++ suffix ↔ c :: pat <:+: suffix := by
  constructor
  · rintro ⟨a, b, hab⟩
    rw [List.append_assoc, List.cons_append] at hab
    rcases List.append_eq_append_iff.mp hab with ⟨a', rfl, hsuffix⟩ | ⟨c', rfl, hsuffix⟩
    · cases a' with
      | nil => exact ⟨[], b, hsuffix⟩
      | cons d a' =>
        obtain ⟨rfl, -⟩ := List.cons.inj hsuffix
        exact absurd (List.mem_append_right a List.mem_cons_self) h
    · exact ⟨c', b, by rw [hsuffix, List.append_assoc]; rfl⟩
  · exact fun h => h.trans (List.suffix_append p suffix).isInfix

/-- The kind of a stream is in what follows the symbol. -/
lemma classifyStream_append (h : atSign ∉ p) :
    classifyStream (p ++ suffix) = classifyStream suffix := by
  have hfind : ∀ pat, (find (p ++ suffix) (atSign :: pat) 0).isSome =
      (find suffix (atSign :: pat) 0).isSome := fun pat => by
    rw [Bool.eq_iff_iff, find_isSome_iff, find_isSome_iff, infix_append_iff h]
  have hdepth5 := hfind (lit "depth5")
  have htrade := hfind (lit "trade")
  rw [classifyStream, classifyStream]
  exact if_congr (Bool.eq_iff_iff.mp hdepth5) rfl (if_congr (Bool.eq_iff_iff.mp htrade) rfl rfl)

end Kinds

section Streams

variable {y : Bytes} {symbols : List Bytes}

/-- A stream name leads back to its symbol. -/
lemma streamSymbol_append (hy : IsSymbol y) {suffix : Bytes} (h : suffix.head? = some atSign) :
    streamSymbol (y.map toLower ++ suffix) = y := by
  have hat : ∀ c ∈ y.map toLower, decide (c ≠ atSign) = true := fun c hc => by
    rw [decide_eq_true_eq]
    rintro rfl
    exact hy.atSign_notMem ((mem_map_toLower (by decide)).mp hc)
  obtain ⟨suffix, rfl⟩ : ∃ s, suffix = atSign :: s := by
    cases suffix with
    | nil => simp at h
    | cons c s => exact ⟨s, by rw [Option.some.inj h]⟩
  rw [streamSymbol, List.takeWhile_append_of_pos hat, List.takeWhile_cons_of_neg (by simp),
    List.append_nil, List.map_map]
  conv_rhs => rw [← List.map_id y]
  exact List.map_congr_left fun c hc => (toUpper_toLower c).trans (hy.upper c hc)

/-- **The streams of a symbol lead back to it and to their kinds.** -/
lemma route_streamNames (hy : IsSymbol y) :
    (streamNames y).map (fun s => (streamSymbol s, classifyStream s)) =
      [(y, .depthDiff), (y, .depth5), (y, .trade)] := by
  have hat : atSign ∉ y.map toLower := mt (mem_map_toLower (by decide)).mp hy.atSign_notMem
  have hdepth : classifyStream (lit "@depth@100ms") = .depthDiff := by decide
  have hdepth5 : classifyStream (lit "@depth5@100ms") = .depth5 := by decide
  have htrade : classifyStream (lit "@trade") = .trade := by decide
  simp only [streamNames, List.map_cons, List.map_nil, depthStream, depth5Stream, tradeStream,
    classifyStream_append hat, hdepth, hdepth5, htrade]
  rw [streamSymbol_append hy (by decide), streamSymbol_append hy (by decide),
    streamSymbol_append hy (by decide)]

/-- No two streams are confused. -/
lemma nodup_streamNames (h : ∀ y ∈ symbols, IsSymbol y) (hnodup : symbols.Nodup) :
    (symbols.flatMap streamNames).Nodup := by
  -- the names of one symbol, and those of two
  rw [List.nodup_flatMap]
  constructor
  · intro y hy
    refine List.Nodup.of_map (fun s => (streamSymbol s, classifyStream s)) ?_
    rw [route_streamNames (h y hy)]
    simp
  · refine hnodup.imp_of_mem fun {y z} hy hz hne s hsy hsz => hne ?_
    have hroute : ∀ x, IsSymbol x → s ∈ streamNames x → streamSymbol s = x := by
      intro x hx hs
      have hmem := List.mem_map_of_mem (f := fun s => (streamSymbol s, classifyStream s)) hs
      rw [route_streamNames hx] at hmem
      simp only [List.mem_cons, Prod.mk.injEq, List.not_mem_nil, or_false] at hmem
      rcases hmem with hmem | hmem | hmem <;> exact hmem.1
    rw [← hroute y (h y hy) hsy, hroute z (h z hz) hsz]

lemma slash_notMem_streamNames (hy : IsSymbol y) {s : Bytes} (h : s ∈ streamNames y) :
    slash ∉ s := by
  have hslash : slash ∉ y.map toLower := mt (mem_map_toLower (by decide)).mp hy.slash_notMem
  simp only [streamNames, List.mem_cons, List.not_mem_nil, or_false] at h
  rcases h with rfl | rfl | rfl
  all_goals
    refine fun hmem => (List.mem_append.mp hmem).elim hslash ?_
    decide

lemma intercalate_cons_eq (sep x : Bytes) (xs : List Bytes) :
    List.intercalate sep (x :: xs) = x ++ xs.flatMap (sep ++ ·) := by
  induction xs generalizing x with
  | nil => simp
  | cons z xs ih => rw [List.intercalate_cons_cons, ih, List.flatMap_cons, List.append_assoc,
      List.append_assoc]

/-- Behind the first symbol, each name follows a separator. -/
lemma addStreams_succ (out y : Bytes) (k : ℕ) :
    addStreams out (y, k + 1) = out ++ (streamNames y).flatMap ([slash] ++ ·) := by
  have hdepth : lit "@depth@100ms/" = lit "@depth@100ms" ++ [slash] := by decide
  have hdepth5 : lit "@depth5@100ms/" = lit "@depth5@100ms" ++ [slash] := by decide
  simp [addStreams, streamNames, depthStream, depth5Stream, tradeStream, hdepth, hdepth5]

lemma addStreams_zero (y : Bytes) :
    addStreams [] (y, 0) =
      depthStream y ++ [depth5Stream y, tradeStream y].flatMap ([slash] ++ ·) :=
  (List.cons.inj (addStreams_succ [] y 0)).2

lemma foldl_addStreams (ys : List Bytes) (k : ℕ) (out : Bytes) :
    (ys.zipIdx (k + 1)).foldl addStreams out =
      out ++ (ys.flatMap streamNames).flatMap ([slash] ++ ·) := by
  induction ys generalizing k out with
  | nil => simp
  | cons y ys ih =>
    rw [List.zipIdx_cons, List.foldl_cons, ih, addStreams_succ, List.flatMap_cons,
      List.flatMap_append, List.append_assoc]

/-- The list of names, with its separators. -/
lemma combinedStreams_eq (cfg : Config) :
    cfg.combinedStreams = List.intercalate [slash] (cfg.symbols.flatMap streamNames) := by
  rw [Config.combinedStreams]
  cases cfg.symbols with
  | nil => rfl
  | cons y ys =>
    have hnames : (y :: ys).flatMap streamNames =
        depthStream y :: ([depth5Stream y, tradeStream y] ++ ys.flatMap streamNames) := rfl
    rw [List.zipIdx_cons, List.foldl_cons, foldl_addStreams, addStreams_zero, hnames,
      intercalate_cons_eq, List.flatMap_append, List.append_assoc]

/-- **The subscribed streams lead back to their symbols and kinds.** -/
theorem combinedStreams_routes (cfg : Config) (h : ∀ y ∈ cfg.symbols, IsSymbol y)
    (hnodup : cfg.symbols.Nodup) :
    pieces slash cfg.combinedStreams = cfg.symbols.flatMap streamNames ∧
      (cfg.symbols.flatMap streamNames).Nodup ∧
      ∀ y ∈ cfg.symbols,
        streamNames y = [depthStream y, depth5Stream y, tradeStream y] ∧
          (streamNames y).map (fun s => (streamSymbol s, classifyStream s)) =
            [(y, .depthDiff), (y, .depth5), (y, .trade)] := by
  refine ⟨?_, nodup_streamNames h hnodup, fun y hy => ⟨rfl, route_streamNames (h y hy)⟩⟩
  rw [pieces, combinedStreams_eq]
  cases hsymbols : cfg.symbols with
  | nil => rfl
  | cons y ys =>
    have hslash : ∀ s ∈ (y :: ys).flatMap streamNames, slash ∉ s := by
      intro s hs
      obtain ⟨x, hx, hsx⟩ := List.mem_flatMap.mp hs
      exact slash_notMem_streamNames (h x (hsymbols ▸ hx)) hsx
    have hsplit := List.splitOn_intercalate slash hslash (by simp [streamNames])
    rw [if_neg, hsplit]
    intro hnil
    rw [hnil] at hsplit
    -- a list with one empty name
    have hlen := congrArg List.length hsplit
    simp [streamNames] at hlen

/-- Symbols that contain the names of the kinds. -/
theorem combinedStreams_routes_words :
    let cfg : Config := ⟨.spot, [lit "DEPTH5USDT", lit "TRADE"], .recvWallClock, false, 0⟩
    pieces slash cfg.combinedStreams =
      [lit "depth5usdt@depth@100ms", lit "depth5usdt@depth5@100ms", lit "depth5usdt@trade",
        lit "trade@depth@100ms", lit "trade@depth5@100ms", lit "trade@trade"] := by
  intro cfg
  have hsymbol : ∀ y ∈ cfg.symbols, IsSymbol y := by
    intro y hy
    rcases List.mem_pair.mp hy with rfl | rfl
    all_goals decide
  rw [(combinedStreams_routes cfg hsymbol (by decide)).1]
  decide

end Streams

end LobCapture
