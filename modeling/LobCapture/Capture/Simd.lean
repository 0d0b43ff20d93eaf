/-
# The two depth parsers

`parse_depth` as it is compiled with simdjson, which looks the members of a payload up in a tree,
and how it compares with the built-in one.  The parser of simdjson is a parameter: it gives the
tree for a text, with the escapes in names and strings resolved.

Neither parser refuses an entry that does not begin with two strings.  The one with simdjson leaves
it out, and the built-in one looks for the missing string behind the entry.
-/
import LobCapture.Capture.Payload

namespace LobCapture

open Lib

/-! ## The parser with simdjson -/

/-- `get_int64`, for numbers that are integers of 64 bits. -/
def getInt64 : Json → Option Int64
  | .num t =>
    let negative := t.head? = some minus
    let digits := if negative then t.drop 1 else t
    let v : ℤ := if negative then -digitsValue digits else digitsValue digits
    if digits ≠ [] ∧ digits.all isDigit ∧ -2 ^ 63 ≤ v ∧ v < 2 ^ 63 then some (.ofInt v) else none
  | _ => none

/-- One element of the array in `simd_load_levels`. -/
def simdLoadLevel (x : List Level × Bool) (lvl : Json) : List Level × Bool :=
  match lvl.getArray with
  | none => x
  | some pq =>
    match pq[0]?.bind Json.getString with
    | none => x
    | some ps =>
      match pq[1]?.bind Json.getString with
      | none => x
      | some qs =>
        match parseScaled ps kPriceScalePow, parseScaled qs kQtyScalePow with
        | some price, some qty => (x.1 ++ [⟨price, qty⟩], x.2)
        | _, _ => (x.1, false)

/-- The array that `simd_load_levels` reads. -/
def simdArray (doc : Json) (kDiff kSnap : Bytes) : List Json :=
  (((doc.member kDiff).bind Json.getArray).or ((doc.member kSnap).bind Json.getArray)).getD []

/-- `simd_load_levels`. -/
def simdLoadLevels (doc : Json) (kDiff kSnap : Bytes) (dst : List Level) (ok : Bool) :
    List Level × Bool :=
  (simdArray doc kDiff kSnap).foldl simdLoadLevel (dst, ok)

/-- `doc[key].get_int64()`. -/
def int64At (doc : Json) (key : Bytes) : Option Int64 := (doc.member key).bind getInt64

/-- The fields before the levels, as `parse_depth` with simdjson sets them. -/
def simdFields (doc : Json) : DepthEvent :=
  let out : DepthEvent := {}
  let out := (int64At doc (lit "E")).elim out fun v => { out with eventTimeMs := v }
  let out :=
    if out.eventTimeMs = 0 then
      (int64At doc (lit "T")).elim out fun v => { out with eventTimeMs := v }
    else out
  let out := (int64At doc (lit "U")).elim out fun v => { out with U := v.toUInt64 }
  let out := (int64At doc (lit "u")).elim out fun v => { out with u := v.toUInt64 }
  let out := (int64At doc (lit "pu")).elim out fun v => { out with pu := v.toUInt64, hasPu := true }
  (int64At doc (lit "lastUpdateId")).elim out fun v => { out with lastUpdateId := v.toUInt64 }

/-- `parse_depth` with simdjson, on an event that has been reset. -/
def simdParseDepth (dom : Bytes → Option Json) (data : Bytes) : Option DepthEvent :=
  match dom data with
  | none => none
  | some doc =>
    let out := simdFields doc
    let (bids, ok) := simdLoadLevels doc (lit "b") (lit "bids") out.bids true
    let (asks, ok) := simdLoadLevels doc (lit "a") (lit "asks") out.asks ok
    accepted ({ out with bids := bids, asks := asks }, ok)

/-! ## Levels -/

/-- An entry that begins with two strings. -/
lemma leadingPair_eq_some {e : Json} {price qty : Bytes} :
    leadingPair e = some (price, qty) ↔ ∃ rest, e = .arr (.str price :: .str qty :: rest) := by
  constructor
  · intro h
    unfold leadingPair at h
    split at h
    · simp only [Option.some.injEq, Prod.mk.injEq] at h
      exact ⟨_, by rw [h.1, h.2]⟩
    · exact absurd h (by simp)
  · rintro ⟨rest, rfl⟩
    rfl

/-- An entry that does not begin with two strings is left out. -/
lemma simdLoadLevel_eq (x : List Level × Bool) (e : Json) :
    simdLoadLevel x e =
      (x.1 ++ (levelOf e).toList, x.2 && ((leadingPair e).isNone || (levelOf e).isSome)) := by
  cases hpair : leadingPair e with
  | none =>
    have hx : simdLoadLevel x e = x := by
      cases e with
      | arr vs =>
        rcases vs with _ | ⟨v, _ | ⟨w, vs⟩⟩
        · rfl
        · cases v <;> rfl
        · cases v <;> cases w <;> first | rfl | exact absurd hpair (by simp [leadingPair])
      | _ => rfl
    simp [hx, levelOf, hpair]
  | some pair =>
    obtain ⟨rest, rfl⟩ := leadingPair_eq_some.mp hpair
    show (match parseScaled pair.1 kPriceScalePow, parseScaled pair.2 kQtyScalePow with
      | some price, some qty => (x.1 ++ [⟨price, qty⟩], x.2)
      | _, _ => (x.1, false)) =
      (x.1 ++ (scaledLevel pair.1 pair.2).toList,
        x.2 && (false || (scaledLevel pair.1 pair.2).isSome))
    rw [scaledLevel]
    cases parseScaled pair.1 kPriceScalePow <;> cases parseScaled pair.2 kQtyScalePow <;> simp

/-- The levels that are read, and whether no entry with two strings is refused. -/
lemma simdLoadLevels_eq (doc : Json) (kDiff kSnap : Bytes) (dst : List Level) (ok : Bool) :
    simdLoadLevels doc kDiff kSnap dst ok =
      (dst ++ (simdArray doc kDiff kSnap).filterMap levelOf,
        ok && (simdArray doc kDiff kSnap).all
          fun e => (leadingPair e).isNone || (levelOf e).isSome) := by
  rw [simdLoadLevels]
  induction simdArray doc kDiff kSnap generalizing dst ok with
  | nil => simp
  | cons e es ih =>
    rw [List.foldl_cons, simdLoadLevel_eq, ih]
    cases hl : levelOf e <;> simp [hl, Bool.and_assoc]

/-- The entries of both sides. -/
def simdEntries (doc : Json) : List Json :=
  simdArray doc (lit "b") (lit "bids") ++ simdArray doc (lit "a") (lit "asks")

/-- An id, `0` when there is no integer. -/
def simdId (doc : Json) (key : Bytes) : UInt64 := (int64At doc key).elim 0 Int64.toUInt64

/-- The event time. -/
def simdTime (doc : Json) : Int64 :=
  let time := (int64At doc (lit "E")).getD 0
  if time = 0 then (int64At doc (lit "T")).getD 0 else time

/-- The event that is built. -/
def simdEvent (doc : Json) : DepthEvent where
  U := simdId doc (lit "U")
  u := simdId doc (lit "u")
  pu := simdId doc (lit "pu")
  hasPu := (int64At doc (lit "pu")).isSome
  lastUpdateId := simdId doc (lit "lastUpdateId")
  eventTimeMs := simdTime doc
  bids := (simdArray doc (lit "b") (lit "bids")).filterMap levelOf
  asks := (simdArray doc (lit "a") (lit "asks")).filterMap levelOf

lemma simdFields_eq (doc : Json) :
    simdFields doc = { simdEvent doc with bids := [], asks := [] } := by
  unfold simdFields simdEvent simdId simdTime
  -- the time first, since `T` matters only if the time is `0` then
  have htime : ∀ E T : Option Int64,
      (let out : DepthEvent := {}
      let out := E.elim out fun v => { out with eventTimeMs := v }
      if out.eventTimeMs = 0 then T.elim out fun v => { out with eventTimeMs := v } else out) =
      { eventTimeMs := if E.getD 0 = 0 then T.getD 0 else E.getD 0 } := by
    rintro (_ | v) T
    · cases T <;> rfl
    · by_cases hv : v = 0
      · subst hv
        cases T <;> rfl
      · simp [hv]
  dsimp only at htime ⊢
  rw [htime]
  generalize int64At doc (lit "U") = first
  generalize int64At doc (lit "u") = last
  generalize int64At doc (lit "pu") = previous
  generalize int64At doc (lit "lastUpdateId") = snapshot
  cases first <;> cases last <;> cases previous <;> cases snapshot <;> rfl

/-- **What the parser with simdjson makes of a tree.** -/
lemma simdParseDepth_eq {dom : Bytes → Option Json} {data : Bytes} {doc : Json}
    (h : dom data = some doc) :
    simdParseDepth dom data = accepted (simdEvent doc,
      (simdEntries doc).all fun e => (leadingPair e).isNone || (levelOf e).isSome) := by
  simp only [simdParseDepth, h, simdLoadLevels_eq, simdFields_eq, simdEntries, List.all_append,
    Bool.true_and, List.nil_append]
  rfl

/-! ## Malformed entries -/

/-- A malformed entry rejects the event, and an event that is returned has exactly the levels of the
entries. -/
structure RejectsMalformed (bids asks : List Json) (result : Option DepthEvent) : Prop where
  rejects : (∃ e ∈ bids ++ asks, levelOf e = none) → result = none
  complete : ∀ ev, result = some ev →
    bids.map levelOf = ev.bids.map some ∧ asks.map levelOf = ev.asks.map some

section Malformed

variable {bids asks : List Json} {ev : DepthEvent} {ok : Bool}

lemma accepted_eq_none :
    accepted (ev, ok) = none ↔
      ok = false ∨ ev.u = 0 ∧ ev.lastUpdateId = 0 ∧ ev.bids = [] ∧ ev.asks = [] := by
  simp only [accepted]
  split_ifs with hok hev
  · simp [hok]
  · simp only [reduceCtorEq, false_iff, hok, false_or]
    tauto
  · simp only [true_iff]
    tauto

lemma eq_of_accepted {ev' : DepthEvent} (h : accepted (ev, ok) = some ev') : ev' = ev := by
  simp only [accepted] at h
  split_ifs at h
  exact (Option.some.inj h).symm

lemma allLevels_eq_true {es : List Json} : allLevels es = true ↔ ∀ e ∈ es, levelOf e ≠ none := by
  simp [allLevels, Option.isSome_iff_ne_none]

/-- With the levels of the entries, an event is rejected or complete. -/
lemma rejectsMalformed_accepted (hbids : ev.bids = bids.filterMap levelOf)
    (hasks : ev.asks = asks.filterMap levelOf) :
    RejectsMalformed bids asks (accepted (ev, ok)) ↔
      (∀ e ∈ bids ++ asks, levelOf e ≠ none) ∨ accepted (ev, ok) = none := by
  constructor
  · intro h
    by_cases hall : ∀ e ∈ bids ++ asks, levelOf e ≠ none
    · exact .inl hall
    · push Not at hall
      exact .inr (h.rejects hall)
  · rintro (hall | hnone)
    · refine ⟨fun ⟨e, he, hl⟩ => absurd hl (hall e he), fun ev' hev => ?_⟩
      obtain rfl := eq_of_accepted hev
      rw [hbids, hasks]
      exact ⟨map_levelOf (allLevels_eq_true.mpr fun e he => hall e (List.mem_append_left _ he)),
        map_levelOf (allLevels_eq_true.mpr fun e he => hall e (List.mem_append_right _ he))⟩
    · exact ⟨fun _ => hnone, fun ev' hev => absurd (hnone.symm.trans hev) (by simp)⟩

end Malformed

/-- **Malformed entries.**  The parser with simdjson rejects them exactly if there is none, or one
of them begins with two strings, or nothing else makes an event; the built-in parser does it when
every entry begins with two strings. -/
theorem rejectsMalformed_iff (dom : Bytes → Option Json) (data : Bytes) (doc : Json)
    (ms : Members) :
    (dom data = some doc →
      (RejectsMalformed (simdArray doc (lit "b") (lit "bids"))
          (simdArray doc (lit "a") (lit "asks")) (simdParseDepth dom data) ↔
        (∀ e ∈ simdEntries doc, levelOf e ≠ none) ∨
          (∃ e ∈ simdEntries doc, leadingPair e ≠ none ∧ levelOf e = none) ∨
          simdId doc (lit "u") = 0 ∧ simdId doc (lit "lastUpdateId") = 0 ∧
            ∀ e ∈ simdEntries doc, levelOf e = none)) ∧
    (DepthPayload ms → (∀ e ∈ bidEntries ms ++ askEntries ms, ScannableEntry e) →
      RejectsMalformed (bidEntries ms) (askEntries ms) (parseDepth (Json.obj ms).text)) := by
  constructor
  · intro hdoc
    have hnone : (simdEntries doc).all (fun e => (leadingPair e).isNone || (levelOf e).isSome) =
        false ↔ ∃ e ∈ simdEntries doc, leadingPair e ≠ none ∧ levelOf e = none := by
      simp [List.all_eq_false, Option.isSome_iff_ne_none]
    have hempty : (simdEvent doc).bids = [] ∧ (simdEvent doc).asks = [] ↔
        ∀ e ∈ simdEntries doc, levelOf e = none := by
      simp only [simdEvent, List.filterMap_eq_nil_iff, simdEntries, List.forall_mem_append]
    rw [simdParseDepth_eq hdoc, rejectsMalformed_accepted rfl rfl, accepted_eq_none, hnone, hempty]
    rfl
  · intro hms hentries
    have hread := hms.readable hentries
    rw [hread.parseDepth_eq, rejectsMalformed_accepted rfl rfl, accepted_eq_none]
    by_cases hall : ∀ e ∈ bidEntries ms ++ askEntries ms, levelOf e ≠ none
    · exact .inl hall
    · exact .inr (.inl (Bool.eq_false_iff.mpr (mt allLevels_eq_true.mp hall)))

/-- An entry with one string: the event is returned without it, or with a level that was put
together from two entries. -/
theorem malformed_accepted :
    let ms : Members := [(lit "U", .num (lit "1")), (lit "u", .num (lit "2")),
      (lit "b", .arr [.arr [.str (lit "7")], .arr [.str (lit "2"), .str (lit "3")]]),
      (lit "a", .arr [])]
    let dom (s : Bytes) := if s = (Json.obj ms).text then some (Json.obj ms) else none
    levelOf (.arr [.str (lit "7")]) = none ∧
      simdParseDepth dom (Json.obj ms).text =
        some { U := 1, u := 2, bids := [⟨200000000, 300000000⟩] } ∧
      parseDepth (Json.obj ms).text =
        some { U := 1, u := 2, bids := [⟨700000000, 200000000⟩] } := by
  decide +kernel

/-- An entry with a price that is no number. -/
theorem rejectsMalformed_iff_price :
    let ms : Members := [(lit "b", .arr [.arr [.str (lit "abc"), .str (lit "1")]])]
    let dom (s : Bytes) := if s = (Json.obj ms).text then some (Json.obj ms) else none
    simdParseDepth dom (Json.obj ms).text = none ∧ parseDepth (Json.obj ms).text = none := by
  intro ms dom
  have hmalformed : levelOf (.arr [.str (lit "abc"), .str (lit "1")]) = none := by decide
  obtain ⟨hsimd, hscan⟩ := rejectsMalformed_iff dom (Json.obj ms).text (.obj ms) ms
  have hfast := (hsimd (if_pos rfl)).mpr
    (.inr (.inl ⟨_, List.mem_cons_self, by decide, hmalformed⟩))
  have hbuiltIn := hscan
    { nodup := by decide
      name := by decide
      id := List.forall_mem_singleton.mpr fun hkey => absurd hkey (by decide)
      time := List.forall_mem_singleton.mpr fun hkey => absurd hkey (by decide)
      array := List.forall_mem_singleton.mpr fun _ => ⟨_, rfl⟩
      oneBids := by decide
      oneAsks := by decide
      other := List.forall_mem_singleton.mpr fun hkey => absurd (by decide) hkey }
    (List.forall_mem_singleton.mpr
      ⟨lit "abc", lit "1", [], rfl, by decide, by decide, by decide⟩)
  exact ⟨hfast.rejects ⟨_, List.mem_cons_self, hmalformed⟩,
    hbuiltIn.rejects ⟨_, List.mem_cons_self, hmalformed⟩⟩

/-! ## Agreement -/

/-- `\` -/
def backslash : UInt8 := 92

/-- The payloads for which the parsers are to agree.  The names that count are those in the tree. -/
structure CommonPayload (unescape : Bytes → Bytes) (ms : Members) : Prop where
  nodup : (ms.map fun m => unescape m.1).Nodup
  number : ∀ m ∈ ms, unescape m.1 ∈ idKeys ++ timeKeys →
    ∃ n, 1 ≤ n ∧ n < 2 ^ 63 ∧ m.2 = .num (decimal n)
  array : ∀ m ∈ ms, unescape m.1 ∈ levelKeys → ∃ es : List (List Bytes),
    m.2 = .arr (es.map fun ss => .arr (ss.map .str)) ∧
      ∀ ss ∈ es, ∀ s ∈ ss, quote ∉ s ∧ backslash ∉ s
  other : ∀ m ∈ ms, unescape m.1 ∉ knownKeys →
    (∃ t, m.2 = .num t ∧ ∀ c ∈ t, Json.isNumberChar c = true) ∨
      ∃ t, m.2 = .str t ∧ quote ∉ t ∧ backslash ∉ t

/-- What the built-in parser has to find in addition. -/
structure KeepsInStep (unescape : Bytes → Bytes) (ms : Members) : Prop where
  /-- No quote is escaped in a name. -/
  name : ∀ m ∈ ms, quote ∉ m.1
  /-- A known name is spelled without escapes. -/
  key : ∀ m ∈ ms, unescape m.1 ∈ knownKeys → unescape m.1 = m.1
  /-- An entry has at least two strings, and no bracket in the others. -/
  entry : ∀ m ∈ ms, m.1 ∈ levelKeys → ∀ e ∈ arrayItems m.2, ∃ price qty, ∃ rest : List Bytes,
    e = .arr (.str price :: .str qty :: rest.map .str) ∧ ∀ s ∈ rest, closeBracket ∉ s
  oneBids : OneName ms (lit "b") (lit "bids")
  oneAsks : OneName ms (lit "a") (lit "asks")

/-- The tree of an object. -/
def treeOf (unescape : Bytes → Bytes) (ms : Members) : Json :=
  .obj (ms.map fun m => (unescape m.1, m.2))

section Agreement

variable {unescape : Bytes → Bytes} {ms : Members}
  (hplain : ∀ name, backslash ∉ name → unescape name = name)

include hplain

lemma unescape_of_mem {name : Bytes} (h : name ∈ knownKeys) : unescape name = name := by
  refine hplain name ?_
  revert name
  decide

/-- A member is known by its spelled name when it is known in the tree. -/
lemma KeepsInStep.mem_iff (h : KeepsInStep unescape ms) {keys : List Bytes}
    (hkeys : keys ⊆ knownKeys) {m : Bytes × Json} (hm : m ∈ ms) :
    unescape m.1 ∈ keys ↔ m.1 ∈ keys := by
  constructor
  · intro hmem
    rwa [← h.key m hm (hkeys hmem)]
  · intro hmem
    rwa [unescape_of_mem hplain (hkeys hmem)]

/-- A known name is looked up. -/
lemma KeepsInStep.lookup (h : KeepsInStep unescape ms) {key : Bytes} (hkey : key ∈ knownKeys) :
    (treeOf unescape ms).member key = ms.lookup key := by
  show (ms.map fun m => (unescape m.1, m.2)).lookup key = ms.lookup key
  have hsame : ∀ m ∈ ms, (unescape m.1 = key ↔ m.1 = key) := by
    intro m hm
    simpa using h.mem_iff hplain (List.cons_subset.mpr ⟨hkey, List.nil_subset _⟩) hm
  clear h
  induction ms with
  | nil => rfl
  | cons m ms ih =>
    rw [List.map_cons, List.lookup_cons, List.lookup_cons,
      ih fun m hm => hsame m (List.mem_cons_of_mem _ hm)]
    by_cases hm : m.1 = key
    · rw [(hsame m List.mem_cons_self).mpr hm, hm]
    · rw [beq_false_of_ne (Ne.symm hm),
        beq_false_of_ne (Ne.symm (mt (hsame m List.mem_cons_self).mp hm))]

omit hplain in
lemma closeBracket_notMem_itemsText {ss : List Bytes} (h : ∀ s ∈ ss, closeBracket ∉ s) :
    closeBracket ∉ Json.itemsText (ss.map .str) := by
  induction ss with
  | nil => simp
  | cons s ss ih =>
    have hs := h s List.mem_cons_self
    have hss := ih fun s hs => h s (List.mem_cons_of_mem _ hs)
    simp only [List.map_cons, Json.itemsText_cons, Json.text_str, List.cons_append, List.mem_cons,
      List.mem_append, not_or]
    exact ⟨by decide, by decide, ⟨hs, by decide, List.not_mem_nil⟩, hss⟩

lemma CommonPayload.readable (h : CommonPayload unescape ms) (hstep : KeepsInStep unescape ms) :
    ReadableMembers ms where
  nodup := by
    have hnodup := h.nodup
    rw [show (ms.map fun m => unescape m.1) = (ms.map Prod.fst).map unescape by simp] at hnodup
    exact hnodup.of_map
  id m hm hkey := by
    have hknown : m.1 ∈ knownKeys := by simp [knownKeys, hkey]
    obtain ⟨n, -, hlt, hn⟩ := h.number m hm
      (by rw [unescape_of_mem hplain hknown]; exact List.mem_append_left _ hkey)
    refine ⟨.ofNat n, ?_⟩
    rw [hn, UInt64.toNat_ofNat_of_lt' (hlt.trans (by decide))]
  time m hm hkey := by
    have hknown : m.1 ∈ knownKeys := by simp [knownKeys, hkey]
    exact h.number m hm (by rw [unescape_of_mem hplain hknown]; exact List.mem_append_right _ hkey)
  oneBids := hstep.oneBids
  oneAsks := hstep.oneAsks
  scannable m hm := by
    refine ⟨hstep.name m hm, fun hkey => ?_, fun hkey => ?_⟩
    · have hknown : m.1 ∈ knownKeys := by simp [knownKeys, hkey]
      obtain ⟨es, hes, hquote⟩ := h.array m hm (by rwa [unescape_of_mem hplain hknown])
      refine ⟨_, hes, fun e he => ?_⟩
      obtain ⟨price, qty, rest, rfl, hrest⟩ := hstep.entry m hm hkey e (by rwa [hes])
      -- the strings of the entry are those of the payload
      obtain ⟨ss, hss, heq⟩ := List.mem_map.mp he
      have hmap : ss = price :: qty :: rest := by
        have hinj : Function.Injective Json.str := fun s t hst => Json.str.inj hst
        refine hinj.list_map ?_
        simpa using Json.arr.inj heq
      have hall := hquote ss hss
      rw [hmap] at hall
      exact ⟨price, qty, _, rfl, (hall price (by simp)).1, (hall qty (by simp)).1,
        closeBracket_notMem_itemsText hrest⟩
    · by_cases hknown : m.1 ∈ knownKeys
      · have hnumber : m.1 ∈ idKeys ++ timeKeys := by
          simpa [knownKeys, hkey] using hknown
        obtain ⟨n, -, -, hn⟩ := h.number m hm (by rwa [unescape_of_mem hplain hknown])
        exact .inl ⟨_, hn, isNumberChar_of_mem_decimal n⟩
      · rcases h.other m hm (mt (hstep.mem_iff hplain (List.Subset.refl _) hm).mp hknown) with
          ht | ⟨t, ht, hq, -⟩
        · exact .inl ht
        · exact .inr ⟨t, ht, hq⟩

omit hplain in
/-- The integer of a number that is small enough. -/
lemma getInt64_decimal {n : ℕ} (h : n < 2 ^ 63) :
    getInt64 (.num (decimal n)) = some (.ofNat n) := by
  have hdigits := isDigit_of_mem_decimal n
  obtain ⟨c, t, ht⟩ := List.exists_cons_of_ne_nil (decimal_ne_nil n)
  have hhead : (decimal n).head? ≠ some minus := by
    rw [ht]
    intro hc
    obtain rfl : c = minus := Option.some.inj hc
    exact absurd (hdigits minus (by rw [ht]; exact List.mem_cons_self)) (by decide)
  have hvalue : -2 ^ 63 ≤ (digitsValue (decimal n) : ℤ) ∧
      (digitsValue (decimal n) : ℤ) < 2 ^ 63 := by
    rw [digitsValue_decimal]
    omega
  simp only [getInt64, hhead, if_false]
  rw [if_pos ⟨decimal_ne_nil n, List.all_eq_true.mpr hdigits, hvalue⟩, digitsValue_decimal]
  rfl

lemma CommonPayload.int64At_eq (h : CommonPayload unescape ms) (hstep : KeepsInStep unescape ms)
    {key : Bytes} (hkey : key ∈ idKeys ++ timeKeys) :
    int64At (treeOf unescape ms) key = timeOf ms key := by
  have hknown : key ∈ knownKeys := List.mem_append_left _ hkey
  rw [int64At, hstep.lookup hplain hknown, timeOf]
  cases hv : ms.lookup key with
  | none => rfl
  | some v =>
    obtain ⟨n, -, hlt, hn⟩ := h.number (key, v) (mem_of_lookup hv)
      (by rwa [unescape_of_mem hplain hknown])
    obtain rfl : v = .num (decimal n) := hn
    rw [Option.bind_some, getInt64_decimal hlt, Option.map_some, Json.text_num, digitsValue_decimal]

lemma CommonPayload.simdArray_eq (h : CommonPayload unescape ms) (hstep : KeepsInStep unescape ms)
    {key key' : Bytes} (hkey : key ∈ levelKeys) (hkey' : key' ∈ levelKeys) :
    simdArray (treeOf unescape ms) key key' = sideEntries ms key key' := by
  have hknown : ∀ k ∈ levelKeys, k ∈ knownKeys := fun k hk => List.mem_append_right _ hk
  have harray : ∀ k ∈ levelKeys, ∀ v, ms.lookup k = some v → v.getArray = some (arrayItems v) := by
    intro k hk v hv
    obtain ⟨es, hes, -⟩ := h.array (k, v) (mem_of_lookup hv)
      (by rwa [unescape_of_mem hplain (hknown k hk)])
    obtain rfl : v = _ := hes
    rfl
  rw [simdArray, hstep.lookup hplain (hknown key hkey), hstep.lookup hplain (hknown key' hkey'),
    sideEntries]
  cases hv : ms.lookup key with
  | some v => simp [harray key hkey v hv]
  | none =>
    cases hv' : ms.lookup key' with
    | some v => simp [harray key' hkey' v hv']
    | none => rfl

/-- Both read the same event. -/
lemma CommonPayload.simdEvent_eq (h : CommonPayload unescape ms) (hstep : KeepsInStep unescape ms) :
    simdEvent (treeOf unescape ms) = payloadEvent ms := by
  have hid : ∀ key ∈ idKeys, simdId (treeOf unescape ms) key = idOf ms key := by
    intro key hkey
    rw [simdId, h.int64At_eq hplain hstep (List.mem_append_left _ hkey), timeOf, idOf]
    cases ms.lookup key <;> rfl
  ext1
  case U => exact hid _ (by decide)
  case u => exact hid _ (by decide)
  case pu => exact hid _ (by decide)
  case lastUpdateId => exact hid _ (by decide)
  case hasPu =>
    show (int64At _ _).isSome = (ms.lookup (lit "pu")).isSome
    rw [h.int64At_eq hplain hstep (by decide), timeOf, Option.isSome_map]
  case appliedTime => rfl
  case bids =>
    show (simdArray _ _ _).filterMap levelOf = _
    rw [h.simdArray_eq hplain hstep (by decide) (by decide)]
    rfl
  case asks =>
    show (simdArray _ _ _).filterMap levelOf = _
    rw [h.simdArray_eq hplain hstep (by decide) (by decide)]
    rfl
  case eventTimeMs =>
    show simdTime _ = ((timeOf ms (lit "E")).or (timeOf ms (lit "T"))).getD 0
    have hE := (h.readable hplain hstep).timeOf_ne_zero (show lit "E" ∈ timeKeys by decide)
    rw [simdTime, h.int64At_eq hplain hstep (by decide), h.int64At_eq hplain hstep (by decide)]
    cases htime : timeOf ms (lit "E") with
    | none => rfl
    | some t =>
      rw [htime, ne_eq, Option.some.injEq] at hE
      exact if_neg hE

end Agreement

/-- **The two parsers agree** on payloads that keep the built-in one in step. -/
theorem simdParseDepth_eq_parseDepth {unescape : Bytes → Bytes} {dom : Bytes → Option Json}
    {ms : Members} (hplain : ∀ name, backslash ∉ name → unescape name = name)
    (hdom : dom (Json.obj ms).text = some (treeOf unescape ms)) (h : CommonPayload unescape ms)
    (hstep : KeepsInStep unescape ms) :
    simdParseDepth dom (Json.obj ms).text = parseDepth (Json.obj ms).text := by
  have hentries : simdEntries (treeOf unescape ms) = bidEntries ms ++ askEntries ms := by
    rw [simdEntries, h.simdArray_eq hplain hstep (by decide) (by decide),
      h.simdArray_eq hplain hstep (by decide) (by decide)]
    rfl
  have hpair : ∀ e ∈ bidEntries ms ++ askEntries ms, (leadingPair e).isNone = false := by
    intro e he
    obtain ⟨m, hm, hkey, hitem⟩ : ∃ m ∈ ms, m.1 ∈ levelKeys ∧ e ∈ arrayItems m.2 := by
      rcases List.mem_append.mp he with he | he
      all_goals
        obtain ⟨m, hm, hkey, hitem⟩ := exists_of_mem_sideEntries he
        exact ⟨m, hm, by rcases hkey with hkey | hkey <;> simp [hkey, levelKeys], hitem⟩
    obtain ⟨price, qty, rest, rfl, -⟩ := hstep.entry m hm hkey e hitem
    rfl
  rw [simdParseDepth_eq hdom, (h.readable hplain hstep).parseDepth_eq, hentries,
    h.simdEvent_eq hplain hstep]
  congr 2
  rw [allLevels, Bool.eq_iff_iff, List.all_eq_true, List.all_eq_true]
  refine forall₂_congr fun e he => ?_
  rw [hpair e he, Bool.false_or]

/-- An entry with one string: one parser leaves it out, and the other completes it with the next. -/
theorem parsers_differ :
    let ms : Members := [(lit "u", .num (lit "2")),
      (lit "b", .arr [.arr [.str (lit "1")], .arr [.str (lit "2"), .str (lit "3")]])]
    let dom (s : Bytes) := if s = (Json.obj ms).text then some (treeOf id ms) else none
    simdParseDepth dom (Json.obj ms).text =
        some { u := 2, bids := [⟨200000000, 300000000⟩] } ∧
      parseDepth (Json.obj ms).text = some { u := 2, bids := [⟨100000000, 200000000⟩] } := by
  decide +kernel

/-- An entry with a third string. -/
theorem simdParseDepth_eq_parseDepth_third :
    let ms : Members :=
      [(lit "b", .arr [.arr [.str (lit "1.5"), .str (lit "0.2"), .str (lit "[")]])]
    let dom (s : Bytes) := if s = (Json.obj ms).text then some (treeOf id ms) else none
    simdParseDepth dom (Json.obj ms).text = parseDepth (Json.obj ms).text := by
  intro ms dom
  refine simdParseDepth_eq_parseDepth (fun _ _ => rfl) (if_pos rfl) ?_ ?_
  · constructor
    case nodup => decide
    case number => exact List.forall_mem_singleton.mpr fun hkey => absurd hkey (by decide)
    case array =>
      exact List.forall_mem_singleton.mpr fun _ =>
        ⟨[[lit "1.5", lit "0.2", lit "["]], rfl, by decide⟩
    case other => exact List.forall_mem_singleton.mpr fun hkey => absurd (by decide) hkey
  · have hbids : lit "bids" ∉ ms.map Prod.fst := by decide
    have hasks : lit "asks" ∉ ms.map Prod.fst := by decide
    constructor
    case name => decide
    case key => exact fun _ _ _ => rfl
    case entry =>
      exact List.forall_mem_singleton.mpr fun _ => List.forall_mem_singleton.mpr
        ⟨lit "1.5", lit "0.2", [lit "["], rfl, by decide⟩
    case oneBids => exact fun _ _ hv => absurd (List.mem_map_of_mem hv) hbids
    case oneAsks => exact fun _ _ hv => absurd (List.mem_map_of_mem hv) hasks

end LobCapture
