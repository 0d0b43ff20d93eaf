/-
# What a depth payload says

The event of a payload, read off its members by their names, and when the built-in parser gets it.
The parser takes the members in the order of the text, so an event time from `E` has to win over
one from `T` in either order, and every other member must not matter to the field of a name.
-/
import LobCapture.Capture.DepthScan
import LobCapture.Capture.Scaled

namespace LobCapture

open Lib

/-! ## The event -/

def idKeys : List Bytes := [lit "U", lit "u", lit "pu", lit "lastUpdateId"]

def timeKeys : List Bytes := [lit "E", lit "T"]

/-- The members of an object. -/
abbrev Members := List (Bytes × Json)

/-- The number of a name, `0` when it is absent. -/
def idOf (ms : Members) (key : Bytes) : UInt64 :=
  (ms.lookup key).elim 0 fun v => .ofNat (digitsValue v.text)

/-- The time of a name. -/
def timeOf (ms : Members) (key : Bytes) : Option Int64 :=
  (ms.lookup key).map fun v => .ofNat (digitsValue v.text)

/-- The items of a value, if it is an array. -/
def arrayItems (v : Json) : List Json := v.getArray.getD []

/-- The entries of one side of the book, which has two names. -/
def sideEntries (ms : Members) (key key' : Bytes) : List Json :=
  ((ms.lookup key).or (ms.lookup key')).elim [] arrayItems

def bidEntries (ms : Members) : List Json := sideEntries ms (lit "b") (lit "bids")

def askEntries (ms : Members) : List Json := sideEntries ms (lit "a") (lit "asks")

/-- What a payload says. -/
def payloadEvent (ms : Members) : DepthEvent where
  U := idOf ms (lit "U")
  u := idOf ms (lit "u")
  pu := idOf ms (lit "pu")
  hasPu := (ms.lookup (lit "pu")).isSome
  lastUpdateId := idOf ms (lit "lastUpdateId")
  eventTimeMs := ((timeOf ms (lit "E")).or (timeOf ms (lit "T"))).getD 0
  bids := (bidEntries ms).filterMap levelOf
  asks := (askEntries ms).filterMap levelOf

/-- Every entry has a level. -/
def allLevels (es : List Json) : Bool := es.all fun e => (levelOf e).isSome

lemma isNumberChar_of_mem_decimal (n : ℕ) : ∀ c ∈ decimal n, Json.isNumberChar c = true :=
  fun c hc => Json.isNumberChar_of_isDigit (isDigit_of_mem_decimal n c hc)

/-! ## One member -/

section Fields

variable {ms : Members} {x : DepthEvent × Bool}

/-- The value of a text of digits. -/
lemma readU64_digits {a : Bytes} (h : ∀ c ∈ a, isDigit c = true) :
    readU64 a 0 = .ofNat (digitsValue a) := by
  have hfold : ∀ (l : Bytes) (v : ℕ), (∀ c ∈ l, isDigit c = true) →
      l.foldl (fun v c => v * 10 + (c - 48).toUInt64) (UInt64.ofNat v) =
        .ofNat (l.foldl (fun v c => 10 * v + (c.toNat - 48)) v) := by
    intro l
    induction l with
    | nil => exact fun v _ => rfl
    | cons c l ih =>
      intro v hl
      have hc : (c - 48).toUInt64 = UInt64.ofNat (c.toNat - 48) := by
        rw [← (digit_toNat (hl c List.mem_cons_self)).1, UInt64.ofNat_uInt8ToNat]
      rw [List.foldl_cons, List.foldl_cons, ← ih _ fun d hd => hl d (List.mem_cons_of_mem _ hd), hc,
        UInt64.ofNat_add, UInt64.ofNat_mul, UInt64.mul_comm]
      rfl
  rw [readU64, List.drop_zero, List.takeWhile_eq_self_iff.mpr h]
  exact hfold a 0 h

/-- What a member leaves alone. -/
structure Untouched (name : Bytes) (before after : DepthEvent) : Prop where
  U : name ≠ lit "U" → after.U = before.U
  u : name ≠ lit "u" → after.u = before.u
  pu : name ≠ lit "pu" → after.pu = before.pu
  hasPu : name ≠ lit "pu" → after.hasPu = before.hasPu
  lastUpdateId : name ≠ lit "lastUpdateId" → after.lastUpdateId = before.lastUpdateId
  eventTimeMs : name ≠ lit "E" → name ≠ lit "T" → after.eventTimeMs = before.eventTimeMs
  appliedTime : after.appliedTime = before.appliedTime
  bids : ¬ (name = lit "bids" ∨ name = lit "b") → after.bids = before.bids
  asks : ¬ (name = lit "asks" ∨ name = lit "a") → after.asks = before.asks

lemma untouched_takeMember (x : DepthEvent × Bool) (m : Bytes × Json) :
    Untouched m.1 x.1 (takeMember x m).1 := by
  rw [takeMember, parseDepth.member]
  split_ifs
  all_goals constructor
  all_goals intros
  all_goals first | contradiction | rfl

variable (hnodup : (ms.map Prod.fst).Nodup)

include hnodup

omit hnodup in
lemma appliedTime_foldl (x : DepthEvent × Bool) :
    (ms.foldl takeMember x).1.appliedTime = x.1.appliedTime := by
  induction ms generalizing x with
  | nil => rfl
  | cons m ms ih => rw [List.foldl_cons, ih, (untouched_takeMember x m).appliedTime]

/-- The fields that one name sets. -/
lemma foldl_takeMember_id :
    let ev := (ms.foldl takeMember ({}, true)).1
    ev.U = (ms.lookup (lit "U")).elim 0 (readU64 ·.text 0) ∧
      ev.u = (ms.lookup (lit "u")).elim 0 (readU64 ·.text 0) ∧
      ev.pu = (ms.lookup (lit "pu")).elim 0 (readU64 ·.text 0) ∧
      ev.hasPu = (ms.lookup (lit "pu")).elim false (fun _ => true) ∧
      ev.lastUpdateId = (ms.lookup (lit "lastUpdateId")).elim 0 (readU64 ·.text 0) := by
  have hframe := untouched_takeMember
  exact ⟨foldl_lookup (f := fun x : DepthEvent × Bool => x.1.U) (fun _ _ => rfl)
      (fun x m => (hframe x m).U) hnodup _,
    foldl_lookup (f := fun x : DepthEvent × Bool => x.1.u) (fun _ _ => rfl)
      (fun x m => (hframe x m).u) hnodup _,
    foldl_lookup (f := fun x : DepthEvent × Bool => x.1.pu) (fun _ _ => rfl)
      (fun x m => (hframe x m).pu) hnodup _,
    foldl_lookup (f := fun x : DepthEvent × Bool => x.1.hasPu) (fun _ _ => rfl)
      (fun x m => (hframe x m).hasPu) hnodup _,
    foldl_lookup (f := fun x : DepthEvent × Bool => x.1.lastUpdateId) (fun _ _ => rfl)
      (fun x m => (hframe x m).lastUpdateId) hnodup _⟩

/-- The event time, which is that of `E` if there is one. -/
lemma foldl_takeMember_time (htime : ∀ m ∈ ms, m.1 ∈ timeKeys → (readU64 m.2.text 0).toInt64 ≠ 0)
    (x : DepthEvent × Bool) :
    (ms.foldl takeMember x).1.eventTimeMs =
      (ms.lookup (lit "E")).elim
        (if x.1.eventTimeMs ≠ 0 then x.1.eventTimeMs
        else (ms.lookup (lit "T")).elim 0 fun v => (readU64 v.text 0).toInt64)
        fun v => (readU64 v.text 0).toInt64 := by
  induction ms generalizing x with
  | nil =>
    by_cases h : x.1.eventTimeMs = 0 <;> simp [h]
  | cons m ms ih =>
    obtain ⟨hm, hms⟩ := List.nodup_cons.mp hnodup
    have hne := htime m List.mem_cons_self
    rw [List.foldl_cons, ih hms fun m hm => htime m (List.mem_cons_of_mem _ hm), List.lookup_cons,
      List.lookup_cons]
    rcases m with ⟨name, v⟩
    by_cases hE : name = lit "E"
    · -- a time from `T` does not overwrite it
      subst hE
      have htake : (takeMember x (lit "E", v)).1.eventTimeMs = (readU64 v.text 0).toInt64 := rfl
      rw [lookup_eq_none_of_notMem hm, htake,
        if_pos (hne (show lit "E" ∈ timeKeys by decide))]
      rfl
    · by_cases hT : name = lit "T"
      · subst hT
        have htake : (takeMember x (lit "T", v)).1.eventTimeMs =
            if x.1.eventTimeMs = 0 then (readU64 v.text 0).toInt64 else x.1.eventTimeMs := by
          rw [takeMember, parseDepth.member, if_neg (show lit "T" ≠ lit "E" by decide), if_pos rfl]
          split_ifs <;> rfl
        rw [beq_false_of_ne (Ne.symm hE), htake, beq_self_eq_true]
        by_cases hx : x.1.eventTimeMs = 0
        · have hv : (readU64 v.text 0).toInt64 ≠ 0 := hne (show lit "T" ∈ timeKeys by decide)
          simp [hx, hv]
        · simp [hx]
      · rw [beq_false_of_ne (Ne.symm hE), beq_false_of_ne (Ne.symm hT),
          (untouched_takeMember x (name, v)).eventTimeMs hE hT]

end Fields

/-! ## The two sides -/

section Sides

variable {ms : Members} {key key' : Bytes}

/-- The entries of a member, if it is the array of the side. -/
def sideOf (key key' : Bytes) (m : Bytes × Json) : List Json :=
  if m.1 = key' ∨ m.1 = key then arrayItems m.2 else []

/-- The array of the other name has to be empty if there are both. -/
def OneName (ms : Members) (key key' : Bytes) : Prop :=
  key ∈ ms.map Prod.fst → ∀ v, (key', v) ∈ ms → arrayItems v = []

lemma flatMap_sideOf (hnodup : (ms.map Prod.fst).Nodup) (hone : OneName ms key key') :
    ms.flatMap (sideOf key key') = sideEntries ms key key' := by
  rw [sideEntries]
  by_cases hkey : key ∈ ms.map Prod.fst
  · -- what is under `key'` is empty
    have hside : ms.flatMap (sideOf key key') =
        ms.flatMap fun m => if m.1 = key then arrayItems m.2 else [] := by
      refine List.flatMap_congr fun m hm => ?_
      rw [sideOf]
      by_cases hkey' : m.1 = key'
      · rw [if_pos (.inl hkey'), hone hkey m.2 (hkey' ▸ hm)]
        split_ifs <;> rfl
      · simp only [hkey', false_or]
    obtain ⟨m, hm, rfl⟩ := List.mem_map.mp hkey
    obtain ⟨v, hv⟩ : ∃ v, ms.lookup m.1 = some v := by
      rw [← Option.isSome_iff_exists, Option.isSome_iff_ne_none, ne_eq, List.lookup_eq_none_iff]
      exact fun hnone => absurd (hnone m hm) (by simp)
    rw [hside, flatMap_eq_lookup hnodup, hv]
    rfl
  · have hside : ms.flatMap (sideOf key key') =
        ms.flatMap fun m => if m.1 = key' then arrayItems m.2 else [] := by
      refine List.flatMap_congr fun m hm => ?_
      have hne : m.1 ≠ key := fun heq => hkey (heq ▸ List.mem_map_of_mem hm)
      simp only [sideOf, hne, or_false]
    rw [hside, flatMap_eq_lookup hnodup, lookup_eq_none_of_notMem hkey]
    rfl

def bidsOf : Bytes × Json → List Json := sideOf (lit "b") (lit "bids")

def asksOf : Bytes × Json → List Json := sideOf (lit "a") (lit "asks")

lemma exists_of_mem_sideEntries {e : Json} (he : e ∈ sideEntries ms key key') :
    ∃ m ∈ ms, (m.1 = key ∨ m.1 = key') ∧ e ∈ arrayItems m.2 := by
  rw [sideEntries] at he
  cases hv : ms.lookup key with
  | some v =>
    rw [hv] at he
    exact ⟨(key, v), mem_of_lookup hv, .inl rfl, he⟩
  | none =>
    cases hv' : ms.lookup key' with
    | some v =>
      rw [hv, hv'] at he
      exact ⟨(key', v), mem_of_lookup hv', .inr rfl, he⟩
    | none => simp [hv, hv'] at he

lemma mem_sides (hnodup : (ms.map Prod.fst).Nodup) (hbids : OneName ms (lit "b") (lit "bids"))
    (hasks : OneName ms (lit "a") (lit "asks")) {m : Bytes × Json} (hm : m ∈ ms)
    (hkey : m.1 ∈ levelKeys) {e : Json} (he : e ∈ arrayItems m.2) :
    e ∈ bidEntries ms ++ askEntries ms := by
  have hkeys : (m.1 = lit "bids" ∨ m.1 = lit "b") ∨ m.1 = lit "asks" ∨ m.1 = lit "a" := by
    simpa [levelKeys, or_assoc] using hkey
  rw [List.mem_append, bidEntries, askEntries, ← flatMap_sideOf hnodup hbids,
    ← flatMap_sideOf hnodup hasks]
  refine hkeys.imp (fun h => ?_) fun h => ?_
  · exact List.mem_flatMap.mpr ⟨m, hm, by rwa [sideOf, if_pos h]⟩
  · exact List.mem_flatMap.mpr ⟨m, hm, by rwa [sideOf, if_pos h]⟩

/-- What a member adds to the two sides. -/
lemma takeMember_levels {m : Bytes × Json} (hm : ScannableMember m) (x : DepthEvent × Bool) :
    (takeMember x m).1.bids = x.1.bids ++ (bidsOf m).filterMap levelOf ∧
      (takeMember x m).1.asks = x.1.asks ++ (asksOf m).filterMap levelOf ∧
      (takeMember x m).2 = (x.2 && allLevels (bidsOf m ++ asksOf m)) := by
  obtain ⟨name, v⟩ := m
  by_cases hbids : name = lit "bids" ∨ name = lit "b"
  · obtain ⟨es, rfl, hentries⟩ := hm.levels (by rcases hbids with rfl | rfl <;> simp [levelKeys])
    have hasks : ¬ (name = lit "asks" ∨ name = lit "a") := by rcases hbids with rfl | rfl <;> decide
    rw [takeMember, member_bids hbids, readLevels_arr hentries (t := []) (by simp)]
    simp [bidsOf, asksOf, sideOf, hbids, hasks, arrayItems, Json.getArray, allLevels]
  · by_cases hasks : name = lit "asks" ∨ name = lit "a"
    · obtain ⟨es, rfl, hentries⟩ := hm.levels (by rcases hasks with rfl | rfl <;> simp [levelKeys])
      rw [takeMember, member_asks hasks, readLevels_arr hentries (t := []) (by simp)]
      simp [bidsOf, asksOf, sideOf, hbids, hasks, arrayItems, Json.getArray, allLevels]
    · have hframe := untouched_takeMember x (name, v)
      have hok : (takeMember x (name, v)).2 = x.2 := by
        rw [takeMember, parseDepth.member]
        split_ifs <;> rfl
      simp [bidsOf, asksOf, sideOf, hbids, hasks, hframe.bids hbids, hframe.asks hasks, hok,
        allLevels]

end Sides

/-! ## The whole payload -/

/-- The members as the scanner reads them. -/
structure ReadableMembers (ms : Members) : Prop where
  nodup : (ms.map Prod.fst).Nodup
  scannable : ∀ m ∈ ms, ScannableMember m
  id : ∀ m ∈ ms, m.1 ∈ idKeys → ∃ n : UInt64, m.2 = .num (decimal n.toNat)
  time : ∀ m ∈ ms, m.1 ∈ timeKeys → ∃ n, 1 ≤ n ∧ n < 2 ^ 63 ∧ m.2 = .num (decimal n)
  oneBids : OneName ms (lit "b") (lit "bids")
  oneAsks : OneName ms (lit "a") (lit "asks")

variable {ms : Members}

namespace ReadableMembers

/-- The number of an id or a time. -/
lemma readU64_eq (h : ReadableMembers ms) {m : Bytes × Json} (hm : m ∈ ms)
    (hkey : m.1 ∈ idKeys ∨ m.1 ∈ timeKeys) :
    readU64 m.2.text 0 = .ofNat (digitsValue m.2.text) := by
  obtain ⟨n, hn⟩ : ∃ n : ℕ, m.2 = .num (decimal n) := by
    rcases hkey with hkey | hkey
    · obtain ⟨n, hn⟩ := h.id m hm hkey
      exact ⟨n.toNat, hn⟩
    · obtain ⟨n, -, -, hn⟩ := h.time m hm hkey
      exact ⟨n, hn⟩
  rw [hn, Json.text_num, readU64_digits (isDigit_of_mem_decimal n)]

lemma elim_readU64 (h : ReadableMembers ms) {key : Bytes} (hkey : key ∈ idKeys) :
    (ms.lookup key).elim 0 (readU64 ·.text 0) = idOf ms key := by
  rw [idOf]
  cases hv : ms.lookup key with
  | none => rfl
  | some v => exact h.readU64_eq (mem_of_lookup hv) (.inl hkey)

/-- A time is not `0`. -/
lemma time_ne_zero (h : ReadableMembers ms) {m : Bytes × Json} (hm : m ∈ ms)
    (hkey : m.1 ∈ timeKeys) : (readU64 m.2.text 0).toInt64 ≠ 0 := by
  rw [h.readU64_eq hm (.inr hkey)]
  obtain ⟨n, hpos, hlt, hn⟩ := h.time m hm hkey
  rw [hn, Json.text_num, digitsValue_decimal, UInt64.toInt64_ofNat', ne_eq, ← Int64.toInt_inj,
    Int64.toInt_ofNat_of_lt hlt]
  simp
  omega

lemma timeOf_ne_zero (h : ReadableMembers ms) {key : Bytes} (hkey : key ∈ timeKeys) :
    timeOf ms key ≠ some 0 := by
  rw [timeOf]
  intro htime
  obtain ⟨v, hv, hzero⟩ := Option.map_eq_some_iff.mp htime
  refine h.time_ne_zero (mem_of_lookup hv) hkey ?_
  rw [h.readU64_eq (mem_of_lookup hv) (.inr hkey), UInt64.toInt64_ofNat', hzero]

/-- **The members give the event**, and every entry has to have a level. -/
lemma foldl_takeMember (h : ReadableMembers ms) :
    ms.foldl takeMember ({}, true) =
      (payloadEvent ms, allLevels (bidEntries ms ++ askEntries ms)) := by
  obtain ⟨hU, hu, hpu, hhasPu, hlast⟩ := foldl_takeMember_id h.nodup
  have htime := foldl_takeMember_time h.nodup (fun m hm hkey => h.time_ne_zero hm hkey) ({}, true)
  have hbids := foldl_flatMap (f := fun x : DepthEvent × Bool => x.1.bids)
    (fun m hm x => (takeMember_levels (h.scannable m hm) x).1) ({}, true)
  have hasks := foldl_flatMap (f := fun x : DepthEvent × Bool => x.1.asks)
    (fun m hm x => (takeMember_levels (h.scannable m hm) x).2.1) ({}, true)
  have hok := foldl_all (f := fun x : DepthEvent × Bool => x.2)
    (fun m hm x => (takeMember_levels (h.scannable m hm) x).2.2) ({}, true)
  have hbidEntries : ms.flatMap bidsOf = bidEntries ms := flatMap_sideOf h.nodup h.oneBids
  have haskEntries : ms.flatMap asksOf = askEntries ms := flatMap_sideOf h.nodup h.oneAsks
  refine Prod.ext ?_ ?_
  · ext1
    case U => exact hU.trans (h.elim_readU64 (by decide))
    case u => exact hu.trans (h.elim_readU64 (by decide))
    case pu => exact hpu.trans (h.elim_readU64 (by decide))
    case lastUpdateId => exact hlast.trans (h.elim_readU64 (by decide))
    case hasPu =>
      rw [hhasPu]
      show _ = (ms.lookup (lit "pu")).isSome
      cases ms.lookup (lit "pu") <;> rfl
    case appliedTime => exact appliedTime_foldl _
    case bids =>
      rw [hbids, ← List.filterMap_flatMap, hbidEntries]
      rfl
    case asks =>
      rw [hasks, ← List.filterMap_flatMap, haskEntries]
      rfl
    case eventTimeMs =>
      have hread : ∀ key ∈ timeKeys, ∀ v, ms.lookup key = some v →
          (readU64 v.text 0).toInt64 = .ofNat (digitsValue v.text) := by
        intro key hkey v hv
        rw [h.readU64_eq (mem_of_lookup hv) (.inr hkey), UInt64.toInt64_ofNat']
      rw [htime]
      show _ = ((timeOf ms (lit "E")).or (timeOf ms (lit "T"))).getD 0
      rw [timeOf, timeOf]
      cases hE : ms.lookup (lit "E") with
      | some v => exact hread _ (by decide) v hE
      | none =>
        cases hT : ms.lookup (lit "T") with
        | some v => exact hread _ (by decide) v hT
        | none => rfl
  · show (ms.foldl takeMember ({}, true)).2 = _
    rw [hok, Bool.true_and, Bool.eq_iff_iff]
    simp only [← hbidEntries, ← haskEntries, allLevels, List.all_eq_true, List.mem_append,
      List.mem_flatMap]
    constructor
    · rintro hall e (⟨m, hm, he⟩ | ⟨m, hm, he⟩)
      · exact hall m hm e (.inl he)
      · exact hall m hm e (.inr he)
    · rintro hall m hm e (he | he)
      · exact hall e (.inl ⟨m, hm, he⟩)
      · exact hall e (.inr ⟨m, hm, he⟩)

/-- **What the built-in parser makes of a payload.** -/
theorem parseDepth_eq (h : ReadableMembers ms) :
    parseDepth (Json.obj ms).text =
      accepted (payloadEvent ms, allLevels (bidEntries ms ++ askEntries ms)) := by
  rw [parseDepth_obj h.scannable, h.foldl_takeMember]

end ReadableMembers

/-! ## Well-shaped payloads -/

/-- All the names that the parser knows. -/
def knownKeys : List Bytes := idKeys ++ timeKeys ++ levelKeys

/-- A payload with the members that the exchange sends, whatever the entries of its arrays are.  The
names are the texts between the quotes. -/
structure DepthPayload (ms : Members) : Prop where
  nodup : (ms.map Prod.fst).Nodup
  name : ∀ m ∈ ms, quote ∉ m.1
  id : ∀ m ∈ ms, m.1 ∈ idKeys → ∃ n : UInt64, m.2 = .num (decimal n.toNat)
  time : ∀ m ∈ ms, m.1 ∈ timeKeys → ∃ n, 1 ≤ n ∧ n < 2 ^ 63 ∧ m.2 = .num (decimal n)
  array : ∀ m ∈ ms, m.1 ∈ levelKeys → ∃ es, m.2 = .arr es
  oneBids : ¬ (lit "b" ∈ ms.map Prod.fst ∧ lit "bids" ∈ ms.map Prod.fst)
  oneAsks : ¬ (lit "a" ∈ ms.map Prod.fst ∧ lit "asks" ∈ ms.map Prod.fst)
  other : ∀ m ∈ ms, m.1 ∉ knownKeys →
    (∃ t, m.2 = .num t ∧ ∀ c ∈ t, Json.isNumberChar c = true) ∨ ∃ t, m.2 = .str t ∧ quote ∉ t

/-- Every entry is a pair of a price and a quantity. -/
structure WellShaped (ms : Members) : Prop extends DepthPayload ms where
  pair : ∀ e ∈ bidEntries ms ++ askEntries ms, ∃ price qty, e = .arr [.str price, .str qty] ∧
    (parseScaled price kPriceScalePow).isSome = true ∧
      (parseScaled qty kQtyScalePow).isSome = true

namespace DepthPayload

lemma oneName (h : DepthPayload ms) :
    OneName ms (lit "b") (lit "bids") ∧ OneName ms (lit "a") (lit "asks") :=
  ⟨fun hb _ hv => absurd ⟨hb, List.mem_map_of_mem hv⟩ h.oneBids,
    fun ha _ hv => absurd ⟨ha, List.mem_map_of_mem hv⟩ h.oneAsks⟩

/-- The scanner gets through the payload when it gets through the entries. -/
lemma readable (h : DepthPayload ms)
    (hentries : ∀ e ∈ bidEntries ms ++ askEntries ms, ScannableEntry e) : ReadableMembers ms where
  nodup := h.nodup
  id := h.id
  time := h.time
  oneBids := h.oneName.1
  oneAsks := h.oneName.2
  scannable m hm :=
    { name := h.name m hm
      levels := fun hkey => by
        obtain ⟨es, hes⟩ := h.array m hm hkey
        refine ⟨es, hes, fun e he => hentries e ?_⟩
        refine mem_sides h.nodup h.oneName.1 h.oneName.2 hm hkey ?_
        rwa [hes]
      scalar := fun hkey => by
        by_cases hid : m.1 ∈ idKeys
        · obtain ⟨n, hn⟩ := h.id m hm hid
          exact .inl ⟨_, hn, isNumberChar_of_mem_decimal _⟩
        · by_cases htime : m.1 ∈ timeKeys
          · obtain ⟨n, -, -, hn⟩ := h.time m hm htime
            exact .inl ⟨_, hn, isNumberChar_of_mem_decimal _⟩
          · exact h.other m hm (by simp [knownKeys, hid, htime, hkey]) }

end DepthPayload

/-- An accepted number has no quote. -/
lemma quote_notMem_of_parseScaled {s : Bytes} (h : (parseScaled s 8).isSome = true) :
    quote ∉ s := by
  obtain ⟨out, hout⟩ := Option.isSome_iff_exists.mp h
  obtain ⟨d, rfl⟩ := @exists_decimal _ 8 (by omega) _ hout
  intro hq
  rcases d.mem_text hq with hq | hq | hq <;> exact absurd hq (by decide)

namespace WellShaped

lemma readable (h : WellShaped ms) : ReadableMembers ms := by
  refine h.toDepthPayload.readable fun e he => ?_
  obtain ⟨price, qty, rfl, hprice, hqty⟩ := h.pair e he
  exact ⟨price, qty, [], rfl, quote_notMem_of_parseScaled hprice,
    quote_notMem_of_parseScaled hqty, by simp⟩

lemma allLevels_eq (h : WellShaped ms) : allLevels (bidEntries ms ++ askEntries ms) = true := by
  refine List.all_eq_true.mpr fun e he => ?_
  obtain ⟨price, qty, rfl, hprice, hqty⟩ := h.pair e he
  obtain ⟨p, hp⟩ := Option.isSome_iff_exists.mp hprice
  obtain ⟨q, hq⟩ := Option.isSome_iff_exists.mp hqty
  show (scaledLevel price qty).isSome = true
  rw [scaledLevel, hp, hq]
  rfl

end WellShaped

/-- Every entry has its level. -/
lemma map_levelOf {es : List Json} (h : allLevels es = true) :
    es.map levelOf = (es.filterMap levelOf).map some := by
  induction es with
  | nil => rfl
  | cons e es ih =>
    obtain ⟨he, hes⟩ := Bool.and_eq_true_iff.mp (List.all_cons.symm.trans h)
    obtain ⟨l, hl⟩ := Option.isSome_iff_exists.mp he
    rw [List.map_cons, List.filterMap_cons_some hl, List.map_cons, hl, ih hes]

/-- **The built-in parser decodes every well-shaped payload.** -/
theorem parseDepth_wellShaped (h : WellShaped ms) :
    let ev := payloadEvent ms
    (bidEntries ms).map levelOf = ev.bids.map some ∧
      (askEntries ms).map levelOf = ev.asks.map some ∧
      parseDepth (Json.obj ms).text =
        if ev.u ≠ 0 ∨ ev.lastUpdateId ≠ 0 ∨ ev.bids ≠ [] ∨ ev.asks ≠ [] then some ev else none := by
  have hall := h.allLevels_eq
  have hsides := List.all_append.symm.trans hall
  rw [Bool.and_eq_true] at hsides
  refine ⟨map_levelOf hsides.1, map_levelOf hsides.2, ?_⟩
  rw [h.readable.parseDepth_eq, hall]
  rfl

/-- A payload with a value that is spelled like a key. -/
theorem parseDepth_wellShaped_mixed :
    let ms : Members := [(lit "e", .str (lit "u")), (lit "T", .num (lit "7")),
      (lit "u", .num (lit "12")), (lit "E", .num (lit "5")),
      (lit "b", .arr [.arr [.str (lit "1.5"), .str (lit "0.2")]])]
    let ev := payloadEvent ms
    (bidEntries ms).map levelOf = ev.bids.map some ∧
      (askEntries ms).map levelOf = ev.asks.map some ∧
      parseDepth (Json.obj ms).text =
        if ev.u ≠ 0 ∨ ev.lastUpdateId ≠ 0 ∨ ev.bids ≠ [] ∨ ev.asks ≠ [] then some ev
        else none := by
  refine parseDepth_wellShaped ⟨?_, ?_⟩
  case refine_2 =>
    exact List.forall_mem_singleton.mpr ⟨_, _, rfl, by decide, by decide⟩
  constructor
  case nodup => decide
  case name => decide
  case oneBids => decide
  case oneAsks => decide
  case id =>
    intro m hm hkey
    simp only [List.mem_cons, List.not_mem_nil, or_false] at hm
    rcases hm with rfl | rfl | rfl | rfl | rfl
    all_goals first | exact absurd hkey (by decide) | exact ⟨12, rfl⟩
  case time =>
    intro m hm hkey
    simp only [List.mem_cons, List.not_mem_nil, or_false] at hm
    rcases hm with rfl | rfl | rfl | rfl | rfl
    all_goals first
      | exact absurd hkey (by decide)
      | exact ⟨7, by decide, by decide, rfl⟩
      | exact ⟨5, by decide, by decide, rfl⟩
  case array =>
    intro m hm hkey
    simp only [List.mem_cons, List.not_mem_nil, or_false] at hm
    rcases hm with rfl | rfl | rfl | rfl | rfl
    all_goals first
      | exact absurd hkey (by decide)
      | exact ⟨_, rfl⟩
  case other =>
    intro m hm hkey
    simp only [List.mem_cons, List.not_mem_nil, or_false] at hm
    rcases hm with rfl | rfl | rfl | rfl | rfl
    all_goals first
      | exact absurd hkey (by decide)
      | exact .inr ⟨_, rfl, by decide⟩

/-- A name with an escaped quote in it makes the parser lose the next member. -/
theorem parseDepth_escaped_quote :
    let ms : Members := [(lit "x\\\"", .num (lit "1")), (lit "u", .num (lit "5"))]
    (Json.obj ms).text = lit "\x7b\"x\\\"\":1,\"u\":5\x7d" ∧ (payloadEvent ms).u = 5 ∧
      parseDepth (Json.obj ms).text = none := by
  decide +kernel

end LobCapture
