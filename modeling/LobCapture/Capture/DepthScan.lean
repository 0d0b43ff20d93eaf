/-
# The built-in depth parser on JSON

`parse_depth` does not parse: it goes from quote to quote, and takes a quoted text for a key when a
colon follows.  On the text of an object it gets to every member all the same, as long as a name
has no quote in it, and every entry of a level array begins with two strings and is closed by the
next bracket behind these.  What it makes of the object is then what it makes of the members by
themselves, one after the other.
-/
import LobCapture.Capture.Csv
import LobCapture.Capture.Scan
import LobCapture.Lib.JsonText

namespace LobCapture

open Lib

/-- The names of the arrays of levels. -/
def levelKeys : List Bytes := [lit "bids", lit "b", lit "asks", lit "a"]

/-- A price and a quantity that are accepted. -/
def scaledLevel (price qty : Bytes) : Option Level :=
  match parseScaled price kPriceScalePow, parseScaled qty kQtyScalePow with
  | some price, some qty => some ⟨price, qty⟩
  | _, _ => none

/-- The strings that an entry of a level array begins with. -/
def leadingPair : Json → Option (Bytes × Bytes)
  | .arr (.str price :: .str qty :: _) => some (price, qty)
  | _ => none

/-- The level of an entry: its first two elements are strings, and are accepted. -/
def levelOf (e : Json) : Option Level := (leadingPair e).bind fun x => scaledLevel x.1 x.2

/-- The scanner reads the entry as it is meant. -/
def ScannableEntry (e : Json) : Prop :=
  ∃ price qty rest, e = .arr (.str price :: .str qty :: rest) ∧ quote ∉ price ∧ quote ∉ qty ∧
    closeBracket ∉ Json.itemsText rest

/-- The scanner gets behind the member. -/
structure ScannableMember (m : Bytes × Json) : Prop where
  name : quote ∉ m.1
  levels : m.1 ∈ levelKeys → ∃ es, m.2 = .arr es ∧ ∀ e ∈ es, ScannableEntry e
  scalar : m.1 ∉ levelKeys → (∃ t, m.2 = .num t ∧ ∀ c ∈ t, Json.isNumberChar c = true) ∨
    ∃ t, m.2 = .str t ∧ quote ∉ t

lemma ScannableEntry.length_pos {e : Json} (h : ScannableEntry e) : 0 < e.text.length := by
  obtain ⟨price, qty, rest, rfl, -⟩ := h
  exact Nat.succ_pos _

/-! ## Arrays of levels -/

section Levels

variable {s t : Bytes} {p rounds : ℕ} {out : List Level} {ok : Bool}

/-- The scan stops at the next `c`. -/
lemma skipWhile_ne {c : UInt8} {a rest : Bytes} (h : s.drop p = a ++ c :: rest) (ha : c ∉ a) :
    skipWhile s (· ≠ c) p = p + a.length := by
  refine skipWhile_of_drop h (fun d hd => ?_) (by simp)
  rw [decide_eq_true_eq]
  rintro rfl
  exact ha hd

lemma readLevelsLoop_entry {e : Json} (he : ScannableEntry e) (h : s.drop p = e.text ++ t) :
    readLevelsLoop s (rounds + 1) p out ok =
      readLevelsLoop s rounds (p + e.text.length) (out ++ (levelOf e).toList)
        (ok && (levelOf e).isSome) := by
  obtain ⟨price, qty, rest, rfl, hprice, hqty, hrest⟩ := he
  have htext : (Json.arr (.str price :: .str qty :: rest)).text =
      openBracket :: quote :: price ++ quote :: comma :: quote :: qty ++ quote ::
        Json.itemsText rest ++ [closeBracket] := by
    simp [Json.text_arr, openBracket, closeBracket, quote, comma]
  rw [htext] at h ⊢
  -- the rest of the text behind each quote
  have hps : s.drop (p + 1 + 1) = price ++ quote :: ([comma] ++ quote :: (qty ++ quote ::
      (Json.itemsText rest ++ closeBracket :: t))) := by
    rw [add_assoc, ← List.drop_drop, h]
    simp
  have hpe := drop_succ_of_drop (drop_add_of_drop hps)
  have hqs := drop_succ_of_drop (drop_add_of_drop hpe)
  have hqe := drop_succ_of_drop (drop_add_of_drop hqs)
  have hlen := lt_length_of_drop (drop_add_of_drop hqe)
  have hfirst : skipWhile s (· ≠ quote) (p + 1) = p + 1 :=
    skipWhile_of_head (drop_succ_of_drop h) (by simp)
  have hpq := skipWhile_ne hps hprice
  have hcomma := skipWhile_ne hpe (by decide)
  have hqq := skipWhile_ne hqs hqty
  have hclose := skipWhile_ne hqe hrest
  rw [readLevelsLoop, if_neg (not_le.mpr (lt_length_of_drop h)), charAt_of_drop h,
    if_neg (by decide), if_neg (by decide)]
  have hend : p + 1 + 1 + price.length + 1 + [comma].length + 1 + qty.length + 1 +
      (Json.itemsText rest).length + 1 =
      p + (openBracket :: quote :: price ++ quote :: comma :: quote :: qty ++ quote ::
        Json.itemsText rest ++ [closeBracket]).length := by
    simp only [List.length_append, List.length_cons, List.length_nil]
    omega
  simp only [hfirst, hpq, hcomma, hqq, hclose, slice_of_drop hps, slice_of_drop hqs]
  rw [if_neg (by omega), if_neg (by omega), if_neg (by omega), if_neg (by omega), if_pos hlen, hend]
  -- the level
  show _ = readLevelsLoop s rounds _ (out ++ (scaledLevel price qty).toList)
    (ok && (scaledLevel price qty).isSome)
  rw [scaledLevel]
  cases parseScaled price kPriceScalePow <;> cases parseScaled qty kQtyScalePow <;> simp

/-- The entries that are left, each behind a comma. -/
lemma readLevelsLoop_entries {es : List Json} (hes : ∀ e ∈ es, ScannableEntry e)
    (h : s.drop p = Json.itemsText es ++ closeBracket :: t) (hr : s.length < p + rounds) :
    readLevelsLoop s rounds p out ok =
      (p + (Json.itemsText es).length + 1, out ++ es.filterMap levelOf,
        ok && es.all fun e => (levelOf e).isSome) := by
  induction es generalizing p rounds out ok with
  | nil =>
    obtain ⟨r, rfl⟩ : ∃ r, rounds = r + 1 := ⟨rounds - 1, by have := lt_length_of_drop h; omega⟩
    rw [readLevelsLoop, if_neg (not_le.mpr (lt_length_of_drop h)), charAt_of_drop h, if_pos rfl]
    simp
  | cons e es ih =>
    rw [Json.itemsText_cons, List.cons_append, List.cons_append, List.append_assoc] at h
    have hentry := drop_succ_of_drop h
    have hlen := length_of_drop h (lt_length_of_drop h).le
    have hpos := (hes e List.mem_cons_self).length_pos
    simp only [List.length_cons, List.length_append] at hlen
    obtain ⟨r, rfl⟩ : ∃ r, rounds = r + 1 + 1 := ⟨rounds - 2, by omega⟩
    rw [readLevelsLoop, if_neg (not_le.mpr (lt_length_of_drop h)), charAt_of_drop h,
      if_neg (by decide), if_pos (by decide),
      readLevelsLoop_entry (hes e List.mem_cons_self) hentry,
      ih (fun e he => hes e (List.mem_cons_of_mem _ he)) (drop_add_of_drop hentry) (by omega)]
    cases hlevel : levelOf e <;> simp [hlevel] <;> omega

/-- **An array of levels.** -/
lemma readLevels_arr {es : List Json} (hes : ∀ e ∈ es, ScannableEntry e)
    (h : s.drop p = (Json.arr es).text ++ t) :
    readLevels s p out ok =
      (p + (Json.arr es).text.length, out ++ es.filterMap levelOf,
        ok && es.all fun e => (levelOf e).isSome) := by
  rw [Json.text_arr, List.append_assoc, List.cons_append] at h
  have hp := lt_length_of_drop h
  have hlen := length_of_drop h hp.le
  have hitems := drop_succ_of_drop h
  rw [readLevels, charAt_of_drop h, if_neg (by simp [hp, openBracket])]
  cases es with
  | nil =>
    rw [readLevelsLoop_entries hes hitems (by omega)]
    simp [Json.text_arr, add_assoc]
  | cons e es =>
    have hpos := (hes e List.mem_cons_self).length_pos
    rw [Json.itemsText_cons, List.cons_append, List.tail_cons, List.append_assoc] at hitems
    rw [readLevelsLoop_entry (hes e List.mem_cons_self) hitems,
      readLevelsLoop_entries (fun e he => hes e (List.mem_cons_of_mem _ he))
        (drop_add_of_drop hitems) (by omega)]
    cases hlevel : levelOf e <;> simp [hlevel, Json.text_arr] <;> omega

end Levels

/-! ## Members -/

/-- What a member does to the event, when it is read by itself. -/
def takeMember (x : DepthEvent × Bool) (m : Bytes × Json) : DepthEvent × Bool :=
  (parseDepth.member m.2.text m.1 0 x.1 x.2).2

section Members

variable {s t : Bytes} {p : ℕ} {out : DepthEvent} {ok : Bool} {m : Bytes × Json}

/-- The digits of a number end with it. -/
lemma readU64_of_drop {a : Bytes} (h : s.drop p = a ++ t) (ht : ∀ c ∈ t.head?, isDigit c = false) :
    readU64 s p = readU64 a 0 := by
  rw [readU64, readU64, h, List.drop_zero, List.takeWhile_append]
  split_ifs with hall
  · have hself : a.takeWhile isDigit = a :=
      (List.takeWhile_prefix _).eq_of_length hall
    have hnil : t.takeWhile isDigit = [] := by
      cases t with
      | nil => rfl
      | cons c t => exact List.takeWhile_cons_of_neg (by simp [ht c rfl])
    rw [hself, hnil, List.append_nil]
  · rfl

lemma member_bids {key : Bytes} (hkey : key = lit "bids" ∨ key = lit "b") (data : Bytes) (p : ℕ) :
    parseDepth.member data key p out ok =
      ((readLevels data p out.bids ok).1, { out with bids := (readLevels data p out.bids ok).2.1 },
        (readLevels data p out.bids ok).2.2) := by
  rcases hkey with rfl | rfl <;> rfl

lemma member_asks {key : Bytes} (hkey : key = lit "asks" ∨ key = lit "a") (data : Bytes) (p : ℕ) :
    parseDepth.member data key p out ok =
      ((readLevels data p out.asks ok).1, { out with asks := (readLevels data p out.asks ok).2.1 },
        (readLevels data p out.asks ok).2.2) := by
  rcases hkey with rfl | rfl <;> rfl

/-- The other members matter by the digits they start with. -/
lemma member_scalar {key : Bytes} (hkey : key ∉ levelKeys) {data : Bytes} {q : ℕ}
    (h : readU64 s p = readU64 data q) :
    parseDepth.member s key p out ok = (p, (parseDepth.member data key q out ok).2) := by
  have hkeys : ¬ (key = lit "bids" ∨ key = lit "b") ∧ ¬ (key = lit "asks" ∨ key = lit "a") := by
    simp only [levelKeys, List.mem_cons, List.not_mem_nil, or_false, not_or] at hkey ⊢
    tauto
  rw [parseDepth.member, parseDepth.member, if_neg hkeys.1, if_neg hkeys.2, h, if_neg hkeys.1,
    if_neg hkeys.2]
  split_ifs <;> rfl

/-- A member in the text has the effect that it has by itself. -/
lemma member_of_drop (hm : ScannableMember m) (h : s.drop p = m.2.text ++ t)
    (ht : ∀ c ∈ t.head?, isDigit c = false) :
    parseDepth.member s m.1 p out ok =
      (p + (if m.1 ∈ levelKeys then m.2.text.length else 0), takeMember (out, ok) m) := by
  rw [takeMember]
  by_cases hkey : m.1 ∈ levelKeys
  · obtain ⟨es, hes, hentries⟩ := hm.levels hkey
    have halone : m.2.text.drop 0 = (Json.arr es).text ++ [] := by simp [hes]
    rw [hes] at h
    have hkeys : (m.1 = lit "bids" ∨ m.1 = lit "b") ∨ m.1 = lit "asks" ∨ m.1 = lit "a" := by
      simpa [levelKeys, or_assoc] using hkey
    rw [if_pos hkey]
    rcases hkeys with hbids | hasks
    · rw [member_bids hbids, member_bids hbids, readLevels_arr hentries h,
        readLevels_arr hentries halone, hes]
    · rw [member_asks hasks, member_asks hasks, readLevels_arr hentries h,
        readLevels_arr hentries halone, hes]
  · rw [if_neg hkey, Nat.add_zero, member_scalar hkey (readU64_of_drop h ht)]

end Members

/-! ## The loop -/

section Loop

variable {s t junk x : Bytes} {i rounds : ℕ} {out : DepthEvent} {ok : Bool} {m : Bytes × Json}

/-- A quoted text without a colon behind it. -/
lemma parseDepthLoop_value {c : UInt8} (h : s.drop i = junk ++ quote :: (x ++ quote :: c :: t))
    (hjunk : quote ∉ junk) (hx : quote ∉ x) (hblank : c ≠ blank) (hcolon : c ≠ colon) :
    parseDepthLoop s (rounds + 1) i out ok =
      parseDepthLoop s rounds (i + junk.length + 1 + x.length + 1) out ok := by
  have hlt := lt_length_of_drop (drop_add_of_drop h)
  have hopen := drop_succ_of_drop (drop_add_of_drop h)
  have hclose := drop_succ_of_drop (drop_add_of_drop hopen)
  have hskip : skipWhile s (· = blank) (i + junk.length + 1 + x.length + 1) =
      i + junk.length + 1 + x.length + 1 :=
    skipWhile_of_head hclose (by simpa using hblank)
  rw [parseDepthLoop, if_neg (by omega), find_of_drop h hjunk]
  simp only [find_of_drop hopen hx, hskip, charAt_of_drop hclose]
  rw [if_pos (.inr hcolon)]

/-- A value does not begin with a blank. -/
lemma ScannableMember.head_ne_blank (hm : ScannableMember m) {c : UInt8} (hc : c ≠ blank) :
    ∀ d ∈ (m.2.text ++ c :: t).head?, d ≠ blank := by
  by_cases hkey : m.1 ∈ levelKeys
  · obtain ⟨es, hes, -⟩ := hm.levels hkey
    simp [hes, Json.text_arr, blank]
  · rcases hm.scalar hkey with ⟨n, hn, hchars⟩ | ⟨x, hx, -⟩
    · cases n with
      | nil => simpa [hn] using hc
      | cons d n =>
        rintro e he rfl
        obtain rfl : d = blank := by simpa [hn] using he
        exact absurd (hchars blank List.mem_cons_self) (by decide)
    · simp [hx, blank]

/-- The name of a member is found, and the value is read. -/
lemma parseDepthLoop_key (hm : ScannableMember m) {c : UInt8}
    (h : s.drop i = junk ++ (Json.memberText m ++ c :: t)) (hjunk : quote ∉ junk)
    (hc : c ≠ blank ∧ isDigit c = false) :
    parseDepthLoop s (rounds + 1) i out ok =
      parseDepthLoop s rounds
        (i + junk.length + 1 + m.1.length + 2 + if m.1 ∈ levelKeys then m.2.text.length else 0)
        (takeMember (out, ok) m).1 (takeMember (out, ok) m).2 := by
  have h' : s.drop i = junk ++ quote :: (m.1 ++ quote :: colon :: (m.2.text ++ c :: t)) := by
    rw [h, ← Prod.mk.eta (p := m), Json.memberText_mk]
    simp [quote, colon]
  have hlt := lt_length_of_drop (drop_add_of_drop h')
  have hopen := drop_succ_of_drop (drop_add_of_drop h')
  have hclose := drop_succ_of_drop (drop_add_of_drop hopen)
  have hvalue := drop_succ_of_drop hclose
  have hcolon : skipWhile s (· = blank) (i + junk.length + 1 + m.1.length + 1) =
      i + junk.length + 1 + m.1.length + 1 :=
    skipWhile_of_head hclose (by decide)
  have hskip : skipWhile s (· = blank) (i + junk.length + 1 + m.1.length + 1 + 1) =
      i + junk.length + 1 + m.1.length + 1 + 1 :=
    skipWhile_of_drop (a := []) hvalue (by simp)
      fun d hd => by simpa using hm.head_ne_blank hc.1 d hd
  rw [parseDepthLoop, if_neg (by omega), find_of_drop h' hjunk]
  simp only [find_of_drop hopen hm.name, hcolon, charAt_of_drop hclose, hskip,
    slice_of_drop hopen, member_of_drop hm hvalue (by simpa using hc.2)]
  rw [if_neg (not_or.mpr ⟨not_le.mpr (lt_length_of_drop hclose), not_not.mpr rfl⟩),
    if_pos (by omega)]

/-- A member: the scanner gets to the text behind it. -/
lemma parseDepthLoop_member (hm : ScannableMember m) {c : UInt8}
    (h : s.drop i = junk ++ (Json.memberText m ++ c :: t)) (hjunk : quote ∉ junk)
    (hc : c = comma ∨ c = closeBrace) (hr : s.length < i + rounds) :
    ∃ rounds' i' junk', parseDepthLoop s rounds i out ok =
        parseDepthLoop s rounds' i' (takeMember (out, ok) m).1 (takeMember (out, ok) m).2 ∧
      s.drop i' = junk' ++ c :: t ∧ quote ∉ junk' ∧ s.length < i' + rounds' := by
  have hblank : c ≠ blank := by rcases hc with rfl | rfl <;> decide
  have hcolon : c ≠ colon := by rcases hc with rfl | rfl <;> decide
  have hdigit : isDigit c = false := by rcases hc with rfl | rfl <;> decide
  have hpos : i < s.length := by
    by_contra hi
    rw [List.drop_eq_nil_of_le (not_lt.mp hi)] at h
    simp at h
  have htext : (junk ++ (Json.memberText m ++ c :: t)).length =
      junk.length + 1 + m.1.length + 2 + m.2.text.length + 1 + t.length := by
    rw [← Prod.mk.eta (p := m), Json.memberText_mk]
    simp
    omega
  have hlen := (length_of_drop h hpos.le).trans (congrArg (i + ·) htext)
  obtain ⟨r, rfl⟩ : ∃ r, rounds = r + 1 := ⟨rounds - 1, by omega⟩
  have hvalue : s.drop (i + junk.length + 1 + m.1.length + 2) = m.2.text ++ c :: t := by
    have hdrop : s.drop (i + (junk ++ 34 :: m.1 ++ 34 :: [58]).length) = m.2.text ++ c :: t := by
      refine drop_add_of_drop ?_
      rw [h, ← Prod.mk.eta (p := m), Json.memberText_mk]
      simp
    convert hdrop using 2
    simp
    omega
  rw [parseDepthLoop_key hm h hjunk ⟨hblank, hdigit⟩]
  by_cases hkey : m.1 ∈ levelKeys
  · -- the array has been read
    rw [if_pos hkey]
    exact ⟨r, _, [], rfl, drop_add_of_drop hvalue, by simp, by omega⟩
  · rw [if_neg hkey, Nat.add_zero]
    rcases hm.scalar hkey with ⟨n, hn, hchars⟩ | ⟨x, hx, hquote⟩
    · -- the search goes on at the number, which has no quote
      refine ⟨r, _, n, rfl, by rw [hvalue, hn, Json.text_num], fun hq => ?_, by omega⟩
      exact absurd (hchars _ hq) (by decide)
    · -- the string is passed over
      have hxlen : m.2.text.length = x.length + 2 := by simp [hx]
      obtain ⟨r, rfl⟩ : ∃ r', r = r' + 1 := ⟨r - 1, by omega⟩
      have hstr : s.drop (i + junk.length + 1 + m.1.length + 2) =
          [] ++ quote :: (x ++ quote :: c :: t) := by
        rw [hvalue, hx]
        simp [quote]
      refine ⟨r, _, [], parseDepthLoop_value hstr (by simp) hquote hblank hcolon, ?_, by simp, ?_⟩
      · have hopen := drop_succ_of_drop (drop_add_of_drop hstr)
        exact drop_succ_of_drop (drop_add_of_drop hopen)
      · simp only [List.length_nil]
        omega

/-- What follows a member. -/
lemma exists_membersText_append (ms : List (Bytes × Json)) :
    ∃ c t, Json.membersText ms ++ [closeBrace] = c :: t ∧ (c = comma ∨ c = closeBrace) := by
  cases ms with
  | nil => exact ⟨closeBrace, [], rfl, .inr rfl⟩
  | cons m ms => exact ⟨comma, _, rfl, .inl rfl⟩

/-- The members that are left. -/
lemma parseDepthLoop_members {ms : List (Bytes × Json)} (hms : ∀ m ∈ ms, ScannableMember m)
    (h : s.drop i = junk ++ (Json.membersText ms ++ [closeBrace])) (hjunk : quote ∉ junk)
    (hr : s.length < i + rounds) :
    parseDepthLoop s rounds i out ok = ms.foldl takeMember (out, ok) := by
  induction ms generalizing i rounds junk out ok with
  | nil =>
    obtain ⟨r, rfl⟩ : ∃ r, rounds = r + 1 := by
      refine ⟨rounds - 1, ?_⟩
      have hlen := congrArg List.length h
      simp only [List.length_drop, List.length_append, List.length_singleton] at hlen
      omega
    have hnone : find s [quote] i = none := by
      refine find_eq_none_of_drop fun hq => ?_
      rw [h] at hq
      rcases List.mem_append.mp hq with hq | hq
      · exact hjunk hq
      · exact absurd hq (by decide)
    rw [parseDepthLoop, hnone]
    split_ifs <;> rfl
  | cons m ms ih =>
    obtain ⟨c, t, hct, hc⟩ := exists_membersText_append ms
    have hmember : s.drop i = (junk ++ [comma]) ++ (Json.memberText m ++ c :: t) := by
      rw [h, ← hct]
      simp [comma]
    have hjunk' : quote ∉ junk ++ [comma] := by
      intro hq
      rcases List.mem_append.mp hq with hq | hq
      · exact hjunk hq
      · exact absurd hq (by decide)
    obtain ⟨r', i', junk', heq, hdrop, hquote, hr'⟩ :=
      parseDepthLoop_member (hms m List.mem_cons_self) hmember hjunk' hc hr
    rw [heq, ih (fun m hm => hms m (List.mem_cons_of_mem _ hm)) (hdrop.trans (by rw [hct])) hquote
      hr', List.foldl_cons]

end Loop

/-- What `parse_depth` returns when the text has been read. -/
def accepted (x : DepthEvent × Bool) : Option DepthEvent :=
  if x.2 = false then none
  else if x.1.u ≠ 0 ∨ x.1.lastUpdateId ≠ 0 ∨ x.1.bids ≠ [] ∨ x.1.asks ≠ [] then some x.1
  else none

/-- **The built-in parser takes the members one after the other.** -/
theorem parseDepth_obj {ms : List (Bytes × Json)} (hms : ∀ m ∈ ms, ScannableMember m) :
    parseDepth (Json.obj ms).text = accepted (ms.foldl takeMember ({}, true)) := by
  show accepted (parseDepthLoop (Json.obj ms).text ((Json.obj ms).text.length + 1) 0 {} true) = _
  congr 1
  cases ms with
  | nil => exact @parseDepthLoop_members _ [openBrace] _ _ _ _ _ hms rfl (by decide) (by omega)
  | cons m ms =>
    obtain ⟨c, t, hct, hc⟩ := exists_membersText_append ms
    have hmember : (Json.obj (m :: ms)).text.drop 0 =
        [openBrace] ++ (Json.memberText m ++ c :: t) := by
      rw [← hct, Json.text_obj, List.drop_zero]
      simp [openBrace, closeBrace]
    obtain ⟨r', i', junk', heq, hdrop, hquote, hr'⟩ :=
      parseDepthLoop_member (hms m List.mem_cons_self) hmember (by decide) hc
        (by omega : _ < 0 + ((Json.obj (m :: ms)).text.length + 1))
    rw [heq, parseDepthLoop_members (fun m hm => hms m (List.mem_cons_of_mem _ hm))
      (hdrop.trans (by rw [hct])) hquote hr', List.foldl_cons]

end LobCapture
