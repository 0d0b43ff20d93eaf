/-
# The records of the market-data file

A replay takes the file apart by lines first, and only then looks at the quotes.  So a record is
what the handler has written exactly if there is no line break in the row, and the symbol, which
is never quoted, has no comma in it.
-/
import LobCapture.Capture.Files

namespace LobCapture

open Lib

/-- The records of a market-data file, the way `run_replay` reads them. -/
def records (md : Bytes) : List (List Bytes) :=
  (((lines md).drop 1).filter (· ≠ [])).map parseCsvLine

/-- A frame whose row is one line, and has no other commas than the separators. -/
def Frame.OneLine (fr : Frame) : Prop :=
  match splitEnvelope fr.text with
  | none => True
  | some (stream, data) =>
    newline ∉ data ∧ newline ∉ streamSymbol stream ∧ comma ∉ streamSymbol stream

instance oneLineDecidable (fr : Frame) : Decidable fr.OneLine := by
  unfold Frame.OneLine
  cases splitEnvelope fr.text with
  | none => exact inferInstanceAs (Decidable True)
  | some x => exact inferInstanceAs (Decidable (_ ∧ _ ∧ _))

/-! ## Symbols -/

lemma mem_map_toUpper {b : UInt8} (hb : b < 65) {s : Bytes} : b ∈ s.map toUpper ↔ b ∈ s := by
  have hiff : ∀ d, toUpper d = b ↔ d = b := by
    intro d
    rw [toUpper]
    split_ifs with hd
    · -- a letter stays one
      simp only [UInt8.le_iff_toNat_le, UInt8.lt_iff_toNat_lt] at hd hb
      have hsub : (d - 32).toNat = d.toNat - 32 := UInt8.toNat_sub_of_le _ _ (by
        rw [UInt8.le_iff_toNat_le]
        simp only [UInt8.reduceToNat] at hd ⊢
        omega)
      simp only [UInt8.reduceToNat] at hd hb
      rw [← UInt8.toNat_inj, ← UInt8.toNat_inj, hsub]
      omega
    · rfl
  rw [List.mem_map]
  constructor
  · rintro ⟨d, hd, h⟩
    rwa [← (hiff d).mp h]
  · exact fun h => ⟨b, h, (hiff b).mpr rfl⟩

/-- A text up to the first place of a character does not have the character. -/
lemma notMem_slice_of_find {s : Bytes} {q : UInt8} {a b : ℕ} (h : find s [q] a = some b) :
    q ∉ slice s a b := by
  intro hmem
  obtain ⟨k, hk⟩ := List.mem_iff_getElem?.mp hmem
  rw [slice, List.getElem?_take] at hk
  split_ifs at hk with hlt
  rw [find, List.find?_range'_eq_some] at h
  have hnot := h.2.2 (a + k) (by omega) (by omega)
  rw [List.getElem?_drop] at hk
  obtain ⟨hlen, hget⟩ := List.getElem?_eq_some_iff.mp hk
  rw [List.drop_eq_getElem_cons hlen, hget] at hnot
  simp at hnot

lemma quote_notMem_stream {frame stream data : Bytes}
    (h : splitEnvelope frame = some (stream, data)) : quote ∉ stream := by
  rw [splitEnvelope] at h
  cases hs : findKey frame (lit "stream") with
  | none => simp [hs] at h
  | some sp =>
    cases hd : findKey frame (lit "data") with
    | none => simp [hs, hd] at h
    | some dp =>
      simp only [hs, hd] at h
      generalize hassigned : (if charAt frame sp = quote then
        (find frame [quote] (sp + 1)).map fun b => slice frame (sp + 1) b else some []) =
          assigned at h
      cases assigned with
      | none => simp at h
      | some name =>
        dsimp only at h
        split_ifs at h
        obtain ⟨n, -, heq⟩ := Option.map_eq_some_iff.mp h
        obtain ⟨rfl, -⟩ := Prod.mk.inj heq
        split_ifs at hassigned
        · obtain ⟨b, hb, rfl⟩ := Option.map_eq_some_iff.mp hassigned
          exact notMem_slice_of_find hb
        · obtain rfl := Option.some.inj hassigned
          exact List.not_mem_nil

/-- A message is made of its stream name and its payload. -/
lemma message_eq_some {parse : Bytes → Option DepthEvent} {cfg : Config} {fr : Frame}
    {m : Message} (h : fr.message parse cfg = some m) :
    ∃ stream, splitEnvelope fr.text = some (stream, m.payload) ∧
      m.symbol = streamSymbol stream := by
  obtain ⟨⟨stream, data⟩, hx, rfl⟩ := Option.map_eq_some_iff.mp h
  dsimp only
  refine ⟨stream, ?_, ?_⟩
  · rw [hx]
    split
    · cases parse data <;> rfl
    · rfl
  · split
    · cases parse data <;> rfl
    · rfl

lemma quote_notMem_symbol {parse : Bytes → Option DepthEvent} {cfg : Config} {fr : Frame}
    {m : Message} (h : fr.message parse cfg = some m) : quote ∉ m.symbol := by
  obtain ⟨stream, hx, hsymbol⟩ := message_eq_some h
  rw [hsymbol, streamSymbol, mem_map_toUpper (by decide)]
  exact fun hq => quote_notMem_stream hx ((List.takeWhile_prefix _).subset hq)

lemma oneLine_iff {parse : Bytes → Option DepthEvent} {cfg : Config} {fr : Frame} {m : Message}
    (h : fr.message parse cfg = some m) :
    fr.OneLine ↔ newline ∉ m.payload ∧ newline ∉ m.symbol ∧ comma ∉ m.symbol := by
  obtain ⟨stream, hx, hsymbol⟩ := message_eq_some h
  rw [Frame.OneLine, hx, hsymbol]

/-! ## Reading a row -/

namespace parseCsvLine

/-- Fields without quotes and commas are read as they are. -/
lemma go_fields {fs : List Bytes} (h : ∀ f ∈ fs, quote ∉ f ∧ comma ∉ f) (s : Bytes) :
    go false [] (fs.flatMap (fun f => f ++ [comma]) ++ s) = fs ++ go false [] s := by
  induction fs with
  | nil => rfl
  | cons f fs ih =>
    obtain ⟨hquote, hcomma⟩ := h f List.mem_cons_self
    rw [List.flatMap_cons, List.append_assoc, List.append_assoc, go_plain hquote hcomma,
      List.singleton_append, go, if_neg (by decide), if_pos rfl,
      ih fun g hg => h g (List.mem_cons_of_mem _ hg)]
    rfl

/-- Outside quotes every comma ends a field. -/
lemma length_go {f : Bytes} (h : quote ∉ f) (cur s : Bytes) :
    ∃ cur', (go false cur (f ++ s)).length = f.count comma + (go false cur' s).length := by
  induction f generalizing cur with
  | nil => exact ⟨cur, by simp⟩
  | cons d f ih =>
    rw [List.mem_cons, not_or] at h
    rw [List.cons_append, go, if_neg (Ne.symm h.1)]
    by_cases hd : d = comma
    · obtain ⟨cur', hlen⟩ := ih h.2 []
      refine ⟨cur', ?_⟩
      rw [if_pos hd, List.length_cons, hlen, List.count_cons, if_pos (by simp [hd])]
      omega
    · obtain ⟨cur', hlen⟩ := ih h.2 (cur ++ [d])
      refine ⟨cur', ?_⟩
      rw [if_neg hd, hlen, List.count_cons, if_neg (by simp [hd]), Nat.add_zero]

lemma go_last (p cur : Bytes) : go false cur (csvEscape p) = [cur ++ p] := by
  have h := go_csvEscape p cur [] (by simp)
  rwa [List.append_nil, go] at h

end parseCsvLine

namespace Message

variable (cfg : Config) (x : Frame × Message)

/-- The fields before the payload. -/
def firstFields : List Bytes := (x.2.fields cfg x.1).take 8

/-- A row up to the payload. -/
def opening : Bytes := (firstFields cfg x).flatMap fun f => f ++ [comma]

/-- A row without the line break. -/
def text : Bytes := opening cfg x ++ csvEscape x.2.payload

variable {cfg x}

lemma row_eq_text : x.2.row cfg x.1 = text cfg x ++ [newline] := by
  simp [row, writeRow, text, opening, firstFields, fields]

/-- Apart from the symbol there is nothing in a field that has a meaning. -/
lemma plain_firstFields {f : Bytes} (hf : f ∈ firstFields cfg x) : f = x.2.symbol ∨ Plain f := by
  simp only [firstFields, fields, List.take_succ_cons, List.take_zero, List.mem_cons,
    List.not_mem_nil, or_false] at hf
  rcases hf with rfl | rfl | rfl | rfl | rfl | rfl | rfl | rfl
  · exact .inr (plain_integer _)
  · exact .inr (plain_integer _)
  · exact .inr (plain_venue _)
  · exact .inr (plain_kind _)
  · exact .inr (plain_integer _)
  · exact .inr (plain_decimal _)
  · exact .inr (plain_decimal _)
  · exact .inl rfl

lemma symbol_mem_firstFields : x.2.symbol ∈ firstFields cfg x := by
  simp [firstFields, fields]

lemma count_comma_opening : (opening cfg x).count comma = 8 + x.2.symbol.count comma := by
  have hzero : ∀ {f : Bytes}, Plain f → f.count comma = 0 := fun hf =>
    List.count_eq_zero.mpr (plain_iff.mp hf).1
  simp only [opening, firstFields, fields, List.take_succ_cons, List.take_zero,
    List.flatMap_cons, List.flatMap_nil, List.count_append, List.count_singleton_self,
    List.count_nil, hzero (plain_integer _), hzero (plain_venue _), hzero (plain_kind _),
    hzero (plain_decimal _)]
  omega

lemma mem_opening {b : UInt8} (h : b ∈ opening cfg x) :
    b = comma ∨ ∃ f ∈ firstFields cfg x, b ∈ f := by
  obtain ⟨f, hf, hb⟩ := List.mem_flatMap.mp h
  rcases List.mem_append.mp hb with hb | hb
  · exact .inr ⟨f, hf, hb⟩
  · exact .inl (List.mem_singleton.mp hb)

lemma quote_notMem_opening (h : quote ∉ x.2.symbol) : quote ∉ opening cfg x := by
  intro hq
  rcases mem_opening hq with hq | ⟨f, hf, hq⟩
  · exact absurd hq (by decide)
  · rcases plain_firstFields hf with rfl | hf
    · exact h hq
    · exact (plain_iff.mp hf).2.1 hq

lemma newline_notMem_opening : newline ∉ opening cfg x ↔ newline ∉ x.2.symbol := by
  constructor
  · exact fun h hmem => h (List.mem_flatMap.mpr
      ⟨_, symbol_mem_firstFields, List.mem_append_left _ hmem⟩)
  · intro h hq
    rcases mem_opening hq with hq | ⟨f, hf, hq⟩
    · exact absurd hq (by decide)
    · rcases plain_firstFields hf with rfl | hf
      · exact h hq
      · exact (plain_iff.mp hf).2.2.1 hq

lemma newline_notMem_text :
    newline ∉ text cfg x ↔ newline ∉ x.2.symbol ∧ newline ∉ x.2.payload := by
  rw [text, List.mem_append, not_or, newline_notMem_opening]
  refine and_congr_right fun _ => ⟨fun h hmem => h ?_, newline_notMem_csvEscape⟩
  rw [csvEscape]
  split_ifs
  · exact hmem
  · exact List.mem_append_left _ (List.mem_cons_of_mem _
      (List.mem_flatMap.mpr ⟨newline, hmem, by simp [newline, quote]⟩))

/-- A row starts with a number. -/
lemma exists_text_eq_cons : ∃ b s, text cfg x = b :: s ∧ b ≠ newline := by
  have hne : integer x.2.ts.tsec.toInt ≠ [] := by
    rw [integer]
    split_ifs
    · simp
    · exact decimal_ne_nil _
  obtain ⟨b, s, hb⟩ := List.exists_cons_of_ne_nil hne
  have hnl := (plain_iff.mp (plain_integer x.2.ts.tsec.toInt)).2.2.1
  rw [hb, List.mem_cons, not_or] at hnl
  rw [text, opening, firstFields, fields, List.take_succ_cons, List.flatMap_cons, hb]
  exact ⟨b, _, rfl, Ne.symm hnl.1⟩

/-- A broken row starts and ends with characters other than a line break. -/
lemma ends_of_broken {p q : Bytes} (h : text cfg x = p ++ newline :: q) :
    (∃ b ∈ p, b ≠ newline) ∧ ∃ b ∈ q, b ≠ newline := by
  constructor
  · obtain ⟨b, s, htext, hb⟩ := @exists_text_eq_cons cfg x
    rw [htext] at h
    cases p with
    | nil => exact absurd (List.cons.inj h).1 hb
    | cons b' p =>
      obtain rfl := (List.cons.inj h).1
      exact ⟨b, List.mem_cons_self, hb⟩
  by_cases hneeds : needsQuote x.2.payload = false
  · -- the row is broken in the symbol, and a comma follows
    have hpayload := (plain_iff.mp hneeds).2.2.1
    have hopening : opening cfg x = ((firstFields cfg x).take 7).flatMap (fun f => f ++ [comma]) ++
        (x.2.symbol ++ [comma]) := by
      simp [opening, firstFields, fields]
    rw [text, csvEscape, if_pos hneeds, hopening, ← List.append_assoc, List.append_assoc,
      List.singleton_append] at h
    rcases List.append_eq_append_iff.mp h with ⟨r, -, hr⟩ | ⟨r, -, hr⟩
    · have hmem : newline ∈ comma :: x.2.payload := by
        rw [hr]
        simp
      rcases List.mem_cons.mp hmem with hmem | hmem
      · exact absurd hmem (by decide)
      · exact absurd hmem hpayload
    · cases r with
      | nil => exact absurd (List.cons.inj hr).1 (by decide)
      | cons b r =>
        rw [(List.cons.inj hr).2]
        exact ⟨comma, by simp, by decide⟩
  · -- the row ends with a quote
    have hlast : (p ++ newline :: q).getLast? = some quote := by
      rw [← h, text, csvEscape, if_neg hneeds, ← List.append_assoc, List.getLast?_concat]
    rw [List.getLast?_append_cons] at hlast
    rcases List.mem_cons.mp (List.mem_of_getLast? hlast) with hmem | hmem
    · exact absurd hmem (by decide)
    · exact ⟨quote, hmem, by decide⟩

/-- **The row is read back** exactly if it is one line and its symbol has no comma. -/
lemma records_text (hq : quote ∉ x.2.symbol) :
    (fullLines (text cfg x)).map parseCsvLine = [x.2.fields cfg x.1] ↔
      newline ∉ x.2.payload ∧ newline ∉ x.2.symbol ∧ comma ∉ x.2.symbol := by
  have hparse : parseCsvLine (text cfg x) = x.2.fields cfg x.1 → comma ∉ x.2.symbol := by
    intro h
    obtain ⟨cur, hlen⟩ := parseCsvLine.length_go (@quote_notMem_opening cfg x hq) []
      (csvEscape x.2.payload)
    rw [parseCsvLine.go_last, count_comma_opening] at hlen
    rw [parseCsvLine, text] at h
    rw [h] at hlen
    refine List.count_eq_zero.mp ?_
    simp only [fields, List.length_cons, List.length_nil] at hlen
    omega
  constructor
  · intro h
    obtain ⟨l, hl, hfields⟩ := List.map_eq_singleton_iff.mp h
    obtain ⟨hnl, rfl⟩ := newline_notMem_of_fullLines hl fun p q => ends_of_broken
    obtain ⟨hsymbol, hpayload⟩ := newline_notMem_text.mp hnl
    exact ⟨hpayload, hsymbol, hparse hfields⟩
  · rintro ⟨hpayload, hsymbol, hcomma⟩
    obtain ⟨b, s, htext, -⟩ := @exists_text_eq_cons cfg x
    have hne : text cfg x ≠ [] := by simp [htext]
    rw [fullLines_of_notMem (newline_notMem_text.mpr ⟨hsymbol, hpayload⟩) hne, List.map_singleton,
      parseCsvLine, text, opening, parseCsvLine.go_fields, parseCsvLine.go_last]
    · rfl
    · intro f hf
      rcases plain_firstFields hf with rfl | hf
      · exact ⟨hq, hcomma⟩
      · exact ⟨(plain_iff.mp hf).2.1, (plain_iff.mp hf).1⟩

end Message

/-! ## Result -/

/-- A list that is put together from lists which are not empty, and has as many elements as there
are of these. -/
lemma flatMap_eq_map_iff {α β : Type*} {g : α → List β} {f : α → β} {l : List α}
    (h : ∀ x ∈ l, g x ≠ []) : l.flatMap g = l.map f ↔ ∀ x ∈ l, g x = [f x] := by
  constructor
  · induction l with
    | nil => simp
    | cons x l ih =>
      intro heq
      have hrest : ∀ z ∈ l, g z ≠ [] := fun z hz => h z (List.mem_cons_of_mem _ hz)
      rw [List.flatMap_cons, List.map_cons] at heq
      obtain ⟨b, r, hb⟩ := List.exists_cons_of_ne_nil (h x List.mem_cons_self)
      rw [hb, List.cons_append] at heq
      obtain ⟨rfl, hr⟩ := List.cons.inj heq
      -- the others have at least one element each
      have hle : l.length ≤ (l.flatMap g).length := by
        clear ih heq hr hb h
        induction l with
        | nil => simp
        | cons z l ih =>
          have hz := List.length_pos_iff.mpr (hrest z List.mem_cons_self)
          have hl := ih fun w hw => hrest w (List.mem_cons_of_mem _ hw)
          rw [List.flatMap_cons, List.length_append, List.length_cons]
          omega
      have hlen := congrArg List.length hr
      rw [List.length_append, List.length_map] at hlen
      obtain rfl : r = [] := List.length_eq_zero_iff.mp (by omega)
      intro z hz
      rcases List.mem_cons.mp hz with rfl | hz
      · exact hb
      · exact ih hrest hr z hz
  · intro heq
    rw [List.flatMap_congr heq, List.map_eq_flatMap]

variable {parse : Bytes → Option DepthEvent} {cfg : Config}

lemma records_runShard (frames : List Frame) :
    records (runShard parse cfg frames).1.md =
      (entries parse cfg frames).flatMap fun x =>
        (fullLines (Message.text cfg x)).map parseCsvLine := by
  have hrows : (entries parse cfg frames).flatMap (fun x => x.2.row cfg x.1) =
      (entries parse cfg frames).flatMap fun x => Message.text cfg x ++ [newline] :=
    List.flatMap_congr fun _ _ => Message.row_eq_text
  have hnew : (Shard.new cfg).md = marketDataHeader ++ [newline] := rfl
  rw [runShard, (run_handler parse cfg _ _).1, md_liveRun, hrows, hnew, records,
    List.append_assoc, List.singleton_append, lines_append (by decide), List.drop_succ_cons,
    List.drop_zero, ← List.map_flatMap, ← fullLines_flatMap]
  rfl

/-- **The market-data file reads back, exactly when every row is one line and no symbol has a
comma.** -/
theorem records_eq_iff (parse : Bytes → Option DepthEvent) (cfg : Config) (frames : List Frame) :
    records (runShard parse cfg frames).1.md =
        (entries parse cfg frames).map (fun x => x.2.fields cfg x.1) ↔
      ∀ fr ∈ frames, fr.OneLine := by
  have hne : ∀ x ∈ entries parse cfg frames,
      (fullLines (Message.text cfg x)).map parseCsvLine ≠ [] := by
    intro x _
    obtain ⟨b, s, htext, hb⟩ := @Message.exists_text_eq_cons cfg x
    rw [Ne, List.map_eq_nil_iff]
    exact fullLines_ne_nil (htext ▸ List.mem_cons_self) hb
  rw [records_runShard, flatMap_eq_map_iff hne]
  constructor
  · intro h fr hfr
    cases hm : fr.message parse cfg with
    | none =>
      -- the frame has no row
      rw [Frame.OneLine, Option.map_eq_none_iff.mp hm]
      trivial
    | some m =>
      have hx : (fr, m) ∈ entries parse cfg frames :=
        List.mem_filterMap.mpr ⟨fr, hfr, by rw [hm]; rfl⟩
      exact (oneLine_iff hm).mpr ((Message.records_text (quote_notMem_symbol hm)).mp (h _ hx))
  · intro h x hx
    obtain ⟨fr, hfr, hmap⟩ := List.mem_filterMap.mp hx
    obtain ⟨m, hm, rfl⟩ := Option.map_eq_some_iff.mp hmap
    exact (Message.records_text (quote_notMem_symbol hm)).mpr ((oneLine_iff hm).mp (h fr hfr))

/-- A trade with a line break between two of its tokens. -/
def brokenTrade : Frame where
  text := lit ("\x7b\"stream\":\"btcusdt@trade\",\"data\":\x7b\"e\":\"trade\",\n" ++
    "\"E\":1\x7d\x7d")
  connEpoch := 0
  connSeq := 0
  recvTs := ⟨7, 8⟩
  response := none
  snapTs := ⟨9, 10⟩

/-- The settings of a capture of one symbol. -/
def btcusdt : Config where
  venue := .spot
  symbols := [lit "BTCUSDT"]
  timePolicy := .recvWallClock
  integrateTrades := true
  shardId := 0

/-- The row of the trade is read back as two records. -/
theorem records_brokenTrade :
    let rows := (entries parseDepth btcusdt [brokenTrade]).map fun x => x.2.fields btcusdt x.1
    let read := records (runShard parseDepth btcusdt [brokenTrade]).1.md
    rows.length = 1 ∧ read.length = 2 ∧ read ≠ rows := by
  decide +kernel

end LobCapture
