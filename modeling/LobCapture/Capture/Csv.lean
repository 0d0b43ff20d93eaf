/-
# The capture files

The rows that `csv_writer.cpp` writes, and the CSV reader of `replay.cpp`.
A field that is written in quotes when it has to be is read back as it was.
-/
import LobCapture.Capture.Json

namespace LobCapture

open Lib

/-- `,` -/
def comma : UInt8 := 44
/-- the carriage return -/
def carriageReturn : UInt8 := 13

/-! ## Writing -/

/-- `to_string`. -/
def Venue.toText : Venue → Bytes
  | .spot => lit "spot"
  | .usdm => lit "usdm"

/-- `to_string`. -/
def StreamKind.toText : StreamKind → Bytes
  | .depthDiff => lit "depth_diff"
  | .depth5 => lit "depth5"
  | .trade => lit "trade"

/-- `needs_quote`. -/
def needsQuote (s : Bytes) : Bool :=
  s.any fun c => c = comma || c = quote || c = newline || c = carriageReturn

/-- `csv_escape`. -/
def csvEscape (field : Bytes) : Bytes :=
  if needsQuote field = false then field
  else quote :: field.flatMap (fun c => if c = quote then [quote, c] else [c]) ++ [quote]

/-- `MarketDataWriter::header`. -/
def marketDataHeader : Bytes :=
  lit ("recv_tsec,recv_tnsec,venue,stream_kind,shard_id,conn_epoch,conn_seq,symbol," ++
    "payload_json")

/-- `MarketDataWriter::write_row`. -/
def writeRow (recv : Timestamp) (venue : Venue) (kind : StreamKind) (shardId : Int32)
    (connEpoch connSeq : UInt64) (symbol payloadJson : Bytes) : Bytes :=
  integer recv.tsec.toInt ++ comma :: integer recv.tnsec.toInt ++ comma :: venue.toText ++
    comma :: kind.toText ++ comma :: integer shardId.toInt ++ comma :: decimal connEpoch.toNat ++
    comma :: decimal connSeq.toNat ++ comma :: symbol ++ comma :: csvEscape payloadJson ++
    [newline]

/-- Fields with commas between them. -/
def joinFields : List Bytes → Bytes
  | [] => []
  | [f] => f
  | f :: g :: fs => f ++ comma :: joinFields (g :: fs)

/-- `OrderBookWriter::header`. -/
def orderBookHeader : Bytes :=
  lit ("tsec,tnsec,seqNo,id,type,side," ++
    "bid0,bid1,bid2,bid3,bid4,bid_size0,bid_size1,bid_size2,bid_size3,bid_size4," ++
    "ask0,ask1,ask2,ask3,ask4,ask_size0,ask_size1,ask_size2,ask_size3,ask_size4")

/-- `OrderBookWriter::write_row`. -/
def ObRow.writeRow (r : ObRow) : Bytes :=
  joinFields (integer r.ts.tsec.toInt :: integer r.ts.tnsec.toInt :: decimal r.seqNo.toNat ::
    integer r.id.toInt :: [r.type.toNat.toUInt8] :: [r.side.toNat.toUInt8] ::
    (r.bid ++ r.bidSize ++ r.ask ++ r.askSize).toList.map fun v => integer v.toInt) ++ [newline]

/-! ## Reading -/

/-- The loop of `parse_csv_line`, inside quotes or not, with the text of the current field. -/
def parseCsvLine.go : Bool → Bytes → Bytes → List Bytes
  | _, cur, [] => [cur]
  | true, cur, [ch] => if ch = quote then go false cur [] else go true (cur ++ [ch]) []
  | true, cur, ch :: next :: s =>
    if ch = quote then
      if next = quote then go true (cur ++ [quote]) s else go false cur (next :: s)
    else go true (cur ++ [ch]) (next :: s)
  | false, cur, ch :: s =>
    if ch = quote then go true cur s
    else if ch = comma then cur :: go false [] s
    else go false (cur ++ [ch]) s

/-- `parse_csv_line`. -/
def parseCsvLine (line : Bytes) : List Bytes := parseCsvLine.go false [] line

/-! ## Reading back -/

/-- No character of the field has a meaning in a CSV line. -/
def Plain (s : Bytes) : Prop := needsQuote s = false

instance plainDecidable (s : Bytes) : Decidable (Plain s) :=
  inferInstanceAs (Decidable (needsQuote s = false))

lemma plain_iff {s : Bytes} :
    Plain s ↔ comma ∉ s ∧ quote ∉ s ∧ newline ∉ s ∧ carriageReturn ∉ s := by
  simp only [Plain, needsQuote, List.any_eq_false]
  constructor
  · intro h
    refine ⟨fun hc => ?_, fun hc => ?_, fun hc => ?_, fun hc => ?_⟩ <;> exact h _ hc (by decide)
  · rintro ⟨hcomma, hquote, hnl, hcr⟩ c hc
    simp only [Bool.or_eq_true, decide_eq_true_eq, not_or]
    refine ⟨⟨⟨?_, ?_⟩, ?_⟩, ?_⟩ <;> rintro rfl <;> contradiction

lemma Plain.csvEscape {s : Bytes} (h : Plain s) : csvEscape s = s := by
  unfold LobCapture.csvEscape
  exact if_pos h

lemma plain_integer (i : ℤ) : Plain (integer i) := by
  rw [plain_iff]
  refine ⟨fun h => ?_, fun h => ?_, fun h => ?_, fun h => ?_⟩ <;>
    rcases mem_integer h with h | h <;> revert h <;> decide

lemma plain_decimal (n : ℕ) : Plain (decimal n) := by
  have h := plain_integer (n : ℤ)
  rwa [integer, if_neg (by omega), Int.natAbs_natCast] at h

namespace parseCsvLine

/-- Outside quotes plain text is taken as it is. -/
lemma go_plain {f : Bytes} (hquote : quote ∉ f) (hcomma : comma ∉ f) (cur s : Bytes) :
    go false cur (f ++ s) = go false (cur ++ f) s := by
  induction f generalizing cur with
  | nil => simp
  | cons c f ih =>
    rw [List.mem_cons, not_or] at hquote hcomma
    rw [List.cons_append, go, if_neg (Ne.symm hquote.1), if_neg (Ne.symm hcomma.1),
      ih hquote.2 hcomma.2]
    simp

/-- Inside quotes a character that is no quote is taken as it is. -/
lemma go_char {c : UInt8} (hc : c ≠ quote) (cur s : Bytes) :
    go true cur (c :: s) = go true (cur ++ [c]) s := by
  cases s with
  | nil => simp [go, hc]
  | cons d s => rw [go, if_neg hc]

/-- Inside quotes text with doubled quotes is taken as it is. -/
lemma go_quoted (f cur s : Bytes) :
    go true cur (f.flatMap (fun c => if c = quote then [quote, c] else [c]) ++ s) =
      go true (cur ++ f) s := by
  induction f generalizing cur with
  | nil => simp
  | cons c f ih =>
    rw [List.flatMap_cons, List.append_assoc]
    by_cases hc : c = quote
    · rw [if_pos hc, hc, List.cons_append, List.cons_append, List.nil_append, go, if_pos rfl,
        if_pos rfl, ih]
      simp
    · rw [if_neg hc, List.cons_append, List.nil_append, go_char hc, ih]
      simp

/-- A written field is read back, when the line ends behind it or goes on with a comma. -/
lemma go_csvEscape (f cur s : Bytes) (hs : s.head? ≠ some quote) :
    go false cur (csvEscape f ++ s) = go false (cur ++ f) s := by
  rw [csvEscape]
  split_ifs with h
  · obtain ⟨hcomma, hquote, -⟩ := plain_iff.mp h
    exact go_plain hquote hcomma cur s
  · rw [List.append_assoc, List.cons_append, go, if_pos rfl, go_quoted, List.singleton_append]
    cases s with
    | nil => simp [go]
    | cons c s =>
      have hc : c ≠ quote := by simpa using hs
      rw [go, if_pos rfl, if_neg hc]

end parseCsvLine

/-- **A line of fields is read back.** -/
lemma parseCsvLine_joinFields {fields : List Bytes} (h : fields ≠ []) :
    parseCsvLine (joinFields (fields.map csvEscape)) = fields := by
  have hgo : ∀ fs : List Bytes, fs ≠ [] →
      parseCsvLine.go false [] (joinFields (fs.map csvEscape)) = fs := by
    intro fs
    induction fs with
    | nil => exact fun h => absurd rfl h
    | cons f fs ih =>
      intro _
      cases fs with
      | nil =>
        -- the last field ends with the line, the others with a comma
        have hlast := parseCsvLine.go_csvEscape f [] [] (by simp)
        rwa [List.append_nil, List.nil_append] at hlast
      | cons g fs =>
        show parseCsvLine.go false []
          (csvEscape f ++ comma :: joinFields ((g :: fs).map csvEscape)) = f :: g :: fs
        rw [parseCsvLine.go_csvEscape _ _ _ (by simp [comma, quote]), parseCsvLine.go,
          if_neg (by decide), if_pos rfl, ih (by simp), List.nil_append]
  exact hgo fields h

lemma joinFields_eq_intercalate (fields : List Bytes) :
    joinFields fields = List.intercalate [comma] fields := by
  induction fields with
  | nil => rfl
  | cons f fs ih =>
    cases fs with
    | nil => simp [joinFields, List.intercalate]
    | cons g fs =>
      rw [joinFields, ih]
      simp [List.intercalate]

/-- **Reading a line undoes writing it**, whatever is in the fields. -/
theorem parseCsvLine_csvEscape (fields : List Bytes) (h : fields ≠ []) :
    parseCsvLine (List.intercalate [comma] (fields.map csvEscape)) = fields := by
  rw [← joinFields_eq_intercalate]
  exact parseCsvLine_joinFields h

/-- An empty field, a single quote, and fields that need quotes for other reasons. -/
theorem parseCsvLine_csvEscape_quotes :
    let fields := [[], [quote], lit "a,b", [quote, quote, newline], lit "c", [carriageReturn]]
    parseCsvLine (List.intercalate [comma] (fields.map csvEscape)) = fields :=
  parseCsvLine_csvEscape _ (by decide)

lemma newline_notMem_joinFields {fields : List Bytes} (h : ∀ f ∈ fields, newline ∉ f) :
    newline ∉ joinFields fields := by
  induction fields with
  | nil => simp [joinFields]
  | cons f fs ih =>
    have hrest := ih fun g hg => h g (List.mem_cons_of_mem _ hg)
    cases fs with
    | nil => exact h f List.mem_cons_self
    | cons g fs =>
      rw [joinFields, List.mem_append, List.mem_cons]
      rintro (hf | hc | hg)
      · exact h f List.mem_cons_self hf
      · exact absurd hc (by decide)
      · exact hrest hg

lemma newline_notMem_csvEscape {f : Bytes} (h : newline ∉ f) : newline ∉ csvEscape f := by
  rw [csvEscape]
  split_ifs
  · exact h
  · simp only [List.mem_append, List.mem_cons, List.mem_flatMap, List.not_mem_nil, or_false]
    rintro ((hq | ⟨c, hc, hmem⟩) | hq)
    · exact absurd hq (by decide)
    · split_ifs at hmem with hcq
      · rcases List.mem_cons.mp hmem with hq | hmem
        · exact absurd hq (by decide)
        · rw [← List.mem_singleton.mp hmem] at hc
          exact h hc
      · rw [← List.mem_singleton.mp hmem] at hc
        exact h hc
    · exact absurd hq (by decide)

end LobCapture
