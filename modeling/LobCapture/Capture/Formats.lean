/-
# The row formats

The rows of the three files are formatted with `snprintf` into buffers on the stack, and what is
written is as many characters of the buffer as the call returned.  That is the text of the row,
since no row or row prefix fills its buffer; and the text of an order-book row, cut at the commas,
has under each name of the header what the row has there.
-/
import LobCapture.Capture.Live
import LobCapture.Lib.Printf
import Mathlib.Data.Fintype.Basic
import Mathlib.Tactic.FinCases

namespace LobCapture

open Lib

/-! ## Writing -/

/-- The format of `OrderBookWriter::write_row`. -/
def orderBookFormat : Bytes :=
  lit ("%lld,%d,%llu,%d,%c,%c," ++
    "%lld,%lld,%lld,%lld,%lld,%lld,%lld,%lld,%lld,%lld," ++
    "%lld,%lld,%lld,%lld,%lld,%lld,%lld,%lld,%lld,%lld\n")

/-- The arguments of that format. -/
def ObRow.args (r : ObRow) : List Arg :=
  [.longLong r.ts.tsec, .int r.ts.tnsec, .unsignedLongLong r.seqNo, .int r.id,
    .char r.type.toNat.toUInt8, .char r.side.toNat.toUInt8,
    .longLong r.bid[0], .longLong r.bid[1], .longLong r.bid[2], .longLong r.bid[3],
    .longLong r.bid[4],
    .longLong r.bidSize[0], .longLong r.bidSize[1], .longLong r.bidSize[2],
    .longLong r.bidSize[3], .longLong r.bidSize[4],
    .longLong r.ask[0], .longLong r.ask[1], .longLong r.ask[2], .longLong r.ask[3],
    .longLong r.ask[4],
    .longLong r.askSize[0], .longLong r.askSize[1], .longLong r.askSize[2],
    .longLong r.askSize[3], .longLong r.askSize[4]]

/-- `OrderBookWriter::write_row` with its buffer: what is passed to the sink. -/
def ObRow.writeRowBuffered (r : ObRow) : Option Bytes :=
  (snprintf 640 orderBookFormat r.args).bind fun x => if x.2 > 0 then firstChars x else some []

/-- The format in `MarketDataWriter::write_row`. -/
def marketDataFormat : Bytes := lit "%lld,%d,%s,%s,%d,%llu,%llu,"

/-- The arguments of that format. -/
def marketDataArgs (recv : Timestamp) (venue : Venue) (kind : StreamKind) (shardId : Int32)
    (connEpoch connSeq : UInt64) : List Arg :=
  [.longLong recv.tsec, .int recv.tnsec, .string venue.toText, .string kind.toText, .int shardId,
    .unsignedLongLong connEpoch, .unsignedLongLong connSeq]

/-- `MarketDataWriter::write_row` with its buffer. -/
def writeRowBuffered (recv : Timestamp) (venue : Venue) (kind : StreamKind) (shardId : Int32)
    (connEpoch connSeq : UInt64) (symbol payloadJson : Bytes) : Option Bytes :=
  let args := marketDataArgs recv venue kind shardId connEpoch connSeq
  ((snprintf 128 marketDataFormat args).bind firstChars).map fun pre =>
    pre ++ symbol ++ [comma] ++ csvEscape payloadJson ++ [newline]

/-- The format in `resync`. -/
def snapshotFormat : Bytes := lit "%lld,%d,"

/-- The arguments of that format. -/
def snapshotArgs (t : Timestamp) : List Arg := [.longLong t.tsec, .int t.tnsec]

/-- The sidecar row of `resync` with its buffer. -/
def snapshotRowBuffered (t : Timestamp) (symbol : Bytes) (lastUpdateId : UInt64) (raw : Bytes) :
    Option Bytes :=
  ((snprintf 96 snapshotFormat (snapshotArgs t)).bind firstChars).map fun pre =>
    pre ++ symbol ++ [comma] ++ decimal lastUpdateId.toNat ++ [comma] ++ csvEscape raw ++ [newline]

/-! ## The texts -/

/-- Conversions with commas between them, and one more character. -/
def fieldDirectives (last : UInt8) : List Conversion → List Directive
  | [] => [.text last]
  | [k] => [.conversion k, .text last]
  | k :: k' :: ks => .conversion k :: .text comma :: fieldDirectives last (k' :: ks)

lemma render_fieldDirectives (last : UInt8) (args : List Arg) :
    render (fieldDirectives last (args.map Arg.conversion)) args =
      some (joinFields (args.map Arg.text) ++ [last]) := by
  induction args with
  | nil => rfl
  | cons a args ih =>
    cases args with
    | nil => simp [fieldDirectives, render, joinFields]
    | cons b args =>
      rw [List.map_cons, List.map_cons, fieldDirectives, render, if_pos rfl, render,
        ← List.map_cons, ih]
      simp [joinFields]

lemma sprintf_of_fieldDirectives {format : Bytes} {last : UInt8} {args : List Arg}
    (h : directives format = some (fieldDirectives last (args.map Arg.conversion))) :
    sprintf format args = some (joinFields (args.map Arg.text) ++ [last]) := by
  rw [sprintf, h, Option.bind_some, render_fieldDirectives]

lemma directives_orderBookFormat (r : ObRow) :
    directives orderBookFormat = some (fieldDirectives newline (r.args.map Arg.conversion)) := by
  rfl

lemma directives_marketDataFormat (recv : Timestamp) (venue : Venue) (kind : StreamKind)
    (shardId : Int32) (connEpoch connSeq : UInt64) :
    directives marketDataFormat = some (fieldDirectives comma
      ((marketDataArgs recv venue kind shardId connEpoch connSeq).map Arg.conversion)) := by
  rfl

lemma directives_snapshotFormat (t : Timestamp) :
    directives snapshotFormat =
      some (fieldDirectives comma ((snapshotArgs t).map Arg.conversion)) := by
  rfl

lemma toList_five {α : Type*} (v : Vector α 5) : v.toList = [v[0], v[1], v[2], v[3], v[4]] := by
  apply List.ext_getElem
  · simp
  · intro i hi _
    obtain ⟨k, rfl⟩ : ∃ k : Fin 5, i = k := ⟨⟨i, by simpa using hi⟩, rfl⟩
    rw [Vector.getElem_toList]
    fin_cases k <;> rfl

/-- The text of an order-book row. -/
lemma sprintf_orderBook (r : ObRow) : sprintf orderBookFormat r.args = some r.writeRow := by
  rw [sprintf_of_fieldDirectives (directives_orderBookFormat r)]
  simp only [ObRow.writeRow, ObRow.args, Vector.toList_append, toList_five]
  rfl

/-- The text that a market-data row begins with. -/
lemma sprintf_marketData (recv : Timestamp) (venue : Venue) (kind : StreamKind) (shardId : Int32)
    (connEpoch connSeq : UInt64) :
    sprintf marketDataFormat (marketDataArgs recv venue kind shardId connEpoch connSeq) =
      some (joinFields [integer recv.tsec.toInt, integer recv.tnsec.toInt, venue.toText,
        kind.toText, integer shardId.toInt, decimal connEpoch.toNat, decimal connSeq.toNat] ++
          [comma]) :=
  sprintf_of_fieldDirectives (directives_marketDataFormat ..)

/-- The text that a row of the sidecar begins with. -/
lemma sprintf_snapshot (t : Timestamp) :
    sprintf snapshotFormat (snapshotArgs t) =
      some (joinFields [integer t.tsec.toInt, integer t.tnsec.toInt] ++ [comma]) :=
  sprintf_of_fieldDirectives (directives_snapshotFormat t)

/-! ## The buffers -/

lemma length_fieldDirectives (last : UInt8) (ks : List Conversion) :
    (fieldDirectives last ks).length ≤ 2 * ks.length + 1 := by
  induction ks with
  | nil => exact le_rfl
  | cons k ks ih =>
    cases ks with
    | nil => simp [fieldDirectives]
    | cons k' ks =>
      rw [fieldDirectives]
      simp only [List.length_cons] at ih ⊢
      omega

/-- How long a text of fields can get. -/
lemma length_le_of_fieldDirectives {format : Bytes} {last : UInt8} {args : List Arg} {s : Bytes}
    (hformat : directives format = some (fieldDirectives last (args.map Arg.conversion)))
    (h : sprintf format args = some s) :
    s.length ≤ 2 * args.length + 1 + (args.map Arg.width).sum := by
  have hle := length_sprintf_le hformat h
  have hds := length_fieldDirectives last (args.map Arg.conversion)
  rw [List.length_map] at hds
  omega

section Buffers

variable (recv : Timestamp) (venue : Venue) (kind : StreamKind) (shardId : Int32)
  (connEpoch connSeq lastUpdateId : UInt64) (symbol payloadJson raw : Bytes)

/-- An order-book row fits into its buffer. -/
lemma length_orderBook (r : ObRow) : r.writeRow.length < 640 := by
  have hle := length_le_of_fieldDirectives (directives_orderBookFormat r) (sprintf_orderBook r)
  simp only [ObRow.args, List.length_cons, List.length_nil, List.map_cons, List.map_nil,
    List.sum_cons, List.sum_nil, Arg.width] at hle
  omega

/-- **An order-book row is written as its text.** -/
theorem ObRow.writeRowBuffered_eq (r : ObRow) : r.writeRowBuffered = some r.writeRow := by
  have hread := firstChars_snprintf (sprintf_orderBook r) (length_orderBook r)
  have hpos : 0 < r.writeRow.length := by simp [writeRow]
  rw [writeRowBuffered]
  rw [snprintf, sprintf_orderBook, Option.map_some, Option.bind_some] at hread ⊢
  rw [if_pos hpos, hread]

/-- What a market-data row begins with fits into its buffer. -/
lemma length_marketData {pre : Bytes}
    (h : sprintf marketDataFormat (marketDataArgs recv venue kind shardId connEpoch connSeq) =
      some pre) : pre.length < 128 := by
  have hvenue : venue.toText.length ≤ 4 := by cases venue <;> decide
  have hkind : kind.toText.length ≤ 10 := by cases kind <;> decide
  have hle := length_le_of_fieldDirectives
    (directives_marketDataFormat recv venue kind shardId connEpoch connSeq) h
  simp only [marketDataArgs, List.length_cons, List.length_nil, List.map_cons, List.map_nil,
    List.sum_cons, List.sum_nil, Arg.width] at hle
  omega

/-- **A market-data row is written as its text.** -/
theorem writeRowBuffered_eq :
    writeRowBuffered recv venue kind shardId connEpoch connSeq symbol payloadJson =
      some (writeRow recv venue kind shardId connEpoch connSeq symbol payloadJson) := by
  have hpre := sprintf_marketData recv venue kind shardId connEpoch connSeq
  rw [writeRowBuffered, firstChars_snprintf hpre (length_marketData _ _ _ _ _ _ hpre)]
  simp [writeRow, joinFields]

/-- What a row of the sidecar begins with fits into its buffer. -/
lemma length_snapshot {pre : Bytes} (h : sprintf snapshotFormat (snapshotArgs recv) = some pre) :
    pre.length < 96 := by
  have hle := length_le_of_fieldDirectives (directives_snapshotFormat recv) h
  simp only [snapshotArgs, List.length_cons, List.length_nil, List.map_cons, List.map_nil,
    List.sum_cons, List.sum_nil, Arg.width] at hle
  omega

/-- **A row of the sidecar is written as its text.** -/
theorem snapshotRowBuffered_eq :
    snapshotRowBuffered recv symbol lastUpdateId raw =
      some (snapshotRow recv symbol lastUpdateId raw) := by
  have hpre := sprintf_snapshot recv
  rw [snapshotRowBuffered, firstChars_snprintf hpre (length_snapshot _ hpre)]
  simp [snapshotRow, joinFields]

end Buffers

/-! ## Columns -/

/-- The columns of the order-book file. -/
def orderBookColumns : List Bytes := orderBookHeader.splitOn comma

lemma orderBookColumns_eq : orderBookColumns =
    [lit "tsec", lit "tnsec", lit "seqNo", lit "id", lit "type", lit "side",
      lit "bid0", lit "bid1", lit "bid2", lit "bid3", lit "bid4",
      lit "bid_size0", lit "bid_size1", lit "bid_size2", lit "bid_size3", lit "bid_size4",
      lit "ask0", lit "ask1", lit "ask2", lit "ask3", lit "ask4",
      lit "ask_size0", lit "ask_size1", lit "ask_size2", lit "ask_size3", lit "ask_size4"] := by
  decide

/-- The field in the column of a name. -/
def column (fields : List Bytes) (name : Bytes) : Option Bytes :=
  (orderBookColumns.zip fields).lookup name

/-- The integer in the column of a name. -/
def integerColumn (fields : List Bytes) (name : Bytes) : Option ℤ :=
  (column fields name).bind toInteger

/-- The fields of a line are those of the row, under the names of the header. -/
structure ObRow.ReadsBack (r : ObRow) (fields : List Bytes) : Prop where
  tsec : integerColumn fields (lit "tsec") = some r.ts.tsec.toInt
  tnsec : integerColumn fields (lit "tnsec") = some r.ts.tnsec.toInt
  seqNo : integerColumn fields (lit "seqNo") = some (r.seqNo.toNat : ℤ)
  id : integerColumn fields (lit "id") = some r.id.toInt
  type : column fields (lit "type") = some [r.type.toNat.toUInt8]
  side : column fields (lit "side") = some [r.side.toNat.toUInt8]
  bid : ∀ i : Fin 5, integerColumn fields (lit "bid" ++ decimal i) = some (r.bid.get i).toInt
  bidSize : ∀ i : Fin 5,
    integerColumn fields (lit "bid_size" ++ decimal i) = some (r.bidSize.get i).toInt
  ask : ∀ i : Fin 5, integerColumn fields (lit "ask" ++ decimal i) = some (r.ask.get i).toInt
  askSize : ∀ i : Fin 5,
    integerColumn fields (lit "ask_size" ++ decimal i) = some (r.askSize.get i).toInt

lemma integerColumn_eq {fields : List Bytes} {name : Bytes} {i : ℤ}
    (h : column fields name = some (integer i)) : integerColumn fields name = some i := by
  rw [integerColumn, h, Option.bind_some, toInteger_integer]

lemma ObRow.readsBack_args (r : ObRow) : r.ReadsBack (r.args.map Arg.text) := by
  have hcolumn : ∀ name, column (r.args.map Arg.text) name =
      (_ : List (Bytes × Bytes)).lookup name := fun name => by rw [column, orderBookColumns_eq]
  constructor
  case tsec => exact integerColumn_eq ((hcolumn _).trans rfl)
  case tnsec => exact integerColumn_eq ((hcolumn _).trans rfl)
  case seqNo =>
    rw [integerColumn, (hcolumn _).trans (show _ = some (decimal r.seqNo.toNat) from rfl),
      Option.bind_some, toInteger_decimal]
  case id => exact integerColumn_eq ((hcolumn _).trans rfl)
  case type => exact (hcolumn _).trans rfl
  case side => exact (hcolumn _).trans rfl
  case bid =>
    intro i
    refine integerColumn_eq ((hcolumn _).trans ?_)
    fin_cases i <;> rfl
  case bidSize =>
    intro i
    refine integerColumn_eq ((hcolumn _).trans ?_)
    fin_cases i <;> rfl
  case ask =>
    intro i
    refine integerColumn_eq ((hcolumn _).trans ?_)
    fin_cases i <;> rfl
  case askSize =>
    intro i
    refine integerColumn_eq ((hcolumn _).trans ?_)
    fin_cases i <;> rfl

/-- Fields without commas are found again between the commas. -/
lemma splitOn_joinFields {fields : List Bytes} (h : ∀ f ∈ fields, comma ∉ f) (hne : fields ≠ []) :
    (joinFields fields).splitOn comma = fields := by
  rw [joinFields_eq_intercalate]
  exact List.splitOn_intercalate comma h hne

lemma comma_notMem_text {a : Arg} (hchar : ∀ c, a = .char c → c ≠ comma)
    (hstring : ∀ s, a = .string s → comma ∉ s) : comma ∉ a.text := by
  cases a with
  | int v => exact (plain_iff.mp (plain_integer _)).1
  | longLong v => exact (plain_iff.mp (plain_integer _)).1
  | unsignedLongLong v => exact (plain_iff.mp (plain_decimal _)).1
  | char c => exact fun hmem => hchar c rfl (List.mem_singleton.mp hmem).symm
  | string s => exact hstring s rfl

/-- The fields of a row are found again. -/
lemma ObRow.splitOn_args {r : ObRow} (htype : r.type.toNat.toUInt8 ≠ comma)
    (hside : r.side.toNat.toUInt8 ≠ comma) :
    (joinFields (r.args.map Arg.text)).splitOn comma = r.args.map Arg.text := by
  have hchar : ∀ a ∈ r.args, ∀ c, a = .char c → c ≠ comma := by simp [args, htype, hside]
  have hstring : ∀ a ∈ r.args, ∀ s, a = .string s → comma ∉ s := by simp [args]
  refine splitOn_joinFields (fun f hf => ?_) (by simp [args])
  obtain ⟨a, ha, rfl⟩ := List.mem_map.mp hf
  exact comma_notMem_text (hchar a ha) (hstring a ha)

/-- **No row is cut off by its buffer, and the order-book rows read back.** -/
theorem rows_fit_and_readBack (r : ObRow) (htype : r.type.toNat.toUInt8 ≠ comma)
    (hside : r.side.toNat.toUInt8 ≠ comma) (recv : Timestamp) (venue : Venue) (kind : StreamKind)
    (shardId : Int32) (connEpoch connSeq lastUpdateId : UInt64)
    (symbol payloadJson raw : Bytes) :
    (∃ line, sprintf orderBookFormat r.args = some (line ++ [newline]) ∧
      (line ++ [newline]).length < 640 ∧ r.writeRowBuffered = some (line ++ [newline]) ∧
      (line.splitOn comma).length = 26 ∧ orderBookColumns.length = 26 ∧
      r.ReadsBack (line.splitOn comma)) ∧
    (∃ pre, sprintf marketDataFormat (marketDataArgs recv venue kind shardId connEpoch connSeq) =
        some pre ∧ pre.length < 128 ∧
      writeRowBuffered recv venue kind shardId connEpoch connSeq symbol payloadJson =
        some (pre ++ symbol ++ [comma] ++ csvEscape payloadJson ++ [newline])) ∧
    ∃ pre, sprintf snapshotFormat (snapshotArgs recv) = some pre ∧ pre.length < 96 ∧
      snapshotRowBuffered recv symbol lastUpdateId raw =
        some (pre ++ symbol ++ [comma] ++ decimal lastUpdateId.toNat ++ [comma] ++
          csvEscape raw ++ [newline]) := by
  have hrow := sprintf_of_fieldDirectives (directives_orderBookFormat r)
  have hmd := sprintf_marketData recv venue kind shardId connEpoch connSeq
  have hsnap := sprintf_snapshot recv
  have heq : r.writeRow = joinFields (r.args.map Arg.text) ++ [newline] :=
    Option.some.inj ((sprintf_orderBook r).symm.trans hrow)
  refine ⟨⟨joinFields (r.args.map Arg.text), hrow, ?_, ?_, ?_, by decide, ?_⟩,
    ⟨_, hmd, length_marketData _ _ _ _ _ _ hmd, ?_⟩, _, hsnap, length_snapshot _ hsnap, ?_⟩
  · exact heq ▸ length_orderBook r
  · exact heq ▸ r.writeRowBuffered_eq
  · rw [ObRow.splitOn_args htype hside, List.length_map]
    rfl
  · rw [ObRow.splitOn_args htype hside]
    exact r.readsBack_args
  · rw [writeRowBuffered, firstChars_snprintf hmd (length_marketData _ _ _ _ _ _ hmd),
      Option.map_some]
  · rw [snapshotRowBuffered, firstChars_snprintf hsnap (length_snapshot _ hsnap), Option.map_some]

/-- A row of the longest numbers. -/
theorem rows_fit_and_readBack_longest :
    let low : Vector Int64 5 := .replicate 5 Int64.minValue
    let r : ObRow := ⟨⟨Int64.minValue, Int32.minValue⟩, .ofNat (UInt64.size - 1), Int32.minValue,
      'D', 'N', low, low, low, low⟩
    ∃ line, r.writeRowBuffered = some (line ++ [newline]) ∧ (line.splitOn comma).length = 26 ∧
      integerColumn (line.splitOn comma) (lit "ask_size4") = some (-9223372036854775808) := by
  intro low r
  obtain ⟨⟨line, -, -, hwrite, hlen, -, hread⟩, -⟩ := rows_fit_and_readBack r (by decide)
    (by decide) {} .spot .trade 0 0 0 0 [] [] []
  exact ⟨line, hwrite, hlen, hread.askSize 4⟩

end LobCapture
