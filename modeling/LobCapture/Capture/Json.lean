/-
# The payload scanners

`json_min.cpp`: taking a combined-stream frame apart, and the built-in parser for depth payloads.
Positions are indices into the text.  The two parser loops move their position forward in every
round, so as many rounds as the text has characters are enough.
-/
import LobCapture.Book.Types
import LobCapture.Lib.Text
import Mathlib.Algebra.Order.Ring.Nat

namespace LobCapture

open Lib

/-! ## Characters and positions -/

/-- `"` -/
def quote : UInt8 := 34
/-- `-` -/
def minus : UInt8 := 45
/-- `.` -/
def dot : UInt8 := 46
/-- `:` -/
def colon : UInt8 := 58
/-- a blank -/
def blank : UInt8 := 32
/-- `[` -/
def openBracket : UInt8 := 91
/-- `]` -/
def closeBracket : UInt8 := 93
/-- the opening brace -/
def openBrace : UInt8 := 123
/-- the closing brace -/
def closeBrace : UInt8 := 125

/-- `s[p]`, which is `0` at the end of the text. -/
def charAt (s : Bytes) (p : ℕ) : UInt8 := s.getD p 0

/-- `s.substr(a, b - a)`. -/
def slice (s : Bytes) (a b : ℕ) : Bytes := (s.drop a).take (b - a)

/-- `s.find(pat, start)`. -/
def find (s pat : Bytes) (start : ℕ) : Option ℕ :=
  (List.range' start (s.length + 1 - start)).find? fun i => pat.isPrefixOf (s.drop i)

/-- `while (p < s.size() && f(s[p])) ++p;` -/
def skipWhile (s : Bytes) (f : UInt8 → Bool) (p : ℕ) : ℕ := p + ((s.drop p).takeWhile f).length

/-! ## Keys and numbers -/

/-- `find_key`: the place of the value, past the colon. -/
def findKey (s key : Bytes) : Option ℕ :=
  (find s (quote :: key ++ [quote]) 0).map fun p =>
    skipWhile s (fun c => c = blank || c = colon) (p + (key.length + 2))

def readU64 (s : Bytes) (p : ℕ) : UInt64 :=
  ((s.drop p).takeWhile isDigit).foldl (fun v c => v * 10 + (c - 48).toUInt64) 0

/-- The integer part in `parse_scaled`: its value, whether there is a digit, and the rest. -/
def parseScaled.intPart : Bytes → ℕ → Bool → Option (ℕ × Bool × Bytes)
  | [], v, any => some (v, any, [])
  | c :: s, v, any =>
    if c = dot then some (v, any, c :: s)
    else if isDigit c = false then none
    else
      let v := v * 10 + (c - 48).toNat
      if v > 2 ^ 63 then none else intPart s v true

/-- The digits after the point in `parse_scaled`: their value, their number, and whether there
is a digit. -/
def parseScaled.fracPart (scalePow : ℕ) : Bytes → ℕ → ℕ → Bool → Option (ℕ × ℕ × Bool)
  | [], frac, fracDigits, any => some (frac, fracDigits, any)
  | c :: s, frac, fracDigits, _ =>
    if isDigit c = false then none
    else if fracDigits < scalePow then
      fracPart scalePow s (frac * 10 + (c - 48).toNat) (fracDigits + 1) true
    else if c ≠ 48 then none
    else fracPart scalePow s frac fracDigits true

def parseScaled (s : Bytes) (scalePow : ℤ) : Option Int64 :=
  if s = [] ∨ scalePow < 0 ∨ scalePow > 18 then none
  else
    let neg := charAt s 0 = minus
    let s := if neg then s.drop 1 else s
    if s = [] then none
    else
      match parseScaled.intPart s 0 false with
      | none => none
      | some (intPart, any, rest) =>
        match parseScaled.fracPart scalePow.toNat (rest.drop 1) 0 0 any with
        | none => none
        | some (frac, fracDigits, any) =>
          if any = false then none
          else
            let scale := 10 ^ scalePow.toNat
            let magnitude := intPart * scale + frac * (scale / 10 ^ fracDigits)
            let limit := if neg then 2 ^ 63 else 2 ^ 63 - 1
            if magnitude > limit then none
            else if neg ∧ magnitude = 2 ^ 63 then some Int64.minValue
            else if neg then some (-.ofNat magnitude)
            else some (.ofNat magnitude)

def kPriceScalePow : ℤ := 8

def kQtyScalePow : ℤ := 8

/-! ## Levels -/

/-- The loop of `read_levels`: the position behind the array, the levels, and whether all of
them were accepted. -/
def readLevelsLoop (s : Bytes) : ℕ → ℕ → List Level → Bool → ℕ × List Level × Bool
  | 0, p, out, ok => (p, out, ok)
  | rounds + 1, p, out, ok =>
    if s.length ≤ p then (p, out, ok)
    else if charAt s p = closeBracket then (p + 1, out, ok)
    else if charAt s p ≠ openBracket then readLevelsLoop s rounds (p + 1) out ok
    else
      let toQuote := skipWhile s (· ≠ quote)
      let p := toQuote (p + 1)
      if p = s.length then (p, out, false)
      else
        let ps := p + 1
        let pe := toQuote ps
        if pe = s.length then (pe, out, false)
        else
          let p := toQuote (pe + 1)
          if p = s.length then (p, out, false)
          else
            let qs := p + 1
            let qe := toQuote qs
            if qe = s.length then (qe, out, false)
            else
              let price := parseScaled (slice s ps pe) kPriceScalePow
              let qty := parseScaled (slice s qs qe) kQtyScalePow
              let (out, ok) :=
                match price, qty with
                | some price, some qty => (out ++ [⟨price, qty⟩], ok)
                | _, _ => (out, false)
              let p := skipWhile s (· ≠ closeBracket) (qe + 1)
              readLevelsLoop s rounds (if p < s.length then p + 1 else p) out ok

def readLevels (s : Bytes) (p : ℕ) (out : List Level) (ok : Bool) : ℕ × List Level × Bool :=
  if s.length ≤ p ∨ charAt s p ≠ openBracket then (p, out, ok)
  else readLevelsLoop s (s.length + 1) (p + 1) out ok

/-! ## Frames and payloads -/

/-- The loop over the braces in `split_envelope`: the length of the object.  The depth is an `int`
in the source, which a frame of less than `2 ^ 31` bytes does not overflow
(`braceDepth_take_bounds`). -/
def objectLength : Bytes → ℤ → ℕ → Option ℕ
  | [], depth, n => if depth ≠ 0 then none else some n
  | c :: s, depth, n =>
    if c = openBrace then objectLength s (depth + 1) (n + 1)
    else if c = closeBrace then
      if depth - 1 = 0 then some (n + 1) else objectLength s (depth - 1) (n + 1)
    else objectLength s depth (n + 1)

/-- `split_envelope` with outputs that were cleared before the call: the stream name, which stays
empty when it is not a string, and the payload. -/
def splitEnvelope (frame : Bytes) : Option (Bytes × Bytes) :=
  match findKey frame (lit "stream"), findKey frame (lit "data") with
  | some sp, some dp =>
    let stream :=
      if charAt frame sp = quote then
        (find frame [quote] (sp + 1)).map fun b => slice frame (sp + 1) b
      else some []
    match stream with
    | none => none
    | some stream =>
      if charAt frame dp ≠ openBrace then none
      else (objectLength (frame.drop dp) 0 0).map fun n => (stream, slice frame dp (dp + n))
  | _, _ => none

def classifyStream (s : Bytes) : StreamKind :=
  if (find s (lit "@depth5") 0).isSome then .depth5
  else if (find s (lit "@trade") 0).isSome then .trade
  else .depthDiff

/-- One key of `parse_depth` with its value at `p`: the position behind it, and the event. -/
def parseDepth.member (data key : Bytes) (p : ℕ) (out : DepthEvent) (ok : Bool) :
    ℕ × DepthEvent × Bool :=
  if key = lit "E" then (p, { out with eventTimeMs := (readU64 data p).toInt64 }, ok)
  else if key = lit "T" then
    (p, if out.eventTimeMs = 0 then { out with eventTimeMs := (readU64 data p).toInt64 } else out,
      ok)
  else if key = lit "U" then (p, { out with U := readU64 data p }, ok)
  else if key = lit "u" then (p, { out with u := readU64 data p }, ok)
  else if key = lit "pu" then (p, { out with pu := readU64 data p, hasPu := true }, ok)
  else if key = lit "lastUpdateId" then (p, { out with lastUpdateId := readU64 data p }, ok)
  else if key = lit "bids" ∨ key = lit "b" then
    let (p, bids, ok) := readLevels data p out.bids ok
    (p, { out with bids := bids }, ok)
  else if key = lit "asks" ∨ key = lit "a" then
    let (p, asks, ok) := readLevels data p out.asks ok
    (p, { out with asks := asks }, ok)
  else (p, out, ok)

/-- The loop of `parse_depth`. -/
def parseDepthLoop (data : Bytes) : ℕ → ℕ → DepthEvent → Bool → DepthEvent × Bool
  | 0, _, out, ok => (out, ok)
  | rounds + 1, i, out, ok =>
    if data.length ≤ i then (out, ok)
    else
      match find data [quote] i with
      | none => (out, ok)
      | some q =>
        let keyStart := q + 1
        match find data [quote] keyStart with
        | none => (out, ok)
        | some keyEnd =>
          let colonPos := skipWhile data (· = blank) (keyEnd + 1)
          if data.length ≤ colonPos ∨ charAt data colonPos ≠ colon then
            -- quoted price/qty strings are array values, not keys
            parseDepthLoop data rounds (keyEnd + 1) out ok
          else
            let p := skipWhile data (· = blank) (colonPos + 1)
            let (p, out, ok) := parseDepth.member data (slice data keyStart keyEnd) p out ok
            parseDepthLoop data rounds (if p > keyEnd then p else keyEnd + 1) out ok

/-- The built-in `parse_depth` on an event that has been reset. -/
def parseDepth (data : Bytes) : Option DepthEvent :=
  let (out, ok) := parseDepthLoop data (data.length + 1) 0 {} true
  if ok = false then none
  else if out.u ≠ 0 ∨ out.lastUpdateId ≠ 0 ∨ out.bids ≠ [] ∨ out.asks ≠ [] then some out
  else none

def eventTimeMs (data : Bytes) : Int64 :=
  match findKey data (lit "E") with
  | some p => (readU64 data p).toInt64
  | none =>
    match findKey data (lit "T") with
    | some p => (readU64 data p).toInt64
    | none => 0

/-- A diff as the exchange sends it. -/
example :
    parseDepth (lit "\x7b\"U\":11,\"u\":12,\"b\":[[\"1.5\",\"0.2\"]],\"a\":[]\x7d") =
      some { U := 11, u := 12, bids := [⟨150000000, 20000000⟩] } := by
  decide +kernel

end LobCapture
