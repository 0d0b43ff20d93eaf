/-
# The handler with its buffers

`run_shard` keeps the texts that the handler takes a frame apart into, and one event for each of
its symbols, from one message to the next.  This is the handler as it is written, on these
buffers; nothing of an earlier message is left in what it makes of the next one.
-/
import LobCapture.Capture.Live

namespace LobCapture

open Lib

/-! ## Outputs that are filled in place -/

/-- A parser that fills an event in place, and says whether it accepts the payload. -/
abbrev Parser := Bytes → DepthEvent → Bool × DepthEvent

/-- A parser on a new event. -/
def Parser.fresh (parser : Parser) (data : Bytes) : Option DepthEvent :=
  let (accepted, ev) := parser data {}
  if accepted then some ev else none

/-- The built-in `parse_depth`. -/
def parseDepthInto : Parser := fun data out =>
  let (out, ok) := parseDepthLoop data (data.length + 1) 0 out true
  (ok && (out.u ≠ 0 ∨ out.lastUpdateId ≠ 0 ∨ out.bids ≠ [] ∨ out.asks ≠ [] : Bool), out)

lemma fresh_parseDepthInto (data : Bytes) : parseDepthInto.fresh data = parseDepth data := by
  simp only [Parser.fresh, parseDepthInto, parseDepth]
  by_cases hok : (parseDepthLoop data (data.length + 1) 0 {} true).2 = true <;> simp [hok]

/-- `reset_depth_event`. -/
def resetDepthEvent (ev : DepthEvent) : DepthEvent :=
  { ev with
    U := 0
    u := 0
    pu := 0
    hasPu := false
    lastUpdateId := 0
    eventTimeMs := 0
    appliedTime := {}
    bids := []
    asks := [] }

/-- A reset event is a new one. -/
@[simp]
lemma resetDepthEvent_eq (ev : DepthEvent) : resetDepthEvent ev = {} := rfl

/-- `split_envelope`: whether the frame is accepted, and the two outputs. -/
def splitEnvelopeInto (frame stream data : Bytes) : Bool × Bytes × Bytes :=
  match findKey frame (lit "stream"), findKey frame (lit "data") with
  | some sp, some dp =>
    let assigned :=
      if charAt frame sp = quote then
        (find frame [quote] (sp + 1)).map fun b => slice frame (sp + 1) b
      else some stream
    match assigned with
    | none => (false, stream, data)
    | some stream =>
      if charAt frame dp ≠ openBrace then (false, stream, data)
      else
        match objectLength (frame.drop dp) 0 0 with
        | none => (false, stream, data)
        | some n => (true, stream, slice frame dp (dp + n))
  | _, _ => (false, stream, data)

/-- On cleared outputs, the outputs are those of the frame. -/
lemma splitEnvelopeInto_cleared (frame : Bytes) :
    match splitEnvelope frame with
    | none => (splitEnvelopeInto frame [] []).1 = false
    | some (stream, data) => splitEnvelopeInto frame [] [] = (true, stream, data) := by
  rw [splitEnvelope, splitEnvelopeInto]
  cases findKey frame (lit "stream") with
  | none => rfl
  | some sp =>
    cases findKey frame (lit "data") with
    | none => rfl
    | some dp =>
      dsimp only
      generalize (if charAt frame sp = quote then
        (find frame [quote] (sp + 1)).map fun b => slice frame (sp + 1) b else some []) = assigned
      cases assigned with
      | none => rfl
      | some stream =>
        dsimp only
        by_cases hd : charAt frame dp ≠ openBrace
        · rw [if_pos hd, if_pos hd]
        · rw [if_neg hd, if_neg hd]
          cases objectLength (frame.drop dp) 0 0 <;> rfl

/-! ## The handler -/

/-- The state of a shard with the buffers of the handler. -/
structure BufferedShard extends Shard where
  stream : Bytes := []
  data : Bytes := []
  symStr : Bytes := []
  /-- the event that the payloads of a symbol are parsed into -/
  scratch : Bytes → DepthEvent := fun _ => {}

variable (parser : Parser) (cfg : Config)

/-- The handler from the classified stream to the market-data row: the payload is parsed into the
event of its symbol, and a timestamp is chosen. -/
def BufferedShard.readPayload (s : BufferedShard) (fr : Frame) : BufferedShard × Message :=
  let kind := classifyStream s.stream
  let stamp (ms : Int64) :=
    if cfg.timePolicy = .binanceEventTime ∧ ms > 0 then msToTs ms else fr.recvTs
  if (kind = .depthDiff ∨ kind = .depth5) ∧ cfg.symbols.contains s.symStr then
    let (ok, ev) := parser s.data (resetDepthEvent (s.scratch s.symStr))
    let ts := if ok then stamp ev.eventTimeMs else fr.recvTs
    let ev := { ev with appliedTime := ts }
    let s := { s with scratch := fun y => if y = s.symStr then ev else s.scratch y }
    (s, ⟨s.symStr, kind, s.data, ts, if ok then some (s.scratch s.symStr) else none⟩)
  else (s, ⟨s.symStr, kind, s.data, stamp (eventTimeMs s.data), none⟩)

/-- The handler up to the market-data row, on its buffers. -/
def BufferedShard.readFrame (s : BufferedShard) (fr : Frame) : BufferedShard × Option Message :=
  let s := { s with stream := [], data := [] }
  let (accepted, stream, data) := splitEnvelopeInto fr.text s.stream s.data
  let s := { s with stream := stream, data := data }
  if accepted = false then (s, none)
  else
    let s := { s with symStr := streamSymbol s.stream }
    let (s, m) := s.readPayload parser cfg fr
    (s, some m)

/-- `handler`, on its buffers. -/
def handlerInPlace (s : BufferedShard) (fr : Frame) : BufferedShard × Option (Bytes × Fetch) :=
  match s.readFrame parser cfg fr with
  | (s, none) => (s, none)
  | (s, some m) =>
    let (shard, r) := s.toShard.take parser.fresh cfg (fr, m)
    ({ s with toShard := shard }, some r)

variable {parser cfg}

lemma toShard_readPayload (s : BufferedShard) (fr : Frame) :
    (s.readPayload parser cfg fr).1.toShard = s.toShard := by
  simp only [BufferedShard.readPayload]
  split_ifs <;> rfl

/-- What is read from a frame does not depend on what is in the buffers. -/
lemma readFrame_eq (s : BufferedShard) (fr : Frame) :
    (s.readFrame parser cfg fr).1.toShard = s.toShard ∧
      (s.readFrame parser cfg fr).2 = fr.message parser.fresh cfg := by
  have hsplit := splitEnvelopeInto_cleared fr.text
  cases henv : splitEnvelope fr.text with
  | none =>
    rw [henv] at hsplit
    simp only [BufferedShard.readFrame, Frame.message, henv, Option.map_none, hsplit, if_true,
      and_self]
  | some x =>
    obtain ⟨stream, data⟩ := x
    rw [henv] at hsplit
    simp only [BufferedShard.readFrame, hsplit, Bool.true_eq_false, if_false,
      toShard_readPayload, true_and]
    simp only [BufferedShard.readPayload, Frame.message, henv, Option.map_some,
      resetDepthEvent_eq, Option.some.injEq, List.contains_iff_mem]
    by_cases hdepth : (classifyStream stream = .depthDiff ∨ classifyStream stream = .depth5) ∧
        streamSymbol stream ∈ cfg.symbols
    · -- the event of the symbol is reset before it is filled
      rw [if_pos hdepth, if_pos hdepth, Parser.fresh]
      by_cases hok : (parser data {}).1 = true <;> simp [hok]
    · rw [if_neg hdepth, if_neg hdepth]

/-- **The buffers carry nothing over**: whatever is left in them, the handler does the same. -/
lemma handlerInPlace_eq (s : BufferedShard) (fr : Frame) :
    (handlerInPlace parser cfg s fr).1.toShard = (handler parser.fresh cfg s.toShard fr).1 ∧
      (handlerInPlace parser cfg s fr).2 = (handler parser.fresh cfg s.toShard fr).2 := by
  obtain ⟨hshard, hmessage⟩ := @readFrame_eq parser cfg s fr
  rw [handlerInPlace, handler, ← hmessage]
  cases h : s.readFrame parser cfg fr with
  | mk s' m =>
    rw [h] at hshard
    dsimp only at hshard ⊢
    cases m with
    | none => exact ⟨hshard, rfl⟩
    | some m =>
      rw [← hshard]
      exact ⟨rfl, rfl⟩

end LobCapture
