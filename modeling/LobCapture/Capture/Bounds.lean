/-
# The scanners stay inside of the text

The scanners of `json_min.cpp` as they are written, one character after the other: every read of a
character, and every piece of the text that is taken out, is checked, and every loop may go round
as often as `rounds` says.  On any text whatsoever, as many rounds as the text has characters and
one more are enough, no check fails, and what is returned is what the scanners of `Capture.Json`
return.
-/
import LobCapture.Capture.Buffers
import LobCapture.Lib.Guarded

namespace LobCapture

open Lib

namespace Bounded

variable (rounds : ℕ)

/-! ## The scanners -/

/-- `while (p < s.size() && f(s[p])) ++p;` -/
def skipWhile (s : Bytes) (f : UInt8 → Bool) (p : ℕ) : Guarded ℕ :=
  loop (fun p =>
    if p < s.length then do
      let c ← readAt s p
      if f c then return .inl (p + 1) else return .inr p
    else return .inr p) rounds p

/-- `find_key`. -/
def findKey (s key : Bytes) : Guarded (Option ℕ) :=
  match find s (quote :: key ++ [quote]) 0 with
  | none => return none
  | some p => do
    let p ← skipWhile rounds s (fun c => c = blank || c = colon) (p + (key.length + 2))
    return some p

/-- `read_u64`. -/
def readU64 (s : Bytes) (p : ℕ) : Guarded UInt64 :=
  loop (fun x =>
    if x.2 < s.length then do
      let c ← readAt s x.2
      if isDigit c then return .inl (x.1 * 10 + (c - 48).toUInt64, x.2 + 1) else return .inr x.1
    else return .inr x.1) rounds (0, p)

/-- `key_eq`. -/
def keyEq (s : Bytes) (start len : ℕ) (key : Bytes) : Guarded Bool :=
  if len = key.length then do
    let t ← range s start (start + len)
    return decide (t = key)
  else return false

/-- The state of the loop of `read_levels`: the position, the levels, and whether all of them were
accepted. -/
abbrev LevelsState := ℕ × List Level × Bool

/-- A round of the loop of `read_levels`, which says with the result whether it returns from the
function. -/
def levelsRound (s : Bytes) : LevelsState → Guarded (LevelsState ⊕ Bool × LevelsState)
  | (p, out, ok) =>
    if p < s.length then do
      let c ← readAt s p
      if c = closeBracket then return .inr (false, p, out, ok)
      else if c ≠ openBracket then return .inl (p + 1, out, ok)
      else do
        let p ← skipWhile rounds s (· ≠ quote) (p + 1)
        if p = s.length then return .inr (true, p, out, false)
        else do
          let ps := p + 1
          let pe ← skipWhile rounds s (· ≠ quote) ps
          if pe = s.length then return .inr (true, pe, out, false)
          else do
            let p ← skipWhile rounds s (· ≠ quote) (pe + 1)
            if p = s.length then return .inr (true, p, out, false)
            else do
              let qs := p + 1
              let qe ← skipWhile rounds s (· ≠ quote) qs
              if qe = s.length then return .inr (true, qe, out, false)
              else do
                let price ← range s ps pe
                let qty ← range s qs qe
                let (out, ok) :=
                  match parseScaled price kPriceScalePow, parseScaled qty kQtyScalePow with
                  | some price, some qty => (out ++ [⟨price, qty⟩], ok)
                  | _, _ => (out, false)
                let p ← skipWhile rounds s (· ≠ closeBracket) (qe + 1)
                return .inl (if p < s.length then p + 1 else p, out, ok)
    else return .inr (false, p, out, ok)

/-- `read_levels`. -/
def readLevels (s : Bytes) (p : ℕ) (out : List Level) (ok : Bool) : Guarded LevelsState :=
  if s.length ≤ p then return (p, out, ok)
  else do
    let c ← readAt s p
    if c ≠ openBracket then return (p, out, ok)
    else do
      let (returned, p, out, ok) ← loop (levelsRound rounds s) rounds (p + 1, out, ok)
      if returned then return (p, out, ok)
      else if p < s.length then do
        let c ← readAt s p
        return (if c = closeBracket then p + 1 else p, out, ok)
      else return (p, out, ok)

/-- A round of the loop over the braces in `split_envelope`, with the depth of `objectLength`. -/
def braceRound (frame : Bytes) : ℤ × ℕ → Guarded (ℤ × ℕ ⊕ ℤ × ℕ)
  | (depth, i) =>
    if i < frame.length then do
      let c ← readAt frame i
      if c = openBrace then return .inl (depth + 1, i + 1)
      else if c = closeBrace then
        if depth - 1 = 0 then return .inr (depth - 1, i + 1) else return .inl (depth - 1, i + 1)
      else return .inl (depth, i + 1)
    else return .inr (depth, i)

/-- The stream name that `split_envelope` goes on with, unless the string at `sp` does not end. -/
def assignStream (frame stream : Bytes) (sp : ℕ) : Guarded (Option Bytes) := do
  let c ← peekAt frame sp
  if c = quote then
    match find frame [quote] (sp + 1) with
    | none => return none
    | some b => do
      let t ← range frame (sp + 1) b
      return some t
  else return some stream

/-- `split_envelope`: whether the frame is accepted, and the two outputs. -/
def splitEnvelope (frame stream data : Bytes) : Guarded (Bool × Bytes × Bytes) := do
  let sp ← findKey rounds frame (lit "stream")
  let dp ← findKey rounds frame (lit "data")
  match sp, dp with
  | some sp, some dp =>
    match ← assignStream frame stream sp with
    | none => return (false, stream, data)
    | some stream =>
      let c ← peekAt frame dp
      if c ≠ openBrace then return (false, stream, data)
      else do
        let (depth, i) ← loop (braceRound frame) rounds (0, dp)
        if depth ≠ 0 then return (false, stream, data)
        else do
          let t ← range frame dp i
          return (true, stream, t)
  | _, _ => return (false, stream, data)

/-- One key of `parse_depth` with its value at `p`: the position behind it, and the event. -/
def member (data : Bytes) (keyStart len p : ℕ) (out : DepthEvent) (ok : Bool) :
    Guarded (ℕ × DepthEvent × Bool) := do
  if ← keyEq data keyStart len (lit "E") then
    let v ← readU64 rounds data p
    return (p, { out with eventTimeMs := v.toInt64 }, ok)
  else if ← keyEq data keyStart len (lit "T") then
    if out.eventTimeMs = 0 then
      let v ← readU64 rounds data p
      return (p, { out with eventTimeMs := v.toInt64 }, ok)
    else return (p, out, ok)
  else if ← keyEq data keyStart len (lit "U") then
    let v ← readU64 rounds data p
    return (p, { out with U := v }, ok)
  else if ← keyEq data keyStart len (lit "u") then
    let v ← readU64 rounds data p
    return (p, { out with u := v }, ok)
  else if ← keyEq data keyStart len (lit "pu") then
    let v ← readU64 rounds data p
    return (p, { out with pu := v, hasPu := true }, ok)
  else if ← keyEq data keyStart len (lit "lastUpdateId") then
    let v ← readU64 rounds data p
    return (p, { out with lastUpdateId := v }, ok)
  else if (← keyEq data keyStart len (lit "bids")) || (← keyEq data keyStart len (lit "b")) then
    let (p, bids, ok) ← readLevels rounds data p out.bids ok
    return (p, { out with bids := bids }, ok)
  else if (← keyEq data keyStart len (lit "asks")) || (← keyEq data keyStart len (lit "a")) then
    let (p, asks, ok) ← readLevels rounds data p out.asks ok
    return (p, { out with asks := asks }, ok)
  else return (p, out, ok)

/-- `i >= data.size() || data[i] != ':'`. -/
def noColon (data : Bytes) (i : ℕ) : Guarded Bool :=
  if data.length ≤ i then return true
  else do
    let c ← readAt data i
    return decide (c ≠ colon)

/-- The state of the loop of `parse_depth`: the position, the event, and whether all levels were
accepted. -/
abbrev DepthState := ℕ × DepthEvent × Bool

/-- A round of the loop of `parse_depth`. -/
def depthRound (data : Bytes) : DepthState → Guarded (DepthState ⊕ DepthEvent × Bool)
  | (i, out, ok) =>
    if i < data.length then
      match find data [quote] i with
      | none => return .inr (out, ok)
      | some q =>
        let keyStart := q + 1
        match find data [quote] keyStart with
        | none => return .inr (out, ok)
        | some keyEnd => do
          let colonPos ← skipWhile rounds data (· = blank) (keyEnd + 1)
          if ← noColon data colonPos then return .inl (keyEnd + 1, out, ok)
          else do
            let p ← skipWhile rounds data (· = blank) (colonPos + 1)
            let (p, out, ok) ← member rounds data keyStart (keyEnd - keyStart) p out ok
            return .inl (if p > keyEnd then p else keyEnd + 1, out, ok)
    else return .inr (out, ok)

/-- The built-in `parse_depth`. -/
def parseDepth (data : Bytes) (out : DepthEvent) : Guarded (Bool × DepthEvent) := do
  let (out, ok) ← loop (depthRound rounds data) rounds (0, out, true)
  return (ok && (out.u ≠ 0 ∨ out.lastUpdateId ≠ 0 ∨ out.bids ≠ [] ∨ out.asks ≠ [] : Bool), out)

/-- `event_time_ms`. -/
def eventTimeMs (data : Bytes) : Guarded Int64 := do
  match ← findKey rounds data (lit "E") with
  | some p =>
    let v ← readU64 rounds data p
    return v.toInt64
  | none =>
    match ← findKey rounds data (lit "T") with
    | some p =>
      let v ← readU64 rounds data p
      return v.toInt64
    | none => return 0

end Bounded

/-! ## Positions -/

section Positions

variable {s pat : Bytes} {f : UInt8 → Bool} {i p q : ℕ}

lemma le_skipWhile : p ≤ skipWhile s f p := Nat.le_add_right _ _

lemma skipWhile_le (hp : p ≤ s.length) : skipWhile s f p ≤ s.length := by
  have hlen := (List.takeWhile_prefix (l := s.drop p) f).length_le
  rw [List.length_drop] at hlen
  rw [skipWhile]
  omega

lemma drop_eq_charAt_cons (hp : p < s.length) : s.drop p = charAt s p :: s.drop (p + 1) := by
  rw [List.drop_eq_getElem_cons hp, charAt, List.getD_eq_getElem?_getD, List.getElem?_eq_getElem hp,
    Option.getD_some]

/-- Where a scan stops. -/
lemma exists_skipWhile (s : Bytes) (f : UInt8 → Bool) (hp : p ≤ s.length) :
    ∃ q, skipWhile s f p = q ∧ p ≤ q ∧ q ≤ s.length :=
  ⟨_, rfl, le_skipWhile, skipWhile_le hp⟩

/-- A text that is found lies in the text. -/
lemma find_le (h : find s pat i = some p) : i ≤ p ∧ p + pat.length ≤ s.length := by
  rw [find, List.find?_range'_eq_some] at h
  obtain ⟨hpat, hmem, -⟩ := h
  have hle := List.mem_range'_1.mp hmem
  have hlen := (List.isPrefixOf_iff_prefix.mp hpat).length_le
  rw [List.length_drop] at hlen
  omega

lemma readAt_charAt (hp : p < s.length) : readAt s p = .ok (charAt s p) := readAt_eq hp

lemma peekAt_charAt (hp : p ≤ s.length) : peekAt s p = .ok (charAt s p) := peekAt_eq hp

end Positions

namespace Bounded

section Runs

variable {rounds : ℕ} {s : Bytes} (hrounds : s.length < rounds)

include hrounds

/-! ## Keys and numbers -/

lemma skipWhile_eq (f : UInt8 → Bool) (p : ℕ) :
    skipWhile rounds s f p = .ok (LobCapture.skipWhile s f p) := by
  rw [skipWhile]
  refine @loop_eq _ _ _ (LobCapture.skipWhile s f) (fun _ => True) (s.length - ·) ?_ _ _
    trivial (by omega)
  intro p _
  by_cases hp : p < s.length
  · rw [if_pos hp, readAt_charAt hp, ok_bind, LobCapture.skipWhile, drop_eq_charAt_cons hp]
    by_cases hf : f (charAt s p) = true
    · refine .inl ⟨p + 1, if_pos hf, trivial, by omega, ?_⟩
      rw [LobCapture.skipWhile, List.takeWhile_cons_of_pos hf, List.length_cons]
      omega
    · refine .inr ((if_neg hf).trans ?_)
      rw [List.takeWhile_cons_of_neg hf]
      rfl
  · refine .inr ?_
    rw [if_neg hp, LobCapture.skipWhile, List.drop_eq_nil_of_le (not_lt.mp hp)]
    rfl

lemma findKey_eq (key : Bytes) : findKey rounds s key = .ok (LobCapture.findKey s key) := by
  rw [findKey, LobCapture.findKey]
  cases find s (quote :: key ++ [quote]) 0 with
  | none => rfl
  | some p =>
    show skipWhile rounds s _ _ >>= _ = _
    rw [skipWhile_eq hrounds]
    rfl

lemma readU64_eq (p : ℕ) : readU64 rounds s p = .ok (LobCapture.readU64 s p) := by
  rw [readU64]
  refine @loop_eq _ _ _ (fun x : UInt64 × ℕ =>
      ((s.drop x.2).takeWhile isDigit).foldl (fun v c => v * 10 + (c - 48).toUInt64) x.1)
    (fun _ => True) (s.length - ·.2) ?_ _ _ trivial (by simp only; omega)
  rintro ⟨v, p⟩ -
  dsimp only
  by_cases hp : p < s.length
  · rw [if_pos hp, readAt_charAt hp, ok_bind, drop_eq_charAt_cons hp]
    by_cases hd : isDigit (charAt s p) = true
    · refine .inl ⟨(v * 10 + (charAt s p - 48).toUInt64, p + 1), if_pos hd, trivial, ?_, ?_⟩
      · dsimp only
        omega
      rw [List.takeWhile_cons_of_pos hd, List.foldl_cons]
    · refine .inr ((if_neg hd).trans ?_)
      rw [List.takeWhile_cons_of_neg hd]
      rfl
  · refine .inr ?_
    rw [if_neg hp, List.drop_eq_nil_of_le (not_lt.mp hp)]
    rfl

omit hrounds in
lemma keyEq_eq {start stop : ℕ} (h : start ≤ stop) (hstop : stop ≤ s.length) (key : Bytes) :
    keyEq s start (stop - start) key = .ok (decide (slice s start stop = key)) := by
  have hslice : (slice s start stop).length = stop - start := by
    rw [slice, List.length_take, List.length_drop]
    omega
  rw [keyEq]
  split_ifs with hlen
  · rw [show start + (stop - start) = stop by omega, range_eq h hstop]
    rfl
  · have hne : slice s start stop ≠ key := by
      rintro rfl
      exact hlen hslice.symm
    rw [decide_eq_false hne]
    rfl

/-! ## Levels -/

/-- What is left to do behind the loop of `read_levels`. -/
def levelsEnd (s : Bytes) (x : Bool × LevelsState) : LevelsState :=
  if x.1 = false ∧ x.2.1 < s.length ∧ charAt s x.2.1 = closeBracket then (x.2.1 + 1, x.2.2)
  else x.2

/-- The loop of `read_levels` is to return `t`. -/
def LevelsAt (s : Bytes) (t x : LevelsState) : Prop :=
  x.1 ≤ s.length ∧ ∃ r, s.length < x.1 + r ∧ readLevelsLoop s r x.1 x.2.1 x.2.2 = t

/-- A round that began at `p` gets on in the text, or leaves the loop with what makes `t`. -/
def LevelsStep (s : Bytes) (t : LevelsState) (p : ℕ)
    (c : Guarded (LevelsState ⊕ Bool × LevelsState)) : Prop :=
  (∃ x, c = .ok (.inl x) ∧ LevelsAt s t x ∧ p < x.1) ∨
    ∃ y, c = .ok (.inr y) ∧ levelsEnd s y = t ∧ p ≤ y.2.1 ∧ y.2.1 ≤ s.length

/-- The search for a quote, without which the function returns. -/
lemma LevelsStep.search {t v : LevelsState} {p q q' : ℕ} {out : List Level}
    {next : ℕ → Guarded (LevelsState ⊕ Bool × LevelsState)}
    (hq : LobCapture.skipWhile s (· ≠ quote) q = q') (hp : p ≤ q') (hlen : q' ≤ s.length)
    (heq : (if q' = s.length then (q', out, false) else v) = t)
    (hnext : q' < s.length → v = t → LevelsStep s t p (next q')) :
    LevelsStep s t p (do
      let q ← skipWhile rounds s (· ≠ quote) q
      if q = s.length then return .inr (true, q, out, false) else next q) := by
  rw [skipWhile_eq hrounds, ok_bind, hq]
  by_cases hend : q' = s.length
  · rw [if_pos hend] at heq ⊢
    exact .inr ⟨_, rfl, heq, hp, hlen⟩
  · rw [if_neg hend] at heq ⊢
    exact hnext (by omega) heq

/-- **A round of the loop of `read_levels`** reads inside of the text. -/
lemma levelsRound_spec {x t : LevelsState} (h : LevelsAt s t x) :
    LevelsStep s t x.1 (levelsRound rounds s x) := by
  obtain ⟨p, out, ok⟩ := x
  obtain ⟨hle, r, hr, heq⟩ := h
  dsimp only at hle hr heq ⊢
  rw [levelsRound]
  by_cases hp : p < s.length
  · obtain ⟨r, rfl⟩ : ∃ r', r = r' + 1 := ⟨r - 1, by omega⟩
    rw [readLevelsLoop, if_neg (not_le.mpr hp)] at heq
    rw [if_pos hp, readAt_charAt hp, ok_bind]
    by_cases hclose : charAt s p = closeBracket
    · rw [if_pos hclose] at heq ⊢
      refine .inr ⟨_, rfl, ?_, le_rfl, hle⟩
      rw [levelsEnd, if_pos ⟨rfl, hp, hclose⟩]
      exact heq
    rw [if_neg hclose] at heq ⊢
    by_cases hopen : charAt s p ≠ openBracket
    · rw [if_pos hopen] at heq ⊢
      exact .inl ⟨_, rfl, ⟨hp, r, by dsimp only; omega, heq⟩, Nat.lt_succ_self p⟩
    rw [if_neg hopen] at heq ⊢
    dsimp only at heq ⊢
    -- the four quotes, each of which may be missing
    obtain ⟨q, hq, hleq, hlenq⟩ := exists_skipWhile s (· ≠ quote) hp
    rw [hq] at heq
    refine .search hrounds hq (by omega) hlenq heq fun hltq heq => ?_
    obtain ⟨pe, hpe, hlepe, hlenpe⟩ := exists_skipWhile s (· ≠ quote) hltq
    rw [hpe] at heq
    refine .search hrounds hpe (by omega) hlenpe heq fun hltpe heq => ?_
    obtain ⟨q', hq', hleq', hlenq'⟩ := exists_skipWhile s (· ≠ quote) hltpe
    rw [hq'] at heq
    refine .search hrounds hq' (by omega) hlenq' heq fun hltq' heq => ?_
    obtain ⟨qe, hqe, hleqe, hlenqe⟩ := exists_skipWhile s (· ≠ quote) hltq'
    rw [hqe] at heq
    refine .search hrounds hqe (by omega) hlenqe heq fun hltqe heq => ?_
    -- the entry is complete
    obtain ⟨p', hp', hlep', hlenp'⟩ := exists_skipWhile s (· ≠ closeBracket) hltqe
    rw [hp'] at heq
    rw [range_eq hlepe hlenpe, ok_bind, range_eq hleqe hlenqe, ok_bind]
    simp only [skipWhile_eq hrounds, ok_bind, hp']
    refine .inl ⟨_, rfl, ⟨?_, r, ?_, heq⟩, ?_⟩
    all_goals
      dsimp only
      split_ifs <;> omega
  · rw [if_neg hp]
    refine .inr ⟨_, rfl, ?_, le_rfl, hle⟩
    rw [levelsEnd, if_neg (by simp [hp])]
    cases r with
    | zero => exact heq
    | succ r => rwa [readLevelsLoop, if_pos (not_lt.mp hp)] at heq

/-- The loop of `read_levels` ends. -/
lemma levelsLoop_spec {x t : LevelsState} (h : LevelsAt s t x) :
    ∃ y, loop (levelsRound rounds s) rounds x = .ok y ∧ levelsEnd s y = t ∧ x.1 ≤ y.2.1 ∧
      y.2.1 ≤ s.length := by
  have hround : ∀ z, LevelsAt s t z ∧ x.1 ≤ z.1 →
      (∃ z', levelsRound rounds s z = .ok (.inl z') ∧ (LevelsAt s t z' ∧ x.1 ≤ z'.1) ∧
          s.length - z'.1 < s.length - z.1) ∨
        ∃ y, levelsRound rounds s z = .ok (.inr y) ∧ levelsEnd s y = t ∧ x.1 ≤ y.2.1 ∧
          y.2.1 ≤ s.length := by
    rintro z ⟨hz, hxz⟩
    rcases levelsRound_spec hrounds hz with ⟨z', heq, hz', hlt⟩ | ⟨y, heq, hend, hle, hlen⟩
    · have hlen := hz'.1
      exact .inl ⟨z', heq, ⟨hz', by omega⟩, by omega⟩
    · exact .inr ⟨y, heq, hend, by omega, hlen⟩
  exact loop_spec hround ⟨h, le_rfl⟩ (by omega)

/-- **`read_levels`** reads inside of the text, and returns a position in it. -/
lemma readLevels_spec (p : ℕ) (out : List Level) (ok : Bool) :
    readLevels rounds s p out ok = .ok (LobCapture.readLevels s p out ok) ∧
      p ≤ (LobCapture.readLevels s p out ok).1 ∧
      (p ≤ s.length → (LobCapture.readLevels s p out ok).1 ≤ s.length) := by
  rw [readLevels, LobCapture.readLevels]
  by_cases hp : s.length ≤ p
  · rw [if_pos hp, if_pos (.inl hp)]
    exact ⟨rfl, le_rfl, id⟩
  rw [if_neg hp, readAt_charAt (not_le.mp hp), ok_bind]
  by_cases hopen : charAt s p ≠ openBracket
  · rw [if_pos hopen, if_pos (.inr hopen)]
    exact ⟨rfl, le_rfl, id⟩
  rw [if_neg hopen, if_neg (not_or.mpr ⟨hp, hopen⟩)]
  generalize ht : readLevelsLoop s (s.length + 1) (p + 1) out ok = t
  have hstart : LevelsAt s t (p + 1, out, ok) := ⟨not_le.mp hp, _, by dsimp only; omega, ht⟩
  obtain ⟨⟨returned, p', out', ok'⟩, hloop, hend, hle, hlen⟩ := levelsLoop_spec hrounds hstart
  replace hle : p ≤ p' := (Nat.le_succ p).trans hle
  dsimp only at hlen
  rw [hloop, ok_bind, ← hend]
  dsimp only
  cases returned with
  | true => exact ⟨rfl, hle, fun _ => hlen⟩
  | false =>
    by_cases hp' : p' < s.length
    · rw [if_neg (by decide), if_pos hp', readAt_charAt hp', ok_bind, levelsEnd]
      change Except.ok (if charAt s p' = closeBracket then p' + 1 else p', out', ok') = _ ∧ _
      by_cases hclose : charAt s p' = closeBracket
      · rw [if_pos hclose, if_pos ⟨rfl, hp', hclose⟩]
        exact ⟨rfl, by dsimp only; omega, fun _ => hp'⟩
      · rw [if_neg hclose, if_neg fun h => hclose h.2.2]
        exact ⟨rfl, hle, fun _ => hlen⟩
    · rw [if_neg (by decide), if_neg hp', levelsEnd, if_neg fun h => hp' h.2.1]
      exact ⟨rfl, hle, fun _ => hlen⟩

/-! ## Payloads -/

/-- What `parse_depth` does with a key. -/
lemma member_eq {start stop p : ℕ} (h : start ≤ stop) (hstop : stop ≤ s.length) (out : DepthEvent)
    (ok : Bool) :
    member rounds s start (stop - start) p out ok =
      .ok (LobCapture.parseDepth.member s (slice s start stop) p out ok) := by
  simp only [member, keyEq_eq h hstop, ok_bind, readU64_eq hrounds,
    (readLevels_spec hrounds _ _ _).1, parseDepth.member, decide_eq_true_eq, Bool.or_eq_true,
    apply_ite Except.ok, apply_ite (Prod.mk p), apply_ite (fun x : DepthEvent => (x, ok))]
  rfl

lemma member_le {p : ℕ} (hp : p ≤ s.length) (key : Bytes) (out : DepthEvent) (ok : Bool) :
    (LobCapture.parseDepth.member s key p out ok).1 ≤ s.length := by
  rw [parseDepth.member]
  split_ifs
  all_goals first | exact hp | exact (readLevels_spec hrounds _ _ _).2.2 hp

omit hrounds in
lemma noColon_eq (i : ℕ) :
    noColon s i = .ok (decide (s.length ≤ i ∨ charAt s i ≠ colon)) := by
  rw [noColon]
  by_cases hi : s.length ≤ i
  · rw [if_pos hi, decide_eq_true (.inl hi)]
    rfl
  · rw [if_neg hi, readAt_charAt (not_le.mp hi), ok_bind]
    simp only [hi, false_or]
    rfl

/-- The loop of `parse_depth` is to return `t`. -/
def DepthAt (s : Bytes) (t : DepthEvent × Bool) (x : DepthState) : Prop :=
  ∃ r, s.length < x.1 + r ∧ parseDepthLoop s r x.1 x.2.1 x.2.2 = t

/-- **A round of the loop of `parse_depth`** reads inside of the text, and gets on in it. -/
lemma depthRound_spec {x : DepthState} {t : DepthEvent × Bool} (h : DepthAt s t x) :
    (∃ x', depthRound rounds s x = .ok (.inl x') ∧ DepthAt s t x' ∧ x.1 < x'.1 ∧
      x'.1 ≤ s.length) ∨ depthRound rounds s x = .ok (.inr t) := by
  obtain ⟨i, out, ok⟩ := x
  obtain ⟨r, hr, heq⟩ := h
  dsimp only at hr heq ⊢
  rw [depthRound]
  by_cases hi : i < s.length
  · obtain ⟨r, rfl⟩ : ∃ r', r = r' + 1 := ⟨r - 1, by omega⟩
    rw [parseDepthLoop, if_neg (not_le.mpr hi)] at heq
    rw [if_pos hi]
    cases hq : find s [quote] i with
    | none =>
      rw [hq] at heq
      exact .inr (heq ▸ rfl)
    | some q =>
      rw [hq] at heq
      dsimp only at heq ⊢
      cases he : find s [quote] (q + 1) with
      | none =>
        rw [he] at heq
        exact .inr (heq ▸ rfl)
      | some keyEnd =>
        obtain ⟨hiq, -⟩ := find_le hq
        obtain ⟨hkey, hend⟩ := find_le he
        rw [List.length_singleton] at hend
        rw [he] at heq
        dsimp only at heq ⊢
        obtain ⟨colonPos, hcolonPos, hle, hlen⟩ := exists_skipWhile s (· = blank) hend
        rw [hcolonPos] at heq
        rw [skipWhile_eq hrounds, ok_bind, hcolonPos, noColon_eq, ok_bind]
        by_cases hcolon : s.length ≤ colonPos ∨ charAt s colonPos ≠ colon
        · -- a value of an array, not a key
          rw [if_pos hcolon] at heq
          rw [decide_eq_true hcolon, if_pos rfl]
          exact .inl ⟨_, rfl, ⟨r, by dsimp only; omega, heq⟩, by dsimp only; omega, hend⟩
        · rw [if_neg hcolon] at heq
          obtain ⟨hlt, -⟩ := not_or.mp hcolon
          obtain ⟨p, hp, hlep, hlenp⟩ := exists_skipWhile s (· = blank) (not_le.mp hlt)
          have hmember := member_le hrounds hlenp (slice s (q + 1) keyEnd) out ok
          rw [hp] at heq
          rw [decide_eq_false hcolon, if_neg (by decide), skipWhile_eq hrounds, ok_bind, hp,
            member_eq hrounds hkey (by omega), ok_bind]
          refine .inl ⟨_, rfl, ⟨r, ?_, heq⟩, ?_, ?_⟩
          all_goals
            dsimp only
            split_ifs <;> omega
  · refine .inr ?_
    rw [if_neg hi]
    cases r with
    | zero => exact heq ▸ rfl
    | succ r =>
      rw [parseDepthLoop, if_pos (not_lt.mp hi)] at heq
      exact heq ▸ rfl

/-- The loop of `parse_depth` ends. -/
lemma depthLoop_eq (out : DepthEvent) (ok : Bool) :
    loop (depthRound rounds s) rounds (0, out, ok) =
      .ok (parseDepthLoop s (s.length + 1) 0 out ok) := by
  generalize ht : parseDepthLoop s (s.length + 1) 0 out ok = t
  have hround : ∀ x, DepthAt s t x ∧ x.1 ≤ s.length →
      (∃ x', depthRound rounds s x = .ok (.inl x') ∧ (DepthAt s t x' ∧ x'.1 ≤ s.length) ∧
          s.length - x'.1 < s.length - x.1) ∨
        ∃ y, depthRound rounds s x = .ok (.inr y) ∧ y = t := by
    rintro x ⟨hx, -⟩
    rcases depthRound_spec hrounds hx with ⟨x', heq, hx', hlt, hlen⟩ | heq
    · exact .inl ⟨x', heq, ⟨hx', hlen⟩, by omega⟩
    · exact .inr ⟨t, heq, rfl⟩
  have hstart : DepthAt s t (0, out, ok) := ⟨_, by dsimp only; omega, ht⟩
  obtain ⟨y, heq, rfl⟩ := loop_spec hround ⟨hstart, Nat.zero_le _⟩ (by dsimp only; omega)
  exact heq

lemma parseDepth_eq (out : DepthEvent) :
    parseDepth rounds s out = .ok (parseDepthInto s out) := by
  rw [parseDepth, depthLoop_eq hrounds, ok_bind]
  rfl

lemma eventTimeMs_eq : eventTimeMs rounds s = .ok (LobCapture.eventTimeMs s) := by
  rw [eventTimeMs, LobCapture.eventTimeMs, findKey_eq hrounds, ok_bind]
  cases LobCapture.findKey s (lit "E") with
  | some p =>
    dsimp only
    rw [readU64_eq hrounds, ok_bind]
    rfl
  | none =>
    dsimp only
    rw [findKey_eq hrounds, ok_bind]
    cases LobCapture.findKey s (lit "T") with
    | some p =>
      dsimp only
      rw [readU64_eq hrounds, ok_bind]
      rfl
    | none => rfl

/-! ## Frames -/

omit hrounds in
/-- The place of a value is in the text, or its end. -/
lemma findKey_le {key : Bytes} {p : ℕ} (h : LobCapture.findKey s key = some p) : p ≤ s.length := by
  obtain ⟨q, hq, rfl⟩ := Option.map_eq_some_iff.mp h
  obtain ⟨-, hlen⟩ := find_le hq
  rw [List.length_append, List.length_cons, List.length_singleton] at hlen
  exact skipWhile_le (by omega)

omit hrounds in
lemma assignStream_eq {sp : ℕ} (hsp : sp ≤ s.length) (stream : Bytes) :
    assignStream s stream sp =
      .ok (if charAt s sp = quote then
        (find s [quote] (sp + 1)).map fun b => slice s (sp + 1) b else some stream) := by
  rw [assignStream, peekAt_charAt hsp, ok_bind]
  by_cases hquote : charAt s sp = quote
  · rw [if_pos hquote, if_pos hquote]
    cases hb : find s [quote] (sp + 1) with
    | none => rfl
    | some b =>
      obtain ⟨hle, hlen⟩ := find_le hb
      dsimp only
      rw [range_eq hle (by omega)]
      rfl
  · rw [if_neg hquote, if_neg hquote]
    rfl

/-- From the state of the loop over the braces on, the object that begins at `dp` has the length
`t`. -/
def BracesAt (s : Bytes) (dp : ℕ) (t : Option ℕ) (x : ℤ × ℕ) : Prop :=
  dp ≤ x.2 ∧ x.2 ≤ s.length ∧ objectLength (s.drop x.2) x.1 (x.2 - dp) = t

/-- What the loop over the braces says about the length. -/
def BracesEnd (s : Bytes) (dp : ℕ) (t : Option ℕ) (y : ℤ × ℕ) : Prop :=
  dp ≤ y.2 ∧ y.2 ≤ s.length ∧ (if y.1 ≠ 0 then none else some (y.2 - dp)) = t

omit hrounds in
lemma braceRound_spec {dp : ℕ} {t : Option ℕ} {x : ℤ × ℕ} (h : BracesAt s dp t x) :
    (∃ x', braceRound s x = .ok (.inl x') ∧ BracesAt s dp t x' ∧
        s.length - x'.2 < s.length - x.2) ∨
      ∃ y, braceRound s x = .ok (.inr y) ∧ BracesEnd s dp t y := by
  obtain ⟨depth, i⟩ := x
  obtain ⟨hle, hlen, heq⟩ := h
  dsimp only at hle hlen heq ⊢
  rw [braceRound]
  by_cases hi : i < s.length
  · rw [drop_eq_charAt_cons hi, objectLength, ← Nat.sub_add_comm hle] at heq
    rw [if_pos hi, readAt_charAt hi, ok_bind]
    have hnext : ∀ depth', objectLength (s.drop (i + 1)) depth' (i + 1 - dp) = t →
        BracesAt s dp t (depth', i + 1) := fun depth' ht => ⟨by dsimp only; omega, hi, ht⟩
    by_cases hopen : charAt s i = openBrace
    · rw [if_pos hopen] at heq ⊢
      exact .inl ⟨_, rfl, hnext _ heq, by dsimp only; omega⟩
    rw [if_neg hopen] at heq ⊢
    by_cases hclose : charAt s i = closeBrace
    · rw [if_pos hclose] at heq ⊢
      by_cases hzero : depth - 1 = 0
      · rw [if_pos hzero] at heq ⊢
        refine .inr ⟨_, rfl, by dsimp only; omega, hi, ?_⟩
        rw [if_neg (not_not.mpr hzero)]
        exact heq
      · rw [if_neg hzero] at heq ⊢
        exact .inl ⟨_, rfl, hnext _ heq, by dsimp only; omega⟩
    rw [if_neg hclose] at heq ⊢
    exact .inl ⟨_, rfl, hnext _ heq, by dsimp only; omega⟩
  · rw [if_neg hi]
    rw [List.drop_eq_nil_of_le (not_lt.mp hi)] at heq
    exact .inr ⟨_, rfl, hle, hlen, heq⟩

/-- The loop over the braces ends where the object does, or at the end of the text. -/
lemma braces_eq {dp : ℕ} (hdp : dp ≤ s.length) :
    ∃ y, loop (braceRound s) rounds (0, dp) = .ok y ∧
      BracesEnd s dp (objectLength (s.drop dp) 0 0) y :=
  @loop_spec _ _ (braceRound s) (BracesAt s dp _) (fun x => s.length - x.2) (BracesEnd s dp _)
    (fun _ hx => braceRound_spec hx) rounds (0, dp) ⟨le_rfl, hdp, by simp⟩ (by dsimp only; omega)

lemma splitEnvelope_eq (stream data : Bytes) :
    splitEnvelope rounds s stream data = .ok (splitEnvelopeInto s stream data) := by
  rw [splitEnvelope, splitEnvelopeInto, findKey_eq hrounds, ok_bind, findKey_eq hrounds, ok_bind]
  cases hsp : LobCapture.findKey s (lit "stream") with
  | none => rfl
  | some sp =>
    cases hdp : LobCapture.findKey s (lit "data") with
    | none => rfl
    | some dp =>
      dsimp only
      rw [assignStream_eq (findKey_le hsp), ok_bind]
      generalize (if charAt s sp = quote then
        (find s [quote] (sp + 1)).map fun b => slice s (sp + 1) b else some stream) = assigned
      cases assigned with
      | none => rfl
      | some stream' =>
        have hlen := findKey_le hdp
        dsimp only
        rw [peekAt_charAt hlen, ok_bind]
        by_cases hopen : charAt s dp ≠ openBrace
        · rw [if_pos hopen, if_pos hopen]
          rfl
        obtain ⟨⟨depth, i⟩, heq, hle, hi, hend⟩ := braces_eq hrounds hlen
        rw [if_neg hopen, if_neg hopen, heq, ok_bind, ← hend]
        dsimp only at hle hi ⊢
        by_cases hdepth : depth ≠ 0
        · rw [if_pos hdepth, if_pos hdepth]
          rfl
        · rw [if_neg hdepth, if_neg hdepth, range_eq hle hi, ok_bind]
          dsimp only
          rw [slice, Nat.add_sub_cancel_left]
          rfl

end Runs

end Bounded

/-! ## Any text -/

/-- **On any text the scanners end without reading outside of it**: with as many rounds as the text
has characters and one more for each loop, no check fails, and every round of the loop of
`parse_depth` moves its position forward. -/
theorem scanners_bounded {s : Bytes} {rounds : ℕ} (h : s.length < rounds) :
    (∀ out, Bounded.parseDepth rounds s out = .ok (parseDepthInto s out)) ∧
    (∀ p out ok, Bounded.readLevels rounds s p out ok = .ok (readLevels s p out ok) ∧
      p ≤ (readLevels s p out ok).1 ∧ (p ≤ s.length → (readLevels s p out ok).1 ≤ s.length)) ∧
    (∀ key, Bounded.findKey rounds s key = .ok (findKey s key)) ∧
    (∀ p, Bounded.readU64 rounds s p = .ok (readU64 s p)) ∧
    (∀ stream data,
      Bounded.splitEnvelope rounds s stream data = .ok (splitEnvelopeInto s stream data)) ∧
    Bounded.eventTimeMs rounds s = .ok (eventTimeMs s) ∧
    ∀ x, (∃ x', Bounded.depthRound rounds s x = .ok (.inl x') ∧ x.1 < x'.1 ∧ x'.1 ≤ s.length) ∨
      ∃ r, Bounded.depthRound rounds s x = .ok (.inr r) := by
  refine ⟨Bounded.parseDepth_eq h, Bounded.readLevels_spec h, Bounded.findKey_eq h,
    Bounded.readU64_eq h, Bounded.splitEnvelope_eq h, Bounded.eventTimeMs_eq h, fun x => ?_⟩
  have hat : Bounded.DepthAt s (parseDepthLoop s (s.length + 1) x.1 x.2.1 x.2.2) x :=
    ⟨_, by omega, rfl⟩
  rcases Bounded.depthRound_spec h hat with ⟨x', heq, -, hlt, hlen⟩ | heq
  · exact .inl ⟨x', heq, hlt, hlen⟩
  · exact .inr ⟨_, heq⟩

/-- An array that breaks off in the second string. -/
theorem scanners_bounded_truncated :
    let s := lit "\x7b\"b\":[[\"1\",\"2"
    Bounded.parseDepth 20 s {} = .ok (false, {}) ∧
      Bounded.readLevels 20 s 5 [] true = .ok (13, [], false) := by
  intro s
  obtain ⟨hdepth, hlevels, -⟩ := @scanners_bounded s 20 (by decide)
  exact ⟨(hdepth {}).trans (by decide +kernel), (hlevels 5 [] true).1.trans (by decide +kernel)⟩

end LobCapture
