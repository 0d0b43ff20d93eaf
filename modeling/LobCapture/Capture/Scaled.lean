/-
# Scaled decimals

`parse_scaled` reads a decimal number as an integer multiple of `10^-scale_pow`, and computes in
`__int128`.  It accepts exactly the decimals that are such a multiple and fit into 64 bits, and no
intermediate result overflows, however long the text is.
-/
import LobCapture.Capture.Scan
import Mathlib.Algebra.Order.Field.Rat
import Mathlib.Data.FinEnum
import Mathlib.Tactic.FieldSimp
import Mathlib.Tactic.Linarith
import Mathlib.Tactic.Ring

namespace LobCapture

open Lib

/-! ## The computation in `__int128` -/

/-- What a computation comes to: an overflow, which is undefined, a `return false`, or a value. -/
inductive Checked (α : Type) where
  | overflow
  | reject
  | ok (a : α)
deriving DecidableEq

namespace Checked

def bind {α β : Type} (x : Checked α) (f : α → Checked β) : Checked β :=
  match x with
  | overflow => overflow
  | reject => reject
  | ok a => f a

instance : Monad Checked where
  pure := ok
  bind := bind

@[simp] lemma ok_bind {α β : Type} (a : α) (f : α → Checked β) : (ok a >>= f) = f a := rfl

@[simp] lemma reject_bind {α β : Type} (f : α → Checked β) : (reject >>= f) = reject := rfl

/-- A computation without overflows. -/
def ofOption {α : Type} : Option α → Checked α
  | none => reject
  | some a => ok a

/-- The result and the output of a function with the output `out`. -/
def into {α : Type} (out : α) : Checked α → Option (Bool × α)
  | overflow => none
  | reject => some (false, out)
  | ok a => some (true, a)

end Checked

/-- The result of an operation in `__int128`. -/
def int128 (x : ℤ) : Checked ℤ := if -2 ^ 127 ≤ x ∧ x < 2 ^ 127 then .ok x else .overflow

namespace parseScaled128

/-- The loop over the digits before the point. -/
def intPart : Bytes → ℤ → Bool → Checked (ℤ × Bool × Bytes)
  | [], v, any => .ok (v, any, [])
  | c :: s, v, any =>
    if c = dot then .ok (v, any, c :: s)
    else if isDigit c = false then .reject
    else do
      let tens ← int128 (v * 10)
      let v ← int128 (tens + (c - 48).toNat)
      if v > 2 ^ 63 then .reject else intPart s v true

/-- The loop over the digits after the point. -/
def fracPart (scalePow : ℕ) : Bytes → ℤ → ℕ → Bool → Checked (ℤ × ℕ × Bool)
  | [], frac, fracDigits, any => .ok (frac, fracDigits, any)
  | c :: s, frac, fracDigits, _ =>
    if isDigit c = false then .reject
    else if fracDigits < scalePow then do
      let tens ← int128 (frac * 10)
      let frac ← int128 (tens + (c - 48).toNat)
      fracPart scalePow s frac (fracDigits + 1) true
    else if c ≠ 48 then .reject
    else fracPart scalePow s frac fracDigits true

/-- `for (int k = 0; k < n; ++k) scale *= 10;` -/
def power : ℕ → ℤ → Checked ℤ
  | 0, scale => .ok scale
  | n + 1, scale => do
    let scale ← int128 (scale * 10)
    power n scale

end parseScaled128

/-- `parse_scaled`, with every operation in `__int128` checked. -/
def parseScaled128 (s : Bytes) (scalePow : ℤ) : Checked Int64 :=
  if s = [] ∨ scalePow < 0 ∨ scalePow > 18 then .reject
  else
    let neg := charAt s 0 = minus
    let s := if neg then s.drop 1 else s
    if s = [] then .reject
    else do
      let (intPart, any, rest) ← parseScaled128.intPart s 0 false
      let (frac, fracDigits, any) ← parseScaled128.fracPart scalePow.toNat (rest.drop 1) 0 0 any
      if any = false then .reject
      else do
        let scale ← parseScaled128.power scalePow.toNat 1
        let fscale ← parseScaled128.power fracDigits 1
        let whole ← int128 (intPart * scale)
        let part ← int128 (frac * (scale / fscale))
        let magnitude ← int128 (whole + part)
        let limit := if neg then 2 ^ 63 else 2 ^ 63 - 1
        if magnitude > limit then .reject
        else if neg ∧ magnitude = 2 ^ 63 then .ok Int64.minValue
        else if neg then .ok (-.ofInt magnitude)
        else .ok (.ofInt magnitude)

/-! ## No overflow -/

lemma int128_natCast {n : ℕ} (h : n < 2 ^ 127) : int128 n = .ok (n : ℤ) := by
  rw [int128, if_pos]
  exact ⟨by omega, by exact_mod_cast h⟩

/-- The value of a digit. -/
lemma digit_toNat {c : UInt8} (h : isDigit c = true) :
    (c - 48).toNat = c.toNat - 48 ∧ (c - 48).toNat ≤ 9 := by
  simp only [isDigit, Bool.and_eq_true, decide_eq_true_eq, UInt8.le_iff_toNat_le,
    UInt8.reduceToNat] at h
  have hsub : (c - 48).toNat = c.toNat - 48 := by
    have hle : (48 : UInt8) ≤ c := UInt8.le_iff_toNat_le.mpr h.1
    rw [UInt8.toNat_sub_of_le _ _ hle]
    rfl
  omega

/-- One more digit. -/
lemma int128_digit {α : Type} {v d : ℕ} (hv : v ≤ 2 ^ 63) (hd : d ≤ 9) (f : ℤ → Checked α) :
    (int128 (v * 10) >>= fun tens => int128 (tens + d) >>= f) = f ((v * 10 + d : ℕ) : ℤ) := by
  have htens : int128 (v * 10) = .ok ((v * 10 : ℕ) : ℤ) := by
    rw [← int128_natCast (by omega)]
    push_cast
    rfl
  have hdigit : int128 (((v * 10 : ℕ) : ℤ) + d) = .ok ((v * 10 + d : ℕ) : ℤ) := by
    rw [← int128_natCast (by omega)]
    push_cast
    rfl
  rw [htens, Checked.ok_bind, hdigit, Checked.ok_bind]

namespace parseScaled128

lemma intPart_eq (s : Bytes) {v : ℕ} (hv : v ≤ 2 ^ 63) (any : Bool) :
    intPart s v any =
      .ofOption ((parseScaled.intPart s v any).map fun r => ((r.1 : ℤ), r.2)) := by
  induction s generalizing v any with
  | nil => rfl
  | cons c s ih =>
    rw [intPart, parseScaled.intPart]
    by_cases hdot : c = dot
    · rw [if_pos hdot, if_pos hdot]
      rfl
    rw [if_neg hdot, if_neg hdot]
    by_cases hdigit : isDigit c = false
    · rw [if_pos hdigit, if_pos hdigit]
      rfl
    rw [if_neg hdigit, if_neg hdigit,
      int128_digit hv (digit_toNat (Bool.eq_true_of_not_eq_false hdigit)).2]
    dsimp only
    by_cases hbig : v * 10 + (c - 48).toNat > 2 ^ 63
    · rw [if_pos hbig, if_pos (by exact_mod_cast hbig)]
      rfl
    · rw [if_neg hbig, if_neg (by exact_mod_cast hbig)]
      exact ih (not_lt.mp hbig) true

lemma fracPart_eq {scalePow : ℕ} (hscale : scalePow ≤ 18) (s : Bytes) {frac fracDigits : ℕ}
    (hdigits : fracDigits ≤ scalePow) (hfrac : frac < 10 ^ fracDigits) (any : Bool) :
    fracPart scalePow s frac fracDigits any =
        .ofOption ((parseScaled.fracPart scalePow s frac fracDigits any).map
          fun r => ((r.1 : ℤ), r.2)) ∧
      ∀ r ∈ parseScaled.fracPart scalePow s frac fracDigits any,
        r.2.1 ≤ scalePow ∧ r.1 < 10 ^ r.2.1 := by
  induction s generalizing frac fracDigits any with
  | nil =>
    refine ⟨rfl, fun r hr => ?_⟩
    obtain rfl := Option.some.inj hr
    exact ⟨hdigits, hfrac⟩
  | cons c s ih =>
    rw [fracPart, parseScaled.fracPart]
    by_cases hdigit : isDigit c = false
    · rw [if_pos hdigit, if_pos hdigit]
      exact ⟨rfl, by simp⟩
    rw [if_neg hdigit, if_neg hdigit]
    have hd := (digit_toNat (Bool.eq_true_of_not_eq_false hdigit)).2
    by_cases hmore : fracDigits < scalePow
    · have hpow : 10 ^ fracDigits ≤ 10 ^ 18 := Nat.pow_le_pow_right (by omega) (by omega)
      rw [if_pos hmore, if_pos hmore, int128_digit (by omega) hd]
      refine ih hmore ?_ true
      rw [pow_succ]
      omega
    rw [if_neg hmore, if_neg hmore]
    by_cases hzero : c ≠ 48
    · rw [if_pos hzero, if_pos hzero]
      exact ⟨rfl, by simp⟩
    · rw [if_neg hzero, if_neg hzero]
      exact ih hdigits hfrac true

lemma power_eq {n m : ℕ} (h : m + n ≤ 18) :
    power n ((10 ^ m : ℕ) : ℤ) = .ok ((10 ^ (m + n) : ℕ) : ℤ) := by
  induction n generalizing m with
  | zero => rfl
  | succ n ih =>
    have hpow : 10 ^ (m + 1) ≤ 10 ^ 18 := Nat.pow_le_pow_right (by omega) (by omega)
    have hnext : int128 (((10 ^ m : ℕ) : ℤ) * 10) = .ok ((10 ^ (m + 1) : ℕ) : ℤ) := by
      rw [← int128_natCast (by omega), pow_succ]
      push_cast
      rfl
    rw [power, hnext, Checked.ok_bind, ih (by omega), Nat.add_right_comm, Nat.add_assoc]

end parseScaled128

lemma parseScaled.intPart_le {s : Bytes} {v : ℕ} (hv : v ≤ 2 ^ 63) (any : Bool) :
    ∀ r ∈ parseScaled.intPart s v any, r.1 ≤ 2 ^ 63 := by
  induction s generalizing v any with
  | nil =>
    intro r hr
    obtain rfl := Option.some.inj hr
    exact hv
  | cons c s ih =>
    intro r hr
    rw [parseScaled.intPart] at hr
    split_ifs at hr with hdot hdigit
    · obtain rfl := Option.some.inj hr
      exact hv
    · simp at hr
    · dsimp only at hr
      split_ifs at hr with hbig
      · simp at hr
      · exact ih (not_lt.mp hbig) true r hr

/-- **No operation overflows**, so the function is the one on natural numbers. -/
theorem parseScaled128_eq (s : Bytes) (scalePow : ℤ) :
    parseScaled128 s scalePow = .ofOption (parseScaled s scalePow) := by
  rw [parseScaled128, parseScaled]
  by_cases hrange : s = [] ∨ scalePow < 0 ∨ scalePow > 18
  · rw [if_pos hrange, if_pos hrange]
    rfl
  rw [if_neg hrange, if_neg hrange]
  have hscale : scalePow.toNat ≤ 18 := by omega
  dsimp only
  generalize (if charAt s 0 = minus then s.drop 1 else s) = body
  by_cases hbody : body = []
  · rw [if_pos hbody, if_pos hbody]
    rfl
  rw [if_neg hbody, if_neg hbody]
  have hint := parseScaled128.intPart_eq body (Nat.zero_le (2 ^ 63)) false
  rw [Nat.cast_zero] at hint
  rw [hint]
  cases hwhole : parseScaled.intPart body 0 false with
  | none => rfl
  | some r =>
  obtain ⟨intPart, any, rest⟩ := r
  have hle : intPart ≤ 2 ^ 63 := parseScaled.intPart_le (Nat.zero_le _) false _ hwhole
  have hfrac := parseScaled128.fracPart_eq hscale (rest.drop 1) (Nat.zero_le _)
    (show 0 < 10 ^ 0 by omega) any
  rw [Nat.cast_zero] at hfrac
  show (parseScaled128.fracPart _ _ _ _ _ >>= _) = _
  rw [hfrac.1]
  dsimp only
  cases hpart : parseScaled.fracPart scalePow.toNat (rest.drop 1) 0 0 any with
  | none => rfl
  | some r =>
  obtain ⟨frac, fracDigits, any'⟩ := r
  obtain ⟨hdigits, hlt⟩ := hfrac.2 _ hpart
  dsimp only at hdigits hlt
  show (if any' = false then Checked.reject else _) = _
  dsimp only
  by_cases hany : any' = false
  · rw [if_pos hany, if_pos hany]
    rfl
  rw [if_neg hany, if_neg hany]
  -- the powers of ten
  have hscalePow : parseScaled128.power scalePow.toNat 1 = .ok ((10 ^ scalePow.toNat : ℕ) : ℤ) := by
    simpa using parseScaled128.power_eq (m := 0) (n := scalePow.toNat) (by omega)
  have hfscale : parseScaled128.power fracDigits 1 = .ok ((10 ^ fracDigits : ℕ) : ℤ) := by
    simpa using parseScaled128.power_eq (m := 0) (n := fracDigits) (by omega)
  rw [hscalePow, Checked.ok_bind, hfscale, Checked.ok_bind]
  have hbound : 10 ^ scalePow.toNat ≤ 10 ^ 18 := Nat.pow_le_pow_right (by omega) hscale
  have hquot : frac * (10 ^ scalePow.toNat / 10 ^ fracDigits) ≤ 10 ^ scalePow.toNat :=
    (Nat.mul_le_mul_right _ hlt.le).trans (Nat.mul_div_le _ _)
  generalize hscaleEq : (10 ^ scalePow.toNat : ℕ) = scale at *
  generalize (10 ^ fracDigits : ℕ) = fscale at *
  -- the sum
  have hwholeLt : intPart * scale ≤ 2 ^ 63 * 10 ^ 18 := Nat.mul_le_mul hle hbound
  have hwhole128 : int128 ((intPart : ℤ) * scale) = .ok ((intPart * scale : ℕ) : ℤ) := by
    rw [← int128_natCast (by omega), Nat.cast_mul]
  have hpart128 : int128 ((frac : ℤ) * ((scale : ℤ) / fscale)) =
      .ok ((frac * (scale / fscale) : ℕ) : ℤ) := by
    rw [← int128_natCast (by omega), Nat.cast_mul, Int.natCast_ediv]
  rw [hwhole128, Checked.ok_bind, hpart128, Checked.ok_bind]
  generalize intPart * scale = whole at *
  generalize frac * (scale / fscale) = part at *
  have hsum : int128 ((whole : ℤ) + part) = .ok ((whole + part : ℕ) : ℤ) := by
    rw [← int128_natCast (by omega), Nat.cast_add]
  rw [hsum, Checked.ok_bind]
  generalize whole + part = magnitude
  -- the comparisons
  by_cases hneg : charAt s 0 = minus
  · simp only [hneg, if_true, true_and]
    by_cases hbig : magnitude > 2 ^ 63
    · rw [if_pos hbig, if_pos (by exact_mod_cast hbig)]
      rfl
    rw [if_neg hbig, if_neg (by exact_mod_cast hbig)]
    by_cases hmin : magnitude = 2 ^ 63
    · rw [if_pos hmin, if_pos (by exact_mod_cast hmin)]
      rfl
    · rw [if_neg hmin, if_neg (by exact_mod_cast hmin)]
      rfl
  · simp only [hneg, if_false, false_and]
    by_cases hbig : magnitude > 2 ^ 63 - 1
    · rw [if_pos hbig, if_pos (by omega)]
      rfl
    · rw [if_neg hbig, if_neg (by omega)]
      rfl

/-! ## Decimals -/

/-- A decimal number as it is written: an optional sign, and digits with at most one point. -/
structure Decimal where
  negative : Bool
  whole : Bytes
  fraction : Option Bytes
  isDigit_of_mem : ∀ c ∈ whole ++ fraction.getD [], isDigit c = true
  ne_nil : whole ++ fraction.getD [] ≠ []

namespace Decimal

variable (d : Decimal) (scalePow : ℕ)

/-- The digits behind the point. -/
def fractionDigits : Bytes := d.fraction.getD []

/-- The point and what is behind it. -/
def tail : Bytes := d.fraction.elim [] (dot :: ·)

def text : Bytes := (if d.negative then [minus] else []) ++ (d.whole ++ d.tail)

def value : ℚ :=
  (if d.negative then -1 else 1) *
    (digitsValue (d.whole ++ d.fractionDigits) / 10 ^ d.fractionDigits.length)

/-- The number is a multiple of `10^-scalePow`, as its digits show, and the multiple fits into 64
bits. -/
def Fits : Prop :=
  (∀ c ∈ d.fractionDigits.drop scalePow, c = 48) ∧
    -2 ^ 63 ≤ d.value * 10 ^ scalePow ∧ d.value * 10 ^ scalePow ≤ 2 ^ 63 - 1

/-- The absolute value of the multiple, when the digits further behind are zeros. -/
def magnitude : ℕ :=
  digitsValue d.whole * 10 ^ scalePow +
    digitsValue (d.fractionDigits.take scalePow) *
      (10 ^ scalePow / 10 ^ (d.fractionDigits.take scalePow).length)

variable {d scalePow}

lemma isDigit_whole {c : UInt8} (h : c ∈ d.whole) : isDigit c = true :=
  d.isDigit_of_mem c (List.mem_append_left _ h)

lemma isDigit_fraction {c : UInt8} (h : c ∈ d.fractionDigits) : isDigit c = true :=
  d.isDigit_of_mem c (List.mem_append_right _ h)

lemma drop_tail : d.tail.drop 1 = d.fractionDigits := by
  unfold tail fractionDigits
  cases d.fraction <;> rfl

lemma head_tail : ∀ c ∈ d.tail.head?, c = dot := by
  unfold tail
  cases d.fraction with
  | none => simp
  | some f => simp

/-- What the multiple is. -/
lemma value_mul (h : ∀ c ∈ d.fractionDigits.drop scalePow, c = 48) :
    d.value * 10 ^ scalePow = (if d.negative then -1 else 1) * d.magnitude scalePow := by
  have hlen := congrArg List.length (List.take_append_drop scalePow d.fractionDigits)
  rw [List.length_append] at hlen
  have hle : (d.fractionDigits.take scalePow).length ≤ scalePow := List.length_take_le _ _
  have hdigits : digitsValue d.fractionDigits =
      digitsValue (d.fractionDigits.take scalePow) *
        10 ^ (d.fractionDigits.drop scalePow).length := by
    conv_lhs => rw [← List.take_append_drop scalePow d.fractionDigits]
    rw [digitsValue_append, digitsValue_zeros h, Nat.add_zero]
  have hten : (10 : ℚ) ≠ 0 := by norm_num
  rw [value, magnitude, digitsValue_append, hdigits, ← hlen, mul_assoc, pow_add,
    Nat.pow_div hle (by norm_num)]
  congr 1
  push_cast
  rw [pow_sub₀ _ hten hle]
  field_simp
  ring

end Decimal

/-! ## The loops over digits -/

lemma ne_dot_of_isDigit {c : UInt8} (h : isDigit c = true) : c ≠ dot := by
  rintro rfl
  simp [isDigit, dot] at h

namespace parseScaled

/-- The loop stops early only if the number is too large anyway. -/
lemma intPart_digits {whole rest : Bytes} (hdigits : ∀ c ∈ whole, isDigit c = true)
    (hrest : ∀ c ∈ rest.head?, c = dot) {v : ℕ} (hv : v ≤ 2 ^ 63) (any : Bool) :
    intPart (whole ++ rest) v any =
      if v * 10 ^ whole.length + digitsValue whole ≤ 2 ^ 63 then
        some (v * 10 ^ whole.length + digitsValue whole, any || !whole.isEmpty, rest)
      else none := by
  induction whole generalizing v any with
  | nil =>
    rw [List.length_nil, pow_zero, Nat.mul_one, show digitsValue [] = 0 from rfl, Nat.add_zero,
      if_pos hv, List.nil_append, List.isEmpty_nil, Bool.not_true, Bool.or_false]
    cases rest with
    | nil => rfl
    | cons c rest => rw [intPart, if_pos (hrest c rfl)]
  | cons c whole ih =>
    have hc := hdigits c List.mem_cons_self
    have hvalue : v * 10 ^ (c :: whole).length + digitsValue (c :: whole) =
        (v * 10 + (c - 48).toNat) * 10 ^ whole.length + digitsValue whole := by
      rw [digitsValue_cons, (digit_toNat hc).1, List.length_cons, pow_succ]
      ring
    rw [hvalue, List.cons_append, intPart, if_neg (ne_dot_of_isDigit hc), if_neg (by simp [hc])]
    dsimp only
    by_cases hbig : v * 10 + (c - 48).toNat > 2 ^ 63
    · have hpow : 1 ≤ 10 ^ whole.length := Nat.one_le_pow _ _ (by omega)
      have hmul := Nat.le_mul_of_pos_right (v * 10 + (c - 48).toNat) hpow
      rw [if_pos hbig, if_neg (by omega)]
    · rw [if_neg hbig, ih (fun d hd => hdigits d (List.mem_cons_of_mem _ hd)) (not_lt.mp hbig)]
      simp

lemma fracPart_digits {scalePow : ℕ} {fraction : Bytes}
    (hdigits : ∀ c ∈ fraction, isDigit c = true) (frac : ℕ) {fracDigits : ℕ}
    (hle : fracDigits ≤ scalePow) (any : Bool) :
    fracPart scalePow fraction frac fracDigits any =
      if ∀ c ∈ fraction.drop (scalePow - fracDigits), c = 48 then
        some (frac * 10 ^ (fraction.take (scalePow - fracDigits)).length +
            digitsValue (fraction.take (scalePow - fracDigits)),
          fracDigits + (fraction.take (scalePow - fracDigits)).length, any || !fraction.isEmpty)
      else none := by
  induction fraction generalizing frac fracDigits any with
  | nil => simp [fracPart, digitsValue]
  | cons c fraction ih =>
    have hc := hdigits c List.mem_cons_self
    have htail : ∀ d ∈ fraction, isDigit d = true :=
      fun d hd => hdigits d (List.mem_cons_of_mem _ hd)
    rw [fracPart, if_neg (by simp [hc])]
    by_cases hmore : fracDigits < scalePow
    · obtain ⟨n, hn⟩ : ∃ n, scalePow - fracDigits = n + 1 := ⟨scalePow - fracDigits - 1, by omega⟩
      have hn' : scalePow - (fracDigits + 1) = n := by omega
      rw [if_pos hmore, ih htail _ hmore, hn, hn', List.drop_succ_cons, List.take_succ_cons,
        digitsValue_cons, (digit_toNat hc).1, List.length_cons, pow_succ]
      simp only [List.isEmpty_cons, Bool.not_false, Bool.or_true, Bool.true_or]
      congr 3
      · ring
      · simp only [Prod.mk.injEq, and_true]
        omega
    · have hzero : scalePow - fracDigits = 0 := by omega
      rw [if_neg hmore, ih htail _ hle, hzero]
      simp only [List.drop_zero, List.take_zero, List.forall_mem_cons, List.isEmpty_cons,
        Bool.not_false, Bool.or_true, Bool.true_or]
      by_cases h48 : c = 48
      · simp [h48]
      · simp [h48]

/-- What the first loop has read. -/
lemma digits_of_intPart {s rest : Bytes} {v w : ℕ} {any any' : Bool}
    (h : intPart s v any = some (w, any', rest)) :
    ∃ whole, s = whole ++ rest ∧ (∀ c ∈ whole, isDigit c = true) ∧ (∀ c ∈ rest.head?, c = dot) ∧
      any' = (any || !whole.isEmpty) := by
  induction s generalizing v any with
  | nil =>
    obtain ⟨-, rfl, rfl⟩ : v = w ∧ any = any' ∧ [] = rest := by simpa [intPart] using h
    exact ⟨[], rfl, by simp, by simp, by simp⟩
  | cons c s ih =>
    rw [intPart] at h
    split_ifs at h with hdot hdigit
    · obtain ⟨-, rfl, rfl⟩ : v = w ∧ any = any' ∧ c :: s = rest := by simpa using h
      exact ⟨[], rfl, by simp, by simpa using hdot, by simp⟩
    · dsimp only at h
      split_ifs at h with hbig
      obtain ⟨whole, rfl, hwhole, hrest, hany⟩ := ih h
      refine ⟨c :: whole, rfl, ?_, hrest, by simpa using hany⟩
      rintro d (_ | ⟨_, hd⟩)
      · exact Bool.eq_true_of_not_eq_false hdigit
      · exact hwhole d hd

/-- What the second loop has read. -/
lemma digits_of_fracPart {scalePow : ℕ} {fraction : Bytes} {frac frac' n n' : ℕ} {any any' : Bool}
    (h : fracPart scalePow fraction frac n any = some (frac', n', any')) :
    (∀ c ∈ fraction, isDigit c = true) ∧ any' = (any || !fraction.isEmpty) := by
  induction fraction generalizing frac n any with
  | nil =>
    obtain ⟨-, -, rfl⟩ : frac = frac' ∧ n = n' ∧ any = any' := by simpa [fracPart] using h
    exact ⟨by simp, by simp⟩
  | cons c fraction ih =>
    rw [fracPart] at h
    split_ifs at h with hdigit hmore hzero
    all_goals
      obtain ⟨htail, hany⟩ := ih h
      refine ⟨?_, by simpa using hany⟩
      rintro d (_ | ⟨_, hd⟩)
      · exact Bool.eq_true_of_not_eq_false hdigit
      · exact htail d hd

end parseScaled

/-! ## Exactness -/

/-- A text without its sign. -/
def unsigned (s : Bytes) : Bytes := if charAt s 0 = minus then s.drop 1 else s

lemma unsigned_spec (s : Bytes) :
    s = (if charAt s 0 = minus then [minus] else []) ++ unsigned s := by
  unfold unsigned
  split_ifs with h
  · exact drop_of_charAt (p := 0) h (by decide)
  · rfl

/-- The last part of `parse_scaled`: the sum of the parts, if it is not too large. -/
def parseScaled.result (neg : Prop) [Decidable neg] (scalePow intPart frac fracDigits : ℕ) :
    Option Int64 :=
  let magnitude := intPart * 10 ^ scalePow + frac * (10 ^ scalePow / 10 ^ fracDigits)
  if magnitude > (if neg then 2 ^ 63 else 2 ^ 63 - 1) then none
  else if neg ∧ magnitude = 2 ^ 63 then some Int64.minValue
  else if neg then some (-.ofNat magnitude)
  else some (.ofNat magnitude)

lemma parseScaled.result_exact {neg : Prop} [Decidable neg] {scalePow w f n m : ℕ}
    (hm : w * 10 ^ scalePow + f * (10 ^ scalePow / 10 ^ n) = m) :
    ((result neg scalePow w f n).isSome = true ↔ m ≤ if neg then 2 ^ 63 else 2 ^ 63 - 1) ∧
      ∀ out ∈ result neg scalePow w f n, out.toInt = if neg then -(m : ℤ) else m := by
  unfold result
  rw [hm]
  by_cases hneg : neg
  · simp only [hneg, if_true, true_and]
    by_cases hbig : m > 2 ^ 63
    · rw [if_pos hbig]
      exact ⟨iff_of_false (by simp) (by omega), by simp⟩
    rw [if_neg hbig]
    by_cases hmin : m = 2 ^ 63
    · rw [if_pos hmin]
      refine ⟨iff_of_true rfl (by omega), fun out hout => ?_⟩
      obtain rfl := Option.some.inj hout
      rw [hmin]
      rfl
    · rw [if_neg hmin]
      refine ⟨iff_of_true rfl (by omega), fun out hout => ?_⟩
      obtain rfl := Option.some.inj hout
      exact Int64.toInt_neg_ofNat_of_le (by omega)
  · simp only [hneg, if_false, false_and]
    by_cases hbig : m > 2 ^ 63 - 1
    · rw [if_pos hbig]
      exact ⟨iff_of_false (by simp) (by omega), by simp⟩
    · rw [if_neg hbig]
      refine ⟨iff_of_true rfl (by omega), fun out hout => ?_⟩
      obtain rfl := Option.some.inj hout
      exact Int64.toInt_ofNat_of_lt (by omega)

/-- The function as a chain of its parts. -/
lemma parseScaled_eq_bind (s : Bytes) {scalePow : ℕ} (h : scalePow ≤ 18) :
    parseScaled s scalePow =
      if unsigned s = [] then none
      else (parseScaled.intPart (unsigned s) 0 false).bind fun r =>
        (parseScaled.fracPart scalePow (r.2.2.drop 1) 0 0 r.2.1).bind fun q =>
          if q.2.2 = false then none
          else parseScaled.result (charAt s 0 = minus) scalePow r.1 q.1 q.2.1 := by
  rw [parseScaled]
  by_cases hs : s = []
  · rw [if_pos (.inl hs), if_pos (by rw [hs]; rfl)]
  rw [if_neg (by rintro (h | h | h) <;> [exact hs h; omega; omega])]
  dsimp only
  rw [Int.toNat_natCast]
  change (if unsigned s = [] then none else _) = _
  congr 1
  unfold unsigned
  cases parseScaled.intPart (if charAt s 0 = minus then s.drop 1 else s) 0 false with
  | none => rfl
  | some r =>
    rw [Option.bind_some]
    dsimp only
    cases parseScaled.fracPart scalePow (r.2.2.drop 1) 0 0 r.2.1 with
    | none => rfl
    | some q => rfl

/-- An accepted text is a decimal. -/
lemma exists_decimal {s : Bytes} {scalePow : ℕ} (hscale : scalePow ≤ 18) {out : Int64}
    (h : parseScaled s scalePow = some out) : ∃ d : Decimal, d.text = s := by
  rw [parseScaled_eq_bind s hscale] at h
  split_ifs at h
  obtain ⟨⟨intPart, any, rest⟩, hint, h⟩ := Option.bind_eq_some_iff.mp h
  obtain ⟨⟨frac, fracDigits, any'⟩, hfrac, h⟩ := Option.bind_eq_some_iff.mp h
  split_ifs at h with hany
  obtain ⟨whole, hbody, hwhole, hrest, hwholeAny⟩ := parseScaled.digits_of_intPart hint
  obtain ⟨hfraction, hfracAny⟩ := parseScaled.digits_of_fracPart hfrac
  -- what follows the first digits is a point and the others, if it is anything
  obtain ⟨fraction, hpoint, hdrop⟩ : ∃ fraction : Option Bytes,
      fraction.elim [] (dot :: ·) = rest ∧ fraction.getD [] = rest.drop 1 := by
    cases rest with
    | nil => exact ⟨none, rfl, rfl⟩
    | cons c rest => exact ⟨some rest, by simp [hrest c rfl], rfl⟩
  refine ⟨⟨charAt s 0 = minus, whole, fraction, ?_, ?_⟩, ?_⟩
  · rw [hdrop]
    exact List.forall_mem_append.mpr ⟨hwhole, hfraction⟩
  · rw [hdrop]
    intro hempty
    obtain ⟨rfl, hnil⟩ := List.append_eq_nil_iff.mp hempty
    dsimp only at hfracAny
    rw [hnil, hwholeAny] at hfracAny
    exact hany hfracAny
  · rw [Decimal.text, Decimal.tail]
    simp only [decide_eq_true_eq]
    rw [hpoint, ← hbody]
    exact (unsigned_spec s).symm

namespace Decimal

variable {d : Decimal}

/-- The characters of a decimal. -/
lemma mem_text {c : UInt8} (h : c ∈ d.text) : c = minus ∨ c = dot ∨ isDigit c = true := by
  rcases List.mem_append.mp h with h | h
  · split_ifs at h
    · exact .inl (List.mem_singleton.mp h)
    · exact absurd h List.not_mem_nil
  · rcases List.mem_append.mp h with h | h
    · exact .inr (.inr (isDigit_whole h))
    · rw [tail] at h
      cases hf : d.fraction with
      | none => simp [hf] at h
      | some f =>
        rw [hf] at h
        rcases List.mem_cons.mp h with rfl | h
        · exact .inr (.inl rfl)
        · exact .inr (.inr (isDigit_fraction (by rwa [fractionDigits, hf])))

lemma whole_append_tail_ne_nil : d.whole ++ d.tail ≠ [] := by
  intro h
  obtain ⟨hwhole, htail⟩ := List.append_eq_nil_iff.mp h
  have hfraction := d.drop_tail
  rw [htail] at hfraction
  exact d.ne_nil (by rw [hwhole]; exact hfraction.symm)

lemma charAt_text : charAt d.text 0 = minus ↔ d.negative = true := by
  rw [text]
  cases hneg : d.negative with
  | true => simp [charAt]
  | false =>
    simp only [Bool.false_eq_true, if_false, List.nil_append, iff_false]
    cases hwhole : d.whole with
    | cons c whole =>
      have hc := d.isDigit_whole (hwhole ▸ List.mem_cons_self)
      rintro rfl
      simp [isDigit, minus] at hc
    | nil =>
      cases htail : d.tail with
      | nil => simp [charAt, minus]
      | cons c tail =>
        have hc := d.head_tail c (by rw [htail]; rfl)
        simp [charAt, hc, dot, minus]

lemma unsigned_text : unsigned d.text = d.whole ++ d.tail := by
  rw [unsigned]
  split_ifs with h
  · rw [text, if_pos (charAt_text.mp h)]
    rfl
  · rw [text, if_neg (mt charAt_text.mpr h), List.nil_append]

lemma isEmpty_digits : (!d.whole.isEmpty || !d.fractionDigits.isEmpty) = true := by
  have h := d.ne_nil
  rw [Ne, List.append_eq_nil_iff] at h
  cases hwhole : d.whole with
  | cons c whole => rfl
  | nil =>
    cases hfraction : d.fractionDigits with
    | cons c fraction => rfl
    | nil => exact absurd ⟨hwhole, hfraction⟩ h

/-- Of a decimal, the function computes the multiple, unless a digit is in its way. -/
lemma parseScaled_text {scalePow : ℕ} (hscale : scalePow ≤ 18) :
    parseScaled d.text scalePow =
      if digitsValue d.whole ≤ 2 ^ 63 ∧ ∀ c ∈ d.fractionDigits.drop scalePow, c = 48 then
        parseScaled.result (d.negative = true) scalePow (digitsValue d.whole)
          (digitsValue (d.fractionDigits.take scalePow)) (d.fractionDigits.take scalePow).length
      else none := by
  have hint := parseScaled.intPart_digits (fun c hc => d.isDigit_whole hc)
    (fun c hc => d.head_tail c hc) (Nat.zero_le _) false
  rw [parseScaled_eq_bind _ hscale, unsigned_text, if_neg whole_append_tail_ne_nil, hint,
    Nat.zero_mul, Nat.zero_add]
  by_cases hle : digitsValue d.whole ≤ 2 ^ 63
  · rw [if_pos hle, Option.bind_some]
    dsimp only
    rw [drop_tail, parseScaled.fracPart_digits (fun c hc => d.isDigit_fraction hc) 0
      (Nat.zero_le scalePow), Nat.sub_zero, Nat.zero_mul, Nat.zero_add, Nat.zero_add]
    by_cases hzeros : ∀ c ∈ d.fractionDigits.drop scalePow, c = 48
    · rw [if_pos hzeros, if_pos ⟨hle, hzeros⟩, Option.bind_some]
      dsimp only
      rw [Bool.false_or, isEmpty_digits, if_neg (by simp)]
      simp only [charAt_text]
    · rw [if_neg hzeros, if_neg fun h => hzeros h.2]
      rfl
  · rw [if_neg hle, if_neg fun h => hle h.1]
    rfl

lemma whole_le_magnitude (scalePow : ℕ) : digitsValue d.whole ≤ d.magnitude scalePow :=
  (Nat.le_mul_of_pos_right _ (Nat.pow_pos (by norm_num))).trans (Nat.le_add_right _ _)

/-- The bounds of a multiple are bounds of its absolute value. -/
lemma fits_iff {scalePow : ℕ} :
    d.Fits scalePow ↔ (∀ c ∈ d.fractionDigits.drop scalePow, c = 48) ∧
      d.magnitude scalePow ≤ if d.negative = true then 2 ^ 63 else 2 ^ 63 - 1 := by
  rw [Fits]
  refine and_congr_right fun hzeros => ?_
  rw [d.value_mul hzeros]
  split_ifs with hneg
  · constructor
    · rintro ⟨hlow, -⟩
      have hq : (d.magnitude scalePow : ℚ) ≤ 2 ^ 63 := by linarith
      exact_mod_cast hq
    · intro h
      have hq : (d.magnitude scalePow : ℚ) ≤ 2 ^ 63 := by exact_mod_cast h
      have hpos : (0 : ℚ) ≤ d.magnitude scalePow := Nat.cast_nonneg _
      exact ⟨by linarith, by linarith⟩
  · constructor
    · rintro ⟨-, hhigh⟩
      have hq : (d.magnitude scalePow : ℚ) + 1 ≤ 2 ^ 63 := by linarith
      have hnat : d.magnitude scalePow + 1 ≤ 2 ^ 63 := by exact_mod_cast hq
      omega
    · intro h
      have hnat : d.magnitude scalePow + 1 ≤ 2 ^ 63 := by omega
      have hq : (d.magnitude scalePow : ℚ) + 1 ≤ 2 ^ 63 := by exact_mod_cast hnat
      have hpos : (0 : ℚ) ≤ d.magnitude scalePow := Nat.cast_nonneg _
      exact ⟨by linarith, by linarith⟩

/-- **The function is exact on decimals.** -/
lemma parseScaled_spec {scalePow : ℕ} (hscale : scalePow ≤ 18) :
    ((parseScaled d.text scalePow).isSome = true ↔ d.Fits scalePow) ∧
      ∀ out ∈ parseScaled d.text scalePow, (out.toInt : ℚ) = d.value * 10 ^ scalePow := by
  rw [parseScaled_text hscale, fits_iff]
  by_cases hzeros : ∀ c ∈ d.fractionDigits.drop scalePow, c = 48
  · obtain ⟨hsome, hout⟩ := @parseScaled.result_exact (d.negative = true) _ scalePow
      (digitsValue d.whole) (digitsValue (d.fractionDigits.take scalePow))
      (d.fractionDigits.take scalePow).length (d.magnitude scalePow) rfl
    by_cases hle : digitsValue d.whole ≤ 2 ^ 63
    · rw [if_pos ⟨hle, hzeros⟩]
      refine ⟨hsome.trans (and_iff_right hzeros).symm, fun out h => ?_⟩
      rw [d.value_mul hzeros, hout out h]
      split_ifs <;> simp
    · -- the digits before the point are too large already
      have hmagnitude := d.whole_le_magnitude scalePow
      rw [if_neg fun h => hle h.1]
      refine ⟨iff_of_false (by simp) fun h => ?_, by simp⟩
      have hlimit := h.2
      split_ifs at hlimit <;> omega
  · rw [if_neg fun h => hzeros h.2]
    exact ⟨iff_of_false (by simp) fun h => hzeros h.1, by simp⟩

end Decimal

/-- **`parse_scaled` is exact.** It accepts the decimals whose multiple of `10^-scale_pow` is an
integer of 64 bits, and then the output is this integer; otherwise the output is left alone.  There
is no overflow in either case. -/
theorem parseScaled_exact (s : Bytes) (scalePow : ℕ) (hscale : scalePow ≤ 18) (out : Int64) :
    ∃ accepted out', (parseScaled128 s scalePow).into out = some (accepted, out') ∧
      (accepted = true ↔ ∃ d : Decimal, d.text = s ∧ d.Fits scalePow) ∧
      (accepted = true →
        ∀ d : Decimal, d.text = s → (out'.toInt : ℚ) = d.value * 10 ^ scalePow) ∧
      (accepted = false → out' = out) := by
  rw [parseScaled128_eq]
  cases hs : parseScaled s scalePow with
  | none =>
    refine ⟨false, out, rfl, iff_of_false (by simp) ?_, by simp, fun _ => rfl⟩
    rintro ⟨d, rfl, hfits⟩
    have hsome := (d.parseScaled_spec hscale).1.mpr hfits
    rw [hs] at hsome
    simp at hsome
  | some out' =>
    refine ⟨true, out', rfl, iff_of_true rfl ?_, ?_, by simp⟩
    · obtain ⟨d, rfl⟩ := exists_decimal hscale hs
      exact ⟨d, rfl, (d.parseScaled_spec hscale).1.mp (by rw [hs]; rfl)⟩
    · rintro - d rfl
      exact (d.parseScaled_spec hscale).2 out' hs

/-- The smallest number, with more zeros than the scale has places. -/
theorem parseScaled_exact_min :
    ∃ accepted out',
      (parseScaled128 (lit "-92233720368.547758080000") (8 : ℕ)).into 0 = some (accepted, out') ∧
        (accepted = false → out' = 0) ∧ out' = Int64.minValue := by
  obtain ⟨accepted, out', heq, -, -, hfalse⟩ :=
    parseScaled_exact (lit "-92233720368.547758080000") 8 (by omega) 0
  refine ⟨accepted, out', heq, hfalse, ?_⟩
  have hcompute : (parseScaled128 (lit "-92233720368.547758080000") (8 : ℕ)).into 0 =
      some (true, Int64.minValue) := by
    decide +kernel
  rw [heq] at hcompute
  exact (Prod.mk.inj (Option.some.inj hcompute)).2

end LobCapture
