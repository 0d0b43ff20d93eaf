/-
# Formatted output

`snprintf` of the C library, for the conversions of integers, characters and strings without
flags and widths.  It stores as much of the text as the buffer holds and returns the length of the
whole text, so a caller that reads that many characters of the buffer relies on the text being
shorter than the buffer.  How long it can get depends on the types of the arguments
(`length_sprintf_le`).
-/
import LobCapture.Lib.Text

namespace LobCapture.Lib

/-! ## Formats -/

/-- `%d`, `%lld`, `%llu`, `%c` and `%s`. -/
inductive Conversion where
  | int
  | longLong
  | unsignedLongLong
  | char
  | string
deriving DecidableEq

/-- A piece of a format. -/
inductive Directive where
  | text (c : UInt8)
  | conversion (k : Conversion)
deriving DecidableEq

/-- The pieces of a format, unless it has a conversion that is not known. -/
def directives : Bytes → Option (List Directive)
  | [] => some []
  | 37 :: 100 :: s => (directives s).map (.conversion .int :: ·)
  | 37 :: 108 :: 108 :: 100 :: s => (directives s).map (.conversion .longLong :: ·)
  | 37 :: 108 :: 108 :: 117 :: s => (directives s).map (.conversion .unsignedLongLong :: ·)
  | 37 :: 99 :: s => (directives s).map (.conversion .char :: ·)
  | 37 :: 115 :: s => (directives s).map (.conversion .string :: ·)
  | c :: s => if c = 37 then none else (directives s).map (.text c :: ·)

/-- An argument. -/
inductive Arg where
  | int (v : Int32)
  | longLong (v : Int64)
  | unsignedLongLong (v : UInt64)
  | char (c : UInt8)
  | string (s : Bytes)

namespace Arg

/-- The conversion for the type of the argument. -/
def conversion : Arg → Conversion
  | int _ => .int
  | longLong _ => .longLong
  | unsignedLongLong _ => .unsignedLongLong
  | char _ => .char
  | string _ => .string

def text : Arg → Bytes
  | int v => integer v.toInt
  | longLong v => integer v.toInt
  | unsignedLongLong v => decimal v.toNat
  | char c => [c]
  | string s => s

/-- How long the text of a value of that type can get. -/
def width : Arg → ℕ
  | int _ => 11
  | longLong _ => 20
  | unsignedLongLong _ => 20
  | char _ => 1
  | string s => s.length

end Arg

/-- The text of a format, unless an argument is missing or is of another type.  Arguments that are
left over are ignored. -/
def render : List Directive → List Arg → Option Bytes
  | [], _ => some []
  | .text c :: ds, args => (render ds args).map (c :: ·)
  | .conversion _ :: _, [] => none
  | .conversion k :: ds, a :: args =>
    if a.conversion = k then (render ds args).map (a.text ++ ·) else none

/-- The whole text. -/
def sprintf (format : Bytes) (args : List Arg) : Option Bytes :=
  (directives format).bind fun ds => render ds args

/-- `snprintf`: the characters in the buffer before the one that ends the string, and the
result. -/
def snprintf (size : ℕ) (format : Bytes) (args : List Arg) : Option (Bytes × ℕ) :=
  (sprintf format args).map fun s => (s.take (size - 1), s.length)

/-- The first `n` characters of a buffer, unless this goes beyond the text in it. -/
def firstChars (x : Bytes × ℕ) : Option Bytes :=
  if x.2 ≤ x.1.length then some (x.1.take x.2) else none

/-! ## Lengths -/

lemma length_decimal_le {n k : ℕ} (hk : 0 < k) (h : n < 10 ^ k) : (decimal n).length ≤ k := by
  rw [decimal, List.length_map]
  exact (Nat.length_toDigits_le_iff (by decide) hk).mpr h

lemma length_integer_le {i : ℤ} {k : ℕ} (hk : 0 < k) (h : i.natAbs < 10 ^ k) :
    (integer i).length ≤ k + 1 := by
  have hdigits := length_decimal_le hk h
  rw [integer]
  split_ifs
  · rw [List.length_cons]
    omega
  · omega

namespace Arg

lemma length_text_le (a : Arg) : a.text.length ≤ a.width := by
  cases a with
  | int v =>
    refine @length_integer_le v.toInt 10 (by decide) ?_
    have hlt := v.toInt_lt
    have hle := v.le_toInt
    omega
  | longLong v =>
    refine @length_integer_le v.toInt 19 (by decide) ?_
    have hlt := v.toInt_lt
    have hle := v.le_toInt
    omega
  | unsignedLongLong v =>
    refine @length_decimal_le v.toNat 20 (by decide) ?_
    have hlt := v.toNat_lt
    omega
  | char c => exact le_rfl
  | string s => exact le_rfl

end Arg

lemma length_render_le {ds : List Directive} {args : List Arg} {s : Bytes}
    (h : render ds args = some s) : s.length ≤ ds.length + (args.map Arg.width).sum := by
  induction ds generalizing args s with
  | nil =>
    obtain rfl := Option.some.inj h
    exact Nat.zero_le _
  | cons d ds ih =>
    cases d with
    | text c =>
      obtain ⟨t, ht, rfl⟩ := Option.map_eq_some_iff.mp h
      have hlen := ih ht
      rw [List.length_cons, List.length_cons]
      omega
    | conversion k =>
      cases args with
      | nil => exact absurd h (by simp [render])
      | cons a args =>
        rw [render] at h
        split_ifs at h
        obtain ⟨t, ht, rfl⟩ := Option.map_eq_some_iff.mp h
        have hlen := ih ht
        have ha := a.length_text_le
        rw [List.length_append, List.length_cons, List.map_cons, List.sum_cons]
        omega

/-- **The text is no longer than the format and the widths of the arguments.** -/
theorem length_sprintf_le {format : Bytes} {ds : List Directive} {args : List Arg} {s : Bytes}
    (hformat : directives format = some ds) (h : sprintf format args = some s) :
    s.length ≤ ds.length + (args.map Arg.width).sum := by
  rw [sprintf, hformat, Option.bind_some] at h
  exact length_render_le h

/-- **A text that is shorter than the buffer is read back from it.** -/
theorem firstChars_snprintf {size : ℕ} {format : Bytes} {args : List Arg} {s : Bytes}
    (h : sprintf format args = some s) (hlt : s.length < size) :
    (snprintf size format args).bind firstChars = some s := by
  have htake : s.take (size - 1) = s := List.take_of_length_le (by omega)
  rw [snprintf, h, Option.map_some, Option.bind_some, htake, firstChars, if_pos le_rfl,
    List.take_length]

/-! ## Integers read back -/

/-- The value of a numeral: digits only, and at least one. -/
def toNumeral (s : Bytes) : Option ℕ :=
  if s ≠ [] ∧ s.all isDigit then some (digitsValue s) else none

/-- The integer that a text is, with nothing before or behind it. -/
def toInteger : Bytes → Option ℤ
  | 45 :: s => (toNumeral s).map fun n : ℕ => -(n : ℤ)
  | s => (toNumeral s).map fun n : ℕ => (n : ℤ)

lemma toNumeral_decimal (n : ℕ) : toNumeral (decimal n) = some n := by
  rw [toNumeral, if_pos ⟨decimal_ne_nil n, List.all_eq_true.mpr (isDigit_of_mem_decimal n)⟩,
    digitsValue_decimal]

lemma toInteger_decimal (n : ℕ) : toInteger (decimal n) = some (n : ℤ) := by
  have hnumeral := toNumeral_decimal n
  obtain ⟨c, s, hcs⟩ := List.exists_cons_of_ne_nil (decimal_ne_nil n)
  have hc := isDigit_of_mem_decimal n c (hcs ▸ List.mem_cons_self)
  rw [hcs] at hnumeral ⊢
  unfold toInteger
  split
  · rename_i heq
    rw [(List.cons.inj heq).1] at hc
    exact absurd hc (by decide)
  · rw [hnumeral, Option.map_some]

/-- **The text of an integer is that integer.** -/
theorem toInteger_integer (i : ℤ) : toInteger (integer i) = some i := by
  rw [integer]
  split_ifs with h
  · rw [toInteger, toNumeral_decimal, Option.map_some]
    exact congrArg some (by omega)
  · rw [toInteger_decimal]
    exact congrArg some (by omega)

end LobCapture.Lib
