/-
# Lines and decimal numbers

Texts are lists of bytes.  A text is cut into lines the way repeated calls of `getline` cut it,
and integers are written and read back as the C library does it in base 10.
-/
import Mathlib.Data.List.TakeWhile
import Mathlib.Tactic.Ring

namespace LobCapture.Lib

abbrev Bytes := List UInt8

/-- The bytes of a text. -/
def lit (s : String) : Bytes := s.toByteArray.data.toList

/-! ## Lines -/

def newline : UInt8 := 10

/-- The lines of a text; what follows the last line break is a line if it is not empty. -/
def lines : Bytes → List Bytes
  | [] => []
  | c :: s =>
    if c = newline then [] :: lines s
    else
      match lines s with
      | [] => [[c]]
      | l :: ls => (c :: l) :: ls

lemma lines_append {l : Bytes} (h : newline ∉ l) (s : Bytes) :
    lines (l ++ newline :: s) = l :: lines s := by
  induction l with
  | nil => simp [lines]
  | cons c l ih =>
    rw [List.mem_cons, not_or] at h
    rw [List.cons_append, lines, if_neg (Ne.symm h.1), ih h.2]

/-- A text that was put together from lines is cut into them again. -/
lemma lines_flatMap {α : Type*} {f : α → Bytes} (l : List α) (h : ∀ x ∈ l, newline ∉ f x) :
    lines (l.flatMap fun x => f x ++ [newline]) = l.map f := by
  induction l with
  | nil => rfl
  | cons x l ih =>
    rw [List.flatMap_cons, List.append_assoc, List.singleton_append,
      lines_append (h x List.mem_cons_self), ih fun y hy => h y (List.mem_cons_of_mem _ hy),
      List.map_cons]

lemma lines_of_notMem {l : Bytes} (h : newline ∉ l) (hne : l ≠ []) : lines l = [l] := by
  induction l with
  | nil => exact absurd rfl hne
  | cons c l ih =>
    rw [List.mem_cons, not_or] at h
    rw [lines, if_neg (Ne.symm h.1)]
    cases l with
    | nil => rfl
    | cons d l => rw [ih h.2 (by simp)]

/-- The lines that are not empty. -/
def fullLines (s : Bytes) : List Bytes := (lines s).filter (· ≠ [])

lemma fullLines_of_notMem {l : Bytes} (h : newline ∉ l) (hne : l ≠ []) : fullLines l = [l] := by
  rw [fullLines, lines_of_notMem h hne]
  simp [hne]

/-- A line break ends a line, and what follows is cut on its own. -/
lemma fullLines_append (a b : Bytes) :
    fullLines (a ++ newline :: b) = fullLines a ++ fullLines b := by
  induction hn : a.length using Nat.strong_induction_on generalizing a with
  | _ n ih =>
    by_cases h : newline ∈ a
    · -- the first line of `a`, and the others
      obtain ⟨l, r, rfl, hl⟩ := List.eq_append_cons_of_mem h
      have hr := ih r.length (by rw [← hn, List.length_append, List.length_cons]; omega) r rfl
      rw [List.append_assoc, List.cons_append, fullLines, lines_append hl, fullLines,
        lines_append hl, List.filter_cons, List.filter_cons]
      split_ifs
      · exact congrArg (l :: ·) hr
      · exact hr
    · by_cases hne : a = []
      · simp [hne, fullLines, lines]
      · rw [fullLines_of_notMem h hne, fullLines, lines_append h]
        simp [hne, fullLines]

lemma fullLines_ne_nil {s : Bytes} {c : UInt8} (h : c ∈ s) (hc : c ≠ newline) :
    fullLines s ≠ [] := by
  induction hn : s.length using Nat.strong_induction_on generalizing s with
  | _ n ih =>
    by_cases hs : newline ∈ s
    · obtain ⟨l, r, rfl, hl⟩ := List.eq_append_cons_of_mem hs
      rw [fullLines_append]
      rcases List.mem_append.mp h with h | h
      · rw [fullLines_of_notMem hl (List.ne_nil_of_mem h)]
        simp
      · have hr := ih r.length (by rw [← hn, List.length_append, List.length_cons]; omega)
          ((List.mem_cons.mp h).resolve_left hc) rfl
        simp [hr]
    · rw [fullLines_of_notMem hs (List.ne_nil_of_mem h)]
      simp

/-- The lines of a text that was put together from several ones. -/
lemma fullLines_flatMap {α : Type*} (f : α → Bytes) (l : List α) :
    fullLines (l.flatMap fun x => f x ++ [newline]) = l.flatMap fun x => fullLines (f x) := by
  induction l with
  | nil => rfl
  | cons x l ih =>
    rw [List.flatMap_cons, List.append_assoc, List.singleton_append, fullLines_append, ih,
      List.flatMap_cons]

/-- A line break between two other characters makes two lines. -/
lemma newline_notMem_of_fullLines {a l : Bytes} (h : fullLines a = [l])
    (hends : ∀ p q, a = p ++ newline :: q →
      (∃ x ∈ p, x ≠ newline) ∧ ∃ x ∈ q, x ≠ newline) : newline ∉ a ∧ l = a := by
  have hnl : newline ∉ a := by
    intro hmem
    obtain ⟨p, q, rfl⟩ := List.append_of_mem hmem
    obtain ⟨⟨x, hx, hxn⟩, z, hz, hzn⟩ := hends p q rfl
    have hp := List.length_pos_iff.mpr (fullLines_ne_nil hx hxn)
    have hq := List.length_pos_iff.mpr (fullLines_ne_nil hz hzn)
    have hlen := congrArg List.length h
    rw [fullLines_append, List.length_append, List.length_singleton] at hlen
    omega
  refine ⟨hnl, ?_⟩
  by_cases hne : a = []
  · rw [hne] at h
    simp [fullLines, lines] at h
  · rw [fullLines_of_notMem hnl hne] at h
    exact (List.singleton_inj.mp h).symm

/-! ## Decimal numbers -/

def isDigit (c : UInt8) : Bool := 48 ≤ c && c ≤ 57

/-- `%llu`. -/
def decimal (n : ℕ) : Bytes := (Nat.toDigits 10 n).map fun c => c.toNat.toUInt8

/-- The value of a text of digits. -/
def digitsValue (s : Bytes) : ℕ := s.foldl (fun v c => 10 * v + (c.toNat - 48)) 0

lemma foldl_digits (s : Bytes) (v : ℕ) :
    s.foldl (fun v c => 10 * v + (c.toNat - 48)) v = v * 10 ^ s.length + digitsValue s := by
  induction s generalizing v with
  | nil => simp [digitsValue]
  | cons c s ih =>
    rw [digitsValue, List.foldl_cons, List.foldl_cons, ih, ih, List.length_cons, pow_succ]
    ring

lemma digitsValue_cons (c : UInt8) (s : Bytes) :
    digitsValue (c :: s) = (c.toNat - 48) * 10 ^ s.length + digitsValue s := by
  rw [digitsValue, List.foldl_cons, foldl_digits, Nat.mul_zero, Nat.zero_add]

lemma digitsValue_append (a b : Bytes) :
    digitsValue (a ++ b) = digitsValue a * 10 ^ b.length + digitsValue b := by
  rw [digitsValue, List.foldl_append, foldl_digits]
  rfl

lemma digitsValue_zeros {s : Bytes} (h : ∀ c ∈ s, c = 48) : digitsValue s = 0 := by
  rw [List.eq_replicate_of_mem h]
  induction s.length with
  | zero => rfl
  | succ n ih => rw [List.replicate_succ, digitsValue_cons, ih]; simp

/-- A digit is one byte. -/
lemma digit_byte {c : Char} (h : c.isDigit = true) :
    isDigit c.toNat.toUInt8 = true ∧ c.toNat.toUInt8.toNat = c.toNat := by
  rw [Char.isDigit_iff_toNat] at h
  have hbyte : c.toNat.toUInt8.toNat = c.toNat := by
    have hle : c.toNat ≤ 57 := h.2
    rw [Nat.toUInt8_eq, UInt8.toNat_ofNat']
    exact Nat.mod_eq_of_lt (by omega)
  refine ⟨?_, hbyte⟩
  simp only [isDigit, Bool.and_eq_true, decide_eq_true_eq, UInt8.le_iff_toNat_le, hbyte]
  exact h

lemma isDigit_of_mem_decimal (n : ℕ) : ∀ c ∈ decimal n, isDigit c = true := by
  intro c hc
  obtain ⟨d, hd, rfl⟩ := List.mem_map.mp hc
  exact (digit_byte (Nat.isDigit_of_mem_toDigits (by omega) (by omega) hd)).1

lemma decimal_ne_nil (n : ℕ) : decimal n ≠ [] := by
  simp [decimal]

lemma digitsValue_decimal (n : ℕ) : digitsValue (decimal n) = n := by
  have hfold : ∀ (l : List Char) (v : ℕ), (∀ c ∈ l, c.isDigit = true) →
      (l.map fun c => c.toNat.toUInt8).foldl (fun v c => 10 * v + (c.toNat - 48)) v =
        Nat.ofDigitChars 10 l v := by
    intro l
    induction l with
    | nil => exact fun v _ => rfl
    | cons c l ih =>
      intro v hl
      rw [List.map_cons, List.foldl_cons, ih _ fun d hd => hl d (List.mem_cons_of_mem _ hd),
        (digit_byte (hl c List.mem_cons_self)).2]
      rfl
  rw [digitsValue, decimal, hfold _ _ fun c hc =>
    Nat.isDigit_of_mem_toDigits (by omega) (by omega) hc]
  exact Nat.ofDigitChars_ten_toDigits

/-- The value of the digits a text starts with. -/
def readDecimal (s : Bytes) : ℕ := digitsValue (s.takeWhile isDigit)

lemma readDecimal_decimal (n : ℕ) : readDecimal (decimal n) = n := by
  rw [readDecimal, List.takeWhile_eq_self_iff.mpr (isDigit_of_mem_decimal n), digitsValue_decimal]

/-- `isspace` in the C locale. -/
def isSpace (c : UInt8) : Bool := c = 32 || (9 ≤ c && c ≤ 13)

/-- The sign of an integer, as an optional `-` or `+` after blanks, and the text behind it. -/
def readSign (s : Bytes) : Bool × Bytes :=
  match s.dropWhile isSpace with
  | 45 :: r => (true, r)
  | 43 :: r => (false, r)
  | r => (false, r)

/-- The integer a text starts with. -/
def readInteger (s : Bytes) : ℤ :=
  let (negative, r) := readSign s
  if negative then -(readDecimal r : ℤ) else readDecimal r

/-- `%lld`. -/
def integer (i : ℤ) : Bytes := if i < 0 then 45 :: decimal i.natAbs else decimal i.natAbs

/-- A text that starts with a digit has no sign. -/
lemma readSign_of_isDigit {c : UInt8} (h : isDigit c = true) (s : Bytes) :
    readSign (c :: s) = (false, c :: s) := by
  simp only [isDigit, Bool.and_eq_true, decide_eq_true_eq, UInt8.le_iff_toNat_le] at h
  have hspace : isSpace c = false := by
    simp only [isSpace, Bool.or_eq_false_iff, Bool.and_eq_false_iff, decide_eq_false_iff_not,
      UInt8.le_iff_toNat_le, ← UInt8.toNat_inj]
    simp only [UInt8.reduceToNat] at h ⊢
    omega
  have hminus : c ≠ 45 := by
    rintro rfl
    simp at h
  have hplus : c ≠ 43 := by
    rintro rfl
    simp at h
  -- a digit is no blank and no sign
  rw [readSign, List.dropWhile_cons_of_neg (by simp [hspace])]
  split
  · rename_i heq
    exact absurd (List.cons.inj heq).1 hminus
  · rename_i heq
    exact absurd (List.cons.inj heq).1 hplus
  · rfl

lemma readSign_decimal (n : ℕ) : readSign (decimal n) = (false, decimal n) := by
  obtain ⟨c, s, hcs⟩ := List.exists_cons_of_ne_nil (decimal_ne_nil n)
  rw [hcs]
  exact readSign_of_isDigit (isDigit_of_mem_decimal n c (hcs ▸ List.mem_cons_self)) s

/-- **An integer is read back as it was written.** -/
theorem readInteger_integer (i : ℤ) : readInteger (integer i) = i := by
  unfold readInteger integer
  split_ifs with h
  · show (-(readDecimal (decimal i.natAbs) : ℤ)) = i
    rw [readDecimal_decimal]
    omega
  · rw [readSign_decimal]
    show (readDecimal (decimal i.natAbs) : ℤ) = i
    rw [readDecimal_decimal]
    omega

/-! ### The functions of the C library -/

/-- `atoll`, which is undefined outside the range of its type. -/
def atoll (s : Bytes) : Int64 := .ofInt (readInteger s)

/-- `atoi`, which is undefined outside the range of its type. -/
def atoi (s : Bytes) : Int32 := .ofInt (readInteger s)

/-- `strtoull` in base 10. -/
def strtoull (s : Bytes) : UInt64 :=
  let (negative, r) := readSign s
  if UInt64.size ≤ readDecimal r then .ofNat (UInt64.size - 1)
  else if negative then -.ofNat (readDecimal r)
  else .ofNat (readDecimal r)

lemma atoll_integer (i : Int64) : atoll (integer i.toInt) = i := by
  rw [atoll, readInteger_integer, Int64.ofInt_toInt]

lemma atoi_integer (i : Int32) : atoi (integer i.toInt) = i := by
  rw [atoi, readInteger_integer, Int32.ofInt_toInt]

lemma strtoull_decimal (n : UInt64) : strtoull (decimal n.toNat) = n := by
  simp only [strtoull, readSign_decimal, readDecimal_decimal]
  rw [if_neg (not_le_of_gt n.toNat_lt_size)]
  exact UInt64.ofNat_toNat

/-- The characters of a number. -/
lemma mem_integer {c : UInt8} {i : ℤ} (h : c ∈ integer i) : c = 45 ∨ isDigit c = true := by
  unfold integer at h
  split_ifs at h
  · rcases List.mem_cons.mp h with rfl | h
    · exact .inl rfl
    · exact .inr (isDigit_of_mem_decimal _ c h)
  · exact .inr (isDigit_of_mem_decimal _ c h)

end LobCapture.Lib
