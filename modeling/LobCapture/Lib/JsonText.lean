/-
# Compact JSON

JSON values, and their text without blanks.  A number is kept as its text, and a string as the
text between its quotes, escapes included.
-/
import LobCapture.Lib.Text

namespace LobCapture.Lib

/-- A JSON value. -/
inductive Json
  | null
  | bool (b : Bool)
  | num (text : Bytes)
  | str (text : Bytes)
  | arr (items : List Json)
  | obj (members : List (Bytes × Json))

namespace Json

/-! ## Text -/

mutual

/-- The text of a value. -/
def text : Json → Bytes
  | .null => lit "null"
  | .bool true => lit "true"
  | .bool false => lit "false"
  | .num t => t
  | .str t => 34 :: t ++ [34]
  | .arr items => 91 :: (itemsText items).tail ++ [93]
  | .obj members => 123 :: (membersText members).tail ++ [125]
termination_by structural v => v

/-- The items of an array, each behind a comma. -/
def itemsText : List Json → Bytes
  | [] => []
  | v :: vs => 44 :: v.text ++ itemsText vs
termination_by structural vs => vs

/-- The members of an object, each behind a comma. -/
def membersText : List (Bytes × Json) → Bytes
  | [] => []
  | m :: ms => 44 :: memberText m ++ membersText ms
termination_by structural ms => ms

def memberText : Bytes × Json → Bytes
  | (name, v) => 34 :: name ++ 34 :: 58 :: v.text
termination_by structural m => m

end

@[simp] lemma text_num (t : Bytes) : (num t).text = t := rfl

@[simp] lemma text_str (t : Bytes) : (str t).text = 34 :: t ++ [34] := rfl

lemma text_arr (vs : List Json) : (arr vs).text = 91 :: (itemsText vs).tail ++ [93] := rfl

lemma text_obj (ms : List (Bytes × Json)) :
    (obj ms).text = 123 :: (membersText ms).tail ++ [125] := rfl

@[simp] lemma itemsText_nil : itemsText [] = [] := rfl

@[simp] lemma itemsText_cons (v : Json) (vs : List Json) :
    itemsText (v :: vs) = 44 :: v.text ++ itemsText vs := rfl

@[simp] lemma membersText_nil : membersText [] = [] := rfl

@[simp] lemma membersText_cons (m : Bytes × Json) (ms : List (Bytes × Json)) :
    membersText (m :: ms) = 44 :: memberText m ++ membersText ms := rfl

lemma memberText_mk (name : Bytes) (v : Json) :
    memberText (name, v) = 34 :: name ++ 34 :: 58 :: v.text := rfl

/-- The characters of a number. -/
def isNumberChar (c : UInt8) : Bool :=
  isDigit c || c = 43 || c = 45 || c = 46 || c = 69 || c = 101

lemma isNumberChar_of_isDigit {c : UInt8} (h : isDigit c = true) : isNumberChar c = true := by
  simp [isNumberChar, h]

/-- The items of an array. -/
def getArray : Json → Option (List Json)
  | .arr vs => some vs
  | _ => none

/-- The text of a string. -/
def getString : Json → Option Bytes
  | .str t => some t
  | _ => none

/-- The value of a member of an object. -/
def member (key : Bytes) : Json → Option Json
  | .obj ms => ms.lookup key
  | _ => none

end Json

/-! ## Going through the members of an object -/

section Members

variable {σ κ ν α : Type*} {step : σ → κ × ν → σ} {ms : List (κ × ν)}

/-- What every member adds something to. -/
lemma foldl_flatMap {f : σ → List α} {g : κ × ν → List α}
    (h : ∀ m ∈ ms, ∀ s, f (step s m) = f s ++ g m) (s : σ) :
    f (ms.foldl step s) = f s ++ ms.flatMap g := by
  induction ms generalizing s with
  | nil => simp
  | cons m ms ih =>
    rw [List.foldl_cons, ih fun m hm => h m (List.mem_cons_of_mem _ hm), h m List.mem_cons_self,
      List.flatMap_cons, List.append_assoc]

/-- What every member has to satisfy. -/
lemma foldl_all {f : σ → Bool} {g : κ × ν → Bool}
    (h : ∀ m ∈ ms, ∀ s, f (step s m) = (f s && g m)) (s : σ) :
    f (ms.foldl step s) = (f s && ms.all g) := by
  induction ms generalizing s with
  | nil => simp
  | cons m ms ih =>
    rw [List.foldl_cons, ih fun m hm => h m (List.mem_cons_of_mem _ hm), h m List.mem_cons_self,
      List.all_cons, Bool.and_assoc]

variable [BEq κ] [LawfulBEq κ] {key : κ}

lemma lookup_eq_none_of_notMem (h : key ∉ ms.map Prod.fst) : ms.lookup key = none := by
  rw [List.lookup_eq_none_iff]
  intro m hm
  exact bne_iff_ne.mpr fun hkey => h (hkey ▸ List.mem_map_of_mem hm)

lemma mem_of_lookup {v : ν} (h : ms.lookup key = some v) : (key, v) ∈ ms := by
  obtain ⟨before, after, rfl, -⟩ := List.lookup_eq_some_iff.mp h
  simp

/-- What only the member with the given key changes. -/
lemma foldl_lookup {f : σ → α} {g : ν → α} (hkey : ∀ s v, f (step s (key, v)) = g v)
    (hother : ∀ s m, m.1 ≠ key → f (step s m) = f s) (hnodup : (ms.map Prod.fst).Nodup) (s : σ) :
    f (ms.foldl step s) = (ms.lookup key).elim (f s) g := by
  induction ms generalizing s with
  | nil => rfl
  | cons m ms ih =>
    obtain ⟨hm, hms⟩ := List.nodup_cons.mp hnodup
    rw [List.foldl_cons, ih hms, List.lookup_cons]
    by_cases hmk : key = m.1
    · -- it is the only one
      subst hmk
      rw [lookup_eq_none_of_notMem hm, beq_self_eq_true]
      exact hkey s m.2
    · rw [beq_false_of_ne hmk, hother s m (Ne.symm hmk)]

/-- What is made of the member with the given key. -/
lemma flatMap_eq_lookup [DecidableEq κ] (hnodup : (ms.map Prod.fst).Nodup) (f : ν → List α) :
    ms.flatMap (fun m => if m.1 = key then f m.2 else []) = (ms.lookup key).elim [] f := by
  induction ms with
  | nil => rfl
  | cons m ms ih =>
    obtain ⟨hm, hms⟩ := List.nodup_cons.mp hnodup
    rw [List.flatMap_cons, ih hms, List.lookup_cons]
    by_cases hmk : key = m.1
    · subst hmk
      rw [lookup_eq_none_of_notMem hm, beq_self_eq_true, if_pos rfl]
      exact List.append_nil _
    · rw [beq_false_of_ne hmk, if_neg (Ne.symm hmk), List.nil_append]

end Members

end LobCapture.Lib
