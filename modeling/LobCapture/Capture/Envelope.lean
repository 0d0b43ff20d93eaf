/-
# The combined-stream envelope

`split_envelope` looks for its two keys anywhere in the frame, and counts braces to find the end
of the payload.  It takes an envelope apart into what was put in, and whatever the frame is, the
payload it returns is closed by its last brace and not before.
-/
import LobCapture.Capture.Buffers
import LobCapture.Capture.Scan

namespace LobCapture

open Lib

/-! ## Braces -/

/-- How many braces are open at the end of a text. -/
def braceDepth (s : Bytes) : ℤ := s.count openBrace - s.count closeBrace

/-- A text that begins with a brace, which is closed at the end and not before. -/
structure OneObject (d : Bytes) : Prop where
  opens : d.head? = some openBrace
  inside : ∀ k, 0 < k → k < d.length → 0 < braceDepth (d.take k)
  closes : braceDepth d = 0

instance oneObjectDecidable (d : Bytes) : Decidable (OneObject d) :=
  decidable_of_iff (d.head? = some openBrace ∧
      (∀ k < d.length, 0 < k → 0 < braceDepth (d.take k)) ∧ braceDepth d = 0)
    ⟨fun h => ⟨h.1, fun k hk hlt => h.2.1 k hlt hk, h.2.2⟩,
      fun h => ⟨h.opens, fun k hlt hk => h.inside k hk hlt, h.closes⟩⟩

section Braces

variable {s d : Bytes} {c : UInt8} {depth : ℤ}

/-- What a character adds to the depth. -/
def braceStep (c : UInt8) : ℤ := if c = openBrace then 1 else if c = closeBrace then -1 else 0

@[simp] lemma braceStep_openBrace : braceStep openBrace = 1 := by decide

@[simp] lemma braceStep_closeBrace : braceStep closeBrace = -1 := by decide

@[simp] lemma braceDepth_nil : braceDepth [] = 0 := rfl

@[simp] lemma braceDepth_cons (c : UInt8) (s : Bytes) :
    braceDepth (c :: s) = braceStep c + braceDepth s := by
  have hne : openBrace ≠ closeBrace := by decide
  simp only [braceDepth, braceStep, List.count_cons, beq_iff_eq]
  split_ifs with ho hc hc
  · exact absurd (ho.symm.trans hc) hne
  all_goals
    push_cast
    omega

/-- The depth is counted in an `int`, which does not overflow before a frame has `2 ^ 31` bytes. -/
lemma braceDepth_take_bounds (h : s.length < 2 ^ 31) (k : ℕ) :
    -2 ^ 31 < braceDepth (s.take k) ∧ braceDepth (s.take k) < 2 ^ 31 := by
  have hopen := (List.take_sublist k s).count_le openBrace
  have hclose := (List.take_sublist k s).count_le closeBrace
  have hopens := @List.count_le_length _ _ openBrace s
  have hcloses := @List.count_le_length _ _ closeBrace s
  rw [braceDepth]
  omega

lemma objectLength_cons (c : UInt8) (s : Bytes) (depth : ℤ) (n : ℕ) :
    objectLength (c :: s) depth n =
      if c = closeBrace ∧ depth - 1 = 0 then some (n + 1)
      else objectLength s (depth + braceStep c) (n + 1) := by
  have hne : openBrace ≠ closeBrace := by decide
  rw [objectLength, braceStep]
  by_cases ho : c = openBrace
  · rw [if_pos ho, if_pos ho, if_neg fun hc => hne (ho.symm.trans hc.1)]
  · by_cases hc : c = closeBrace
    · simp only [if_neg ho, if_pos hc, and_iff_right hc, sub_eq_add_neg]
    · simp only [if_neg ho, hc, false_and, if_false, add_zero]

/-- The loop stops where the braces are closed. -/
lemma objectLength_append (hdepth : 0 < depth)
    (hinside : ∀ k, k < d.length → 0 < depth + braceDepth (d.take k))
    (hcloses : depth + braceDepth d = 0) (n : ℕ) (rest : Bytes) :
    objectLength (d ++ rest) depth n = some (n + d.length) := by
  induction d generalizing depth n with
  | nil => simp at hcloses; omega
  | cons c d ih =>
    rw [braceDepth_cons] at hcloses
    rw [List.cons_append, objectLength_cons, List.length_cons]
    have htail : ∀ k, k < d.length → 0 < depth + braceStep c + braceDepth (d.take k) := by
      intro k hk
      have := hinside (k + 1) (by simpa using hk)
      rw [List.take_succ_cons, braceDepth_cons] at this
      omega
    split_ifs with hc
    · -- nothing can follow
      cases d with
      | nil => rfl
      | cons c' d =>
        have hpos := htail 0 (by simp)
        simp only [hc.1, braceStep_closeBrace, List.take_zero, braceDepth_nil] at hpos
        omega
    · have hstep : 0 < depth + braceStep c := by
        cases d with
        | nil =>
          -- the last character closes the object
          exfalso
          rw [braceDepth_nil] at hcloses
          rw [braceStep] at hcloses
          split_ifs at hcloses with ho hclose
          · omega
          · exact hc ⟨hclose, by omega⟩
          · omega
        | cons c' d => simpa using htail 0 (by simp)
      rw [ih hstep htail (by omega), Nat.add_right_comm, Nat.add_assoc]

lemma OneObject.objectLength (h : OneObject d) (rest : Bytes) :
    objectLength (d ++ rest) 0 0 = some d.length := by
  obtain ⟨c, d, rfl⟩ := List.exists_cons_of_ne_nil (List.ne_nil_of_mem (List.mem_of_head? h.opens))
  obtain rfl : c = openBrace := Option.some.inj h.opens
  have hcloses := h.closes
  rw [List.cons_append, objectLength_cons, if_neg (fun hc => absurd hc.1 (by decide)),
    List.length_cons, Nat.add_comm d.length]
  refine objectLength_append (by decide) (fun k hk => ?_) ?_ _ rest
  · have := h.inside (k + 1) (Nat.succ_pos k) (by simpa using hk)
    rwa [List.take_succ_cons, braceDepth_cons] at this
  · rwa [braceDepth_cons] at hcloses

/-- Where the loop stops the braces are closed for the first time. -/
lemma objectLength_eq_some {n m : ℕ} (hdepth : 0 < depth)
    (h : LobCapture.objectLength s depth n = some m) :
    ∃ d rest, s = d ++ rest ∧ m = n + d.length ∧ d.getLast? = some closeBrace ∧
      (∀ k, k < d.length → 0 < depth + braceDepth (d.take k)) ∧ depth + braceDepth d = 0 := by
  induction s generalizing depth n with
  | nil => simp [LobCapture.objectLength, hdepth.ne'] at h
  | cons c s ih =>
    rw [objectLength_cons] at h
    split_ifs at h with hc
    · refine ⟨[c], s, rfl, (Option.some.inj h).symm, by rw [hc.1]; rfl, ?_, ?_⟩
      · intro k hk
        obtain rfl : k = 0 := by simpa using hk
        simpa using hdepth
      · simp only [hc.1, braceDepth_cons, braceDepth_nil, braceStep_closeBrace]
        omega
    · have hstep : 0 < depth + braceStep c := by
        rw [braceStep]
        split_ifs with ho hclose
        · omega
        · have : depth - 1 ≠ 0 := fun hzero => hc ⟨hclose, hzero⟩
          omega
        · omega
      obtain ⟨d, rest, rfl, rfl, hlast, hinside, hcloses⟩ := ih hstep h
      refine ⟨c :: d, rest, rfl, by rw [List.length_cons]; omega, ?_, ?_, ?_⟩
      · rw [List.getLast?_cons, hlast]
        rfl
      · rintro (_ | k) hk
        · simpa using hdepth
        · have := hinside k (by simpa using hk)
          rw [List.take_succ_cons, braceDepth_cons]
          omega
      · rw [braceDepth_cons]
        omega

end Braces

/-! ## Keys -/

/-- A pattern does not occur in a text at any position before the end of `a`. -/
def Absent (pat a rest : Bytes) : Prop := ∀ i < a.length, ¬ pat <+: (a ++ rest).drop i

section Absent

variable {pat a b rest key s : Bytes} {c : UInt8}

lemma absent_nil : Absent pat [] rest := fun _ hi => absurd hi (Nat.not_lt_zero _)

lemma absent_cons : Absent pat (c :: a) rest ↔ ¬ pat <+: c :: (a ++ rest) ∧ Absent pat a rest := by
  constructor
  · intro h
    exact ⟨h 0 (by simp), fun i hi => h (i + 1) (by simpa using hi)⟩
  · rintro ⟨hhead, htail⟩ (_ | i) hi
    · exact hhead
    · exact htail i (by simpa using hi)

lemma absent_append : Absent pat (a ++ b) rest ↔ Absent pat a (b ++ rest) ∧ Absent pat b rest := by
  induction a with
  | nil => simp [absent_nil]
  | cons c a ih => rw [List.cons_append, absent_cons, absent_cons, ih, List.append_assoc, and_assoc]

/-- The first character of the pattern does not occur. -/
lemma absent_of_notMem (h : c ∉ a) : Absent (c :: pat) a rest := by
  induction a with
  | nil => exact absent_nil
  | cons d a ih =>
    rw [List.mem_cons, not_or] at h
    rw [absent_cons, List.cons_prefix_cons]
    exact ⟨fun heq => h.1 heq.1, ih h.2⟩

/-- The key that is found between two quotes is what stands between them. -/
lemma quoted_eq_of_isPrefix (hkey : quote ∉ key) (hs : quote ∉ s)
    (h : key ++ [quote] <+: s ++ quote :: rest) : key = s := by
  induction key generalizing s with
  | nil =>
    cases s with
    | nil => rfl
    | cons c s =>
      rw [List.nil_append, List.cons_append, List.cons_prefix_cons] at h
      exact absurd (h.1 ▸ List.mem_cons_self) hs
  | cons d key ih =>
    rw [List.mem_cons, not_or] at hkey
    cases s with
    | nil =>
      rw [List.cons_append, List.nil_append, List.cons_prefix_cons] at h
      exact absurd h.1.symm hkey.1
    | cons c s =>
      rw [List.mem_cons, not_or] at hs
      rw [List.cons_append, List.cons_append, List.cons_prefix_cons] at h
      rw [h.1, ih hkey.2 hs.2 h.2]

/-- A pattern that is not in `a` does not begin there either, if it lacks the last character. -/
lemma absent_of_last (hlast : a.getLast? = some c) (hpat : c ∉ pat) (h : ¬ pat <:+: a) :
    Absent pat a rest := by
  rintro i hi ⟨t, ht⟩
  rw [List.drop_append_of_le_length hi.le] at ht
  rcases List.append_eq_append_iff.mp ht with ⟨u, hu, -⟩ | ⟨u, hu, -⟩
  · exact h ((List.prefix_append pat u).isInfix.trans (hu ▸ (List.drop_suffix i a).isInfix))
  · -- the pattern goes on behind the last character
    refine hpat ?_
    rw [hu]
    refine List.mem_append_left _ (List.mem_of_getLast? ?_)
    rw [List.getLast?_drop, if_neg (not_le_of_gt hi), hlast]

end Absent

/-- A key is found where it first stands, and the value behind the colon. -/
lemma findKey_append {a key v : Bytes} (ha : Absent (quote :: key ++ [quote]) a
      (quote :: key ++ [quote] ++ colon :: v))
    (hv : ∀ c ∈ v.head?, (c = blank || c = colon) = false) :
    findKey (a ++ (quote :: key ++ [quote] ++ colon :: v)) key =
      some (a.length + (key.length + 3)) := by
  rw [findKey, find_zero_of_append ha, Option.map_some, Option.some.injEq]
  refine @skipWhile_of_drop _ [colon] v _ _ ?_ (by simp) hv
  rw [← List.drop_drop, List.drop_left]
  have hlen : key.length + 2 = (quote :: key ++ [quote]).length := by simp
  rw [hlen, List.drop_left]
  rfl

/-! ## Envelopes -/

/-- A combined-stream frame. -/
def envelope (stream data : Bytes) : Bytes :=
  lit "\x7b\"stream\":\"" ++ stream ++ lit "\",\"data\":" ++ data ++ lit "\x7d"

/-- A frame with the two members in the other order. -/
def swappedEnvelope (stream data : Bytes) : Bytes :=
  lit "\x7b\"data\":" ++ data ++ lit ",\"stream\":\"" ++ stream ++ lit "\"\x7d"

section Envelope

variable {frame stream data : Bytes}

lemma OneObject.ne_nil (h : OneObject data) : data ≠ [] := by
  rintro rfl
  exact absurd h.opens (by simp)

lemma OneObject.exists_eq_cons (h : OneObject data) : ∃ d, data = openBrace :: d := by
  obtain ⟨c, d, rfl⟩ := List.exists_cons_of_ne_nil h.ne_nil
  exact ⟨d, by rw [Option.some.inj h.opens]⟩

lemma OneObject.getLast? (h : OneObject data) : data.getLast? = some closeBrace := by
  have hlen := h.objectLength []
  obtain ⟨d, rfl⟩ := h.exists_eq_cons
  rw [List.append_nil, objectLength_cons, if_neg (fun hc => absurd hc.1 (by decide))] at hlen
  obtain ⟨d', rest, rfl, hn, hlast, -, -⟩ := objectLength_eq_some (by decide) hlen
  rw [List.length_cons, List.length_append] at hn
  obtain rfl : rest = [] := List.length_eq_zero_iff.mp (by omega)
  rw [List.append_nil, List.getLast?_cons, hlast]
  rfl

/-- What `split_envelope` returns when it has found both values. -/
lemma splitEnvelopeInto_eq {sp dp : ℕ} (hs : findKey frame (lit "stream") = some sp)
    (hd : findKey frame (lit "data") = some dp) (rest rest' : Bytes)
    (hstream : frame.drop sp = quote :: (stream ++ quote :: rest)) (hquote : quote ∉ stream)
    (hdata : frame.drop dp = data ++ rest') (hobject : OneObject data)
    (out out' : Bytes) : splitEnvelopeInto frame out out' = (true, stream, data) := by
  have hfind := find_of_drop (drop_succ_of_drop hstream) hquote
  have hslice := slice_of_drop (drop_succ_of_drop hstream)
  have hopen : charAt frame dp = openBrace := by
    obtain ⟨d, rfl⟩ := hobject.exists_eq_cons
    exact charAt_of_drop hdata
  have hlength : LobCapture.objectLength (frame.drop dp) 0 0 = some data.length := by
    rw [hdata]
    exact hobject.objectLength rest'
  simp only [splitEnvelopeInto, hs, hd, charAt_of_drop hstream, if_true, hfind, Option.map_some,
    hslice, hopen, ne_eq, not_true_eq_false, if_false, hlength, slice_of_drop hdata]

/-- A quote that opens another text than the key. -/
lemma quoted_not_isPrefix {key s : Bytes} (hkey : quote ∉ key) (hs : quote ∉ s) (hne : key ≠ s)
    (rest : Bytes) : ¬ quote :: key ++ [quote] <+: quote :: (s ++ quote :: rest) := by
  rw [List.cons_append, List.cons_prefix_cons]
  exact fun h => hne (quoted_eq_of_isPrefix hkey hs h.2)

/-- Text before a key that is neither quoted nor opens a quote. -/
lemma absent_quoted {key s : Bytes} (hkey : quote ∉ key) (hs : quote ∉ s) (hne : key ≠ s)
    (rest : Bytes) :
    Absent (quote :: key ++ [quote]) (quote :: s) (quote :: rest) := by
  rw [absent_cons]
  exact ⟨quoted_not_isPrefix hkey hs hne rest, absent_of_notMem hs⟩

/-- **An envelope is taken apart** into its two members. -/
lemma splitEnvelopeInto_envelope (hquote : quote ∉ stream) (hne : stream ≠ lit "data")
    (hobject : OneObject data) (out out' : Bytes) :
    splitEnvelopeInto (envelope stream data) out out' = (true, stream, data) := by
  obtain ⟨d, hd⟩ := hobject.exists_eq_cons
  let value := data ++ lit "\x7d"
  let tail := comma :: (quote :: lit "data" ++ [quote] ++ colon :: value)
  have hopen : lit "\x7b\"stream\":\"" =
      [openBrace] ++ (quote :: lit "stream" ++ [quote] ++ [colon, quote]) := by decide
  have hmiddle : lit "\",\"data\":" =
      quote :: comma :: (quote :: lit "data" ++ [quote] ++ [colon]) := by decide
  have hlength : (lit "stream").length = 6 := by decide
  have hlength' : (lit "data").length = 4 := by decide
  have hframe : envelope stream data = [openBrace] ++ (quote :: lit "stream" ++ [quote] ++
      colon :: quote :: (stream ++ quote :: tail)) := by
    simp [envelope, hopen, hmiddle, tail, value]
  have hframe' : envelope stream data = ([openBrace] ++ (quote :: lit "stream") ++ [quote, colon] ++
      (quote :: stream) ++ [quote, comma]) ++
        (quote :: lit "data" ++ [quote] ++ colon :: value) := by
    simp [envelope, hopen, hmiddle, value]
  have hs : findKey (envelope stream data) (lit "stream") = some 10 := by
    rw [hframe, findKey_append]
    · rfl
    · exact absent_of_notMem (by decide)
    · simp [quote, blank, colon]
  have hdp : findKey (envelope stream data) (lit "data") = some (20 + stream.length) := by
    rw [hframe', findKey_append]
    · simp only [List.length_append, List.length_cons, List.length_nil, hlength, hlength']
      exact congrArg some (by omega)
    · simp only [absent_append, List.append_assoc]
      exact ⟨absent_of_notMem (by decide), absent_quoted (by decide) (by decide) (by decide) _,
        absent_quoted (by decide) (by decide) (by decide) _,
        absent_quoted (by decide) hquote hne.symm _,
        absent_quoted (by decide) (by decide) (by decide) _⟩
    · simp [value, hd, openBrace, blank, colon]
  refine splitEnvelopeInto_eq hs hdp tail (lit "\x7d") ?_ hquote ?_ hobject _ _
  · rw [hframe]
    rfl
  · have hlen : ([openBrace] ++ (quote :: lit "stream") ++ [quote, colon] ++ (quote :: stream) ++
        [quote, comma] ++ (quote :: lit "data" ++ [quote] ++ [colon])).length =
        20 + stream.length := by
      simp only [List.length_append, List.length_cons, List.length_nil, hlength, hlength']
      omega
    have hvalue := @List.drop_left' _ _ value _ hlen
    rw [hframe']
    simpa using hvalue

/-- The other order of the members, if the payload has no key `stream`. -/
lemma splitEnvelopeInto_swapped (hquote : quote ∉ stream) (hobject : OneObject data)
    (hkey : ¬ lit "\"stream\"" <:+: data) (out out' : Bytes) :
    splitEnvelopeInto (swappedEnvelope stream data) out out' = (true, stream, data) := by
  obtain ⟨d, hd⟩ := hobject.exists_eq_cons
  let tail := lit "\x7d"
  let rest := comma ::
    (quote :: lit "stream" ++ [quote] ++ colon :: quote :: (stream ++ quote :: tail))
  have hopen : lit "\x7b\"data\":" =
      [openBrace] ++ (quote :: lit "data" ++ [quote] ++ [colon]) := by decide
  have hmiddle : lit ",\"stream\":\"" =
      comma :: (quote :: lit "stream" ++ [quote] ++ [colon, quote]) := by decide
  have hclose : lit "\"\x7d" = quote :: tail := by decide
  have hkeyText : lit "\"stream\"" = quote :: lit "stream" ++ [quote] := by decide
  have hlength : (lit "stream").length = 6 := by decide
  have hlength' : (lit "data").length = 4 := by decide
  have hframe : swappedEnvelope stream data = [openBrace] ++
      (quote :: lit "data" ++ [quote] ++ colon :: (data ++ rest)) := by
    simp [swappedEnvelope, hopen, hmiddle, hclose, rest]
  have hframe' : swappedEnvelope stream data = ([openBrace] ++ (quote :: lit "data") ++
      [quote, colon] ++ data ++ [comma]) ++ (quote :: lit "stream" ++ [quote] ++
        colon :: quote :: (stream ++ quote :: tail)) := by
    simp [swappedEnvelope, hopen, hmiddle, hclose]
  have hdp : findKey (swappedEnvelope stream data) (lit "data") = some 8 := by
    rw [hframe, findKey_append]
    · rfl
    · exact absent_of_notMem (by decide)
    · simp [hd, openBrace, blank, colon]
  have hs : findKey (swappedEnvelope stream data) (lit "stream") =
      some (18 + data.length) := by
    rw [hframe', findKey_append]
    · simp only [List.length_append, List.length_cons, List.length_nil, hlength, hlength']
      exact congrArg some (by omega)
    · simp only [absent_append, List.append_assoc]
      refine ⟨absent_of_notMem (by decide), absent_quoted (by decide) (by decide) (by decide) _,
        ?_, absent_of_last hobject.getLast? (by decide) (hkeyText ▸ hkey),
        absent_of_notMem (by decide)⟩
      have htext : lit "stream" = 115 :: lit "tream" := by decide
      rw [absent_cons, List.cons_append, List.cons_prefix_cons]
      exact ⟨fun h => absurd h.2 (by simp [htext, colon]), absent_of_notMem (by decide)⟩
    · simp [quote, blank, colon]
  refine splitEnvelopeInto_eq hs hdp tail rest ?_ hquote ?_ hobject _ _
  · have hlen : ([openBrace] ++ (quote :: lit "data") ++ [quote, colon] ++ data ++ [comma] ++
        (quote :: lit "stream" ++ [quote] ++ [colon])).length = 18 + data.length := by
      simp only [List.length_append, List.length_cons, List.length_nil, hlength, hlength']
      omega
    have hvalue := @List.drop_left' _ _ (quote :: (stream ++ quote :: tail)) _ hlen
    rw [hframe']
    simpa using hvalue
  · rw [hframe]
    rfl

/-- **Whatever the frame is, an accepted payload is one object.** -/
lemma oneObject_of_splitEnvelopeInto {out out' : Bytes}
    (h : splitEnvelopeInto frame out out' = (true, stream, data)) :
    data <:+: frame ∧ OneObject data := by
  rw [splitEnvelopeInto] at h
  cases hs : findKey frame (lit "stream") with
  | none => simp [hs] at h
  | some sp =>
    cases hd : findKey frame (lit "data") with
    | none => simp [hs, hd] at h
    | some dp =>
      simp only [hs, hd] at h
      generalize (if charAt frame sp = quote then
        (find frame [quote] (sp + 1)).map fun b => slice frame (sp + 1) b
          else some out) = assigned at h
      cases assigned with
      | none => simp at h
      | some s =>
        dsimp only at h
        by_cases hopen : charAt frame dp = openBrace
        · rw [if_neg (not_not.mpr hopen)] at h
          cases hn : LobCapture.objectLength (frame.drop dp) 0 0 with
          | none => simp [hn] at h
          | some n =>
            have hdata : slice frame dp (dp + n) = data := by
              rw [hn] at h
              exact (Prod.mk.inj (Prod.mk.inj h).2).2
            have hdrop := drop_of_charAt hopen (by decide)
            rw [hdrop, objectLength_cons, if_neg (fun hc => absurd hc.1 (by decide))] at hn
            obtain ⟨d, rest, hrest, rfl, -, hinside, hcloses⟩ :=
              objectLength_eq_some (by decide) hn
            rw [hrest, ← List.cons_append] at hdrop
            have hslice := slice_of_drop hdrop
            rw [List.length_cons, Nat.add_comm d.length, ← Nat.add_assoc] at hslice
            rw [Nat.zero_add, ← Nat.add_assoc, hslice] at hdata
            rw [zero_add] at hinside hcloses
            subst hdata
            refine ⟨?_, rfl, ?_, by rw [braceDepth_cons, hcloses]⟩
            · exact (List.prefix_append _ rest).isInfix.trans
                (hdrop ▸ (List.drop_suffix dp frame).isInfix)
            · rintro (_ | k) hk hlt
              · exact absurd hk (lt_irrefl 0)
              · rw [List.take_succ_cons, braceDepth_cons]
                exact hinside k (by simpa using hlt)
        · simp [hopen] at h

end Envelope

/-! ## Result -/

/-- **`split_envelope` inverts the envelope**, in both orders of the members, and what it accepts is
one object of the frame, for every frame. -/
theorem splitEnvelope_inverts :
    (∀ stream data : Bytes, quote ∉ stream → stream ≠ lit "data" → OneObject data →
      ∀ out out' : Bytes,
        splitEnvelopeInto (envelope stream data) out out' = (true, stream, data) ∧
          (¬ lit "\"stream\"" <:+: data →
            splitEnvelopeInto (swappedEnvelope stream data) out out' = (true, stream, data))) ∧
      ∀ frame out out' stream data : Bytes,
        splitEnvelopeInto frame out out' = (true, stream, data) →
          data <:+: frame ∧ OneObject data ∧ data.getLast? = some closeBrace := by
  refine ⟨fun stream data hquote hne hobject out out' => ⟨?_, fun hkey => ?_⟩,
    fun frame out out' stream data h => ?_⟩
  · exact splitEnvelopeInto_envelope hquote hne hobject out out'
  · exact splitEnvelopeInto_swapped hquote hobject hkey out out'
  · obtain ⟨hsub, hobject⟩ := oneObject_of_splitEnvelopeInto h
    exact ⟨hsub, hobject, hobject.getLast?⟩

/-- A diff with a nested object, in both orders. -/
theorem splitEnvelope_inverts_nested :
    let stream := lit "btcusdt@depth@100ms"
    let data := lit "\x7b\"data\":\x7b\"u\":1\x7d,\"b\":[]\x7d"
    splitEnvelopeInto (envelope stream data) [] [] = (true, stream, data) ∧
      splitEnvelopeInto (swappedEnvelope stream data) [] [] = (true, stream, data) ∧
      data <:+: envelope stream data := by
  intro stream data
  have h := splitEnvelope_inverts.1 stream data (by decide) (by decide) (by decide +kernel) [] []
  exact ⟨h.1, h.2 (by decide +kernel), (splitEnvelope_inverts.2 _ _ _ _ _ h.1).1⟩

end LobCapture
