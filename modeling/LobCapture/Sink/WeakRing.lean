/-
# The ring under release and acquire

`SpscByteRing` again, with the memory orders of the source.  A load may return an older store than
the newest one, and nobody may use a slot without knowing what the other thread has done with it.
The indices hand this knowledge over: with `tail` the consumer gets to know which slots have been
filled, and with `head` the producer which ones have been read.

That an index is out of date does no harm, since what a thread knows of the other one only grows:
the `n`-th store of `head` frees the first `freed n` records, and so does every later one.
-/
import LobCapture.Sink.CsvSink
import LobCapture.Lib.ReleaseAcquire

namespace LobCapture

open Lib

instance : Fintype Thread := ⟨{.producer, .writer}, fun t => by cases t <;> decide⟩

/-- The atomic variables of a sink and of its ring. -/
inductive SinkVar
  | head
  | tail
  | stop
  | flushReq
  | werr
deriving DecidableEq, Repr

abbrev SinkVar.Value : SinkVar → Type
  | .head | .tail => ℕ
  | .stop | .flushReq | .werr => Bool

/-- What the threads of a sink share besides. -/
inductive SinkCell
  | slot (i : ℕ)
  | file
  /-- `f_` is not null. -/
  | isOpen
deriving DecidableEq, Repr

abbrev SinkCell.Value : SinkCell → Type
  | .slot _ => Bytes
  | .file => File
  | .isOpen => Bool

abbrev SinkMemory := Memory Thread SinkVar.Value SinkCell.Value

namespace SinkMemory

def new : SinkMemory where
  atomic
    | .head | .tail => .new 0
    | .stop | .flushReq | .werr => .new false
  cell
    | .slot _ => { value := [] }
    | .file => { value := {} }
    | .isOpen => { value := true }

/-- The index after `i`. -/
def next (mask i : ℕ) : ℕ := (i + 1) &&& mask

/-- A step of `try_write`.  The `load`-th store is asked for if there is a load. -/
def tryWrite (m : SinkMemory) (mask load : ℕ) (p : Bytes) :
    TryWrite → SinkMemory × (TryWrite ⊕ Bool)
  | .loadTail =>
    let (m, t) := m.loadRelaxed .producer .tail load
    (m, .inl (.loadHead t))
  | .loadHead t =>
    let (m, h) := m.loadAcquire .producer .head load
    if next mask t = h then (m, .inr false) else (m, .inl (.assign t))
  | .assign t => ((m.check (t ≤ mask)).modify .producer (.slot t) fun _ => p, .inl (.storeTail t))
  | .storeTail t => (m.storeRelease .producer .tail (next mask t), .inr true)

/-- A step of `drain`. -/
def drain (m : SinkMemory) (mask load : ℕ) : Drain → SinkMemory × DrainStep
  | .loadHead =>
    let (m, h) := m.loadRelaxed .writer .head load
    (m, .next (.loadTail h))
  | .loadTail h =>
    let (m, t) := m.loadAcquire .writer .tail load
    (m, .next (.loop h t 0))
  | .loop h t count =>
    if h ≠ t then
      let (m, p) := (m.check (h ≤ mask)).read .writer (.slot h)
      (m, .record p (.loop (next mask h) t (count + 1)))
    else if count ≠ 0 then (m.storeRelease .writer .head h, .done count)
    else (m, .done count)

/-- A step of `empty`. -/
def empty (m : SinkMemory) (load : ℕ) : EmptyCheck → SinkMemory × (EmptyCheck ⊕ Bool)
  | .loadHead =>
    let (m, h) := m.loadAcquire .writer .head load
    (m, .inl (.loadTail h))
  | .loadTail h =>
    let (m, t) := m.loadAcquire .writer .tail load
    (m, .inr (h = t))

/-- The consumer has to acquire `tail`, or the copy into the slot would not be known to it. -/
example :
    let m : SinkMemory :=
      (new.modify .producer (.slot 0) fun _ => lit "a").storeRelease .producer .tail 1
    ((m.loadAcquire .writer .tail 1).1.read .writer (.slot 0)).1.undefined = false ∧
      ((m.loadRelaxed .writer .tail 1).1.read .writer (.slot 0)).1.undefined = true := by decide

end SinkMemory

/-! ## The invariant -/

/-- The records `all` were published, the first `drained` of them were read, and the `n`-th store
of `head` frees the first `freed n` of them.  A slot that was used later than a store tells was
used for a later record. -/
structure SinkMemory.Holds (m : SinkMemory) (k : ℕ) (all : List Bytes) (freed : ℕ → ℕ)
    (drained : ℕ) : Prop where
  coherent : m.Coherent
  last_tail : (m.atomic .tail).last = all.length
  tail_eq : ∀ j ≤ all.length, ((m.atomic .tail).store j).1 = j % 2 ^ k
  head_eq : ∀ n ≤ (m.atomic .head).last, ((m.atomic .head).store n).1 = freed n % 2 ^ k
  mono : Monotone freed
  freed_le : ∀ n, freed n ≤ drained
  own_tail : (m.view .producer).seen .tail = (m.atomic .tail).last
  own_head : (m.view .writer).seen .head = (m.atomic .head).last
  drained_le : drained ≤ (m.view .writer).seen .tail
  room : all.length < freed ((m.view .producer).seen .head) + 2 ^ k
  slot : ∀ j, drained ≤ j → j < all.length → all[j]? = some (m.cell (.slot (j % 2 ^ k))).value
  filled : ∀ e ≤ all.length, ∀ i,
    (m.cell (.slot i)).written .producer ≤ ((m.atomic .tail).store e).2.known .producer ∨
      ∃ j, e ≤ j ∧ j ≤ all.length ∧ j % 2 ^ k = i
  emptied : ∀ n ≤ (m.atomic .head).last, ∀ i,
    (m.cell (.slot i)).read .writer ≤ ((m.atomic .head).store n).2.known .writer ∨
      ∃ j, freed n ≤ j ∧ j < drained ∧ j % 2 ^ k = i
  sides : ∀ i, (m.cell (.slot i)).written .writer = 0 ∧ (m.cell (.slot i)).read .producer = 0

/-- The producer is at a place of `try_write` for the record `p`. -/
def TryWrite.Weakly (m : SinkMemory) (k len : ℕ) (freed : ℕ → ℕ) (p : Bytes) : TryWrite → Prop
  | .loadTail => True
  | .loadHead t => t = len % 2 ^ k
  | .assign t => t = len % 2 ^ k ∧ len + 1 < freed ((m.view .producer).seen .head) + 2 ^ k
  | .storeTail t => t = len % 2 ^ k ∧ len + 1 < freed ((m.view .producer).seen .head) + 2 ^ k ∧
      (m.cell (.slot t)).value = p

/-- The consumer is at a place of `drain`. -/
def Drain.Weakly (m : SinkMemory) (k : ℕ) (freed : ℕ → ℕ) (drained : ℕ) : Drain → Prop
  | .loadHead => drained = freed (m.atomic .head).last
  | .loadTail h => h = drained % 2 ^ k ∧ drained = freed (m.atomic .head).last
  | .loop h t count => h = drained % 2 ^ k ∧ drained = freed (m.atomic .head).last + count ∧
      ∃ e, t = e % 2 ^ k ∧ drained ≤ e ∧ e ≤ (m.view .writer).seen .tail

/-- The consumer is at a place of `empty`. -/
def EmptyCheck.Weakly (k drained : ℕ) : EmptyCheck → Prop
  | .loadHead => True
  | .loadTail h => h = drained % 2 ^ k

/-- What the operations of the ring leave alone. -/
structure SinkMemory.RingStep (m m' : SinkMemory) : Prop where
  atomic : ∀ a, a ≠ .head → a ≠ .tail → m'.atomic a = m.atomic a
  cell : ∀ c, (∀ i, c ≠ .slot i) → m'.cell c = m.cell c
  view_le : ∀ t, m.view t ≤ m'.view t
  undefined : m'.undefined = false

namespace SinkMemory

variable {m m' : SinkMemory} {k len drained load : ℕ} {all : List Bytes} {freed : ℕ → ℕ}
  {p : Bytes}

lemma next_eq (k i : ℕ) : next (2 ^ k - 1) i = (i + 1) % 2 ^ k := by
  rw [next, Nat.and_two_pow_sub_one_eq_mod]

lemma holds_new (k : ℕ) : new.Holds k [] (fun _ => 0) 0 where
  coherent := .new (by rintro (_ | _) <;> rfl) (by rintro (_ | _) <;> rfl) (fun _ => rfl)
    (by rintro (_ | _) <;> rfl) (by rintro (_ | _) <;> rfl)
  last_tail := rfl
  tail_eq j hj := by
    obtain rfl := Nat.le_zero.mp hj
    exact (Nat.zero_mod _).symm
  head_eq n hn := (Nat.zero_mod _).symm
  mono := monotone_const
  freed_le _ := le_rfl
  own_tail := rfl
  own_head := rfl
  drained_le := le_rfl
  room := by simp
  slot j _ hj := absurd hj (Nat.not_lt_zero j)
  filled e he i := .inl le_rfl
  emptied n hn i := .inl le_rfl
  sides i := ⟨rfl, rfl⟩

namespace Holds

/-- The writer drains nothing that is not published. -/
lemma seen_le (h : m.Holds k all freed drained) :
    (m.view .writer).seen .tail ≤ all.length := h.last_tail ▸ (h.coherent.view .writer .tail).1

lemma length_lt (h : m.Holds k all freed drained) : all.length < drained + 2 ^ k :=
  h.room.trans_le (Nat.add_le_add_right (h.freed_le _) _)

/-- A step that has nothing to do with the ring. -/
lemma frame (h : m.Holds k all freed drained) (hm' : m'.Coherent)
    (hhead : m'.atomic .head = m.atomic .head) (htail : m'.atomic .tail = m.atomic .tail)
    (hslot : ∀ i, m'.cell (.slot i) = m.cell (.slot i)) (hview : ∀ t, m.view t ≤ m'.view t) :
    m'.Holds k all freed drained where
  coherent := hm'
  last_tail := by rw [htail, h.last_tail]
  tail_eq := by rw [htail]; exact h.tail_eq
  head_eq := by rw [hhead]; exact h.head_eq
  mono := h.mono
  freed_le := h.freed_le
  own_tail := Memory.seen_eq_last hm' h.own_tail (by rw [htail]) (hview _)
  own_head := Memory.seen_eq_last hm' h.own_head (by rw [hhead]) (hview _)
  drained_le := h.drained_le.trans ((hview .writer).1 .tail)
  room := h.room.trans_le (Nat.add_le_add_right (h.mono ((hview .producer).1 .head)) _)
  slot j hj hlt := by rw [hslot]; exact h.slot j hj hlt
  filled e he i := by rw [hslot, htail]; exact h.filled e he i
  emptied n hn i := by rw [hhead] at hn ⊢; rw [hslot]; exact h.emptied n hn i
  sides i := by rw [hslot]; exact h.sides i

/-- The slot of the next record may be read. -/
lemma readOk (h : m.Holds k all freed drained) (hlt : drained < (m.view .writer).seen .tail) :
    (m.cell (.slot (drained % 2 ^ k))).ReadOk (m.view .writer).known := by
  rintro (_ | _)
  · have hseen := h.coherent.view .writer .tail
    rw [h.last_tail] at hseen
    rcases h.filled _ hseen.1 (drained % 2 ^ k) with hle | ⟨j, hj, hjlen, hmod⟩
    · exact hle.trans (hseen.2.2 .producer)
    · -- a later record in this slot would not have had room
      have hlen := h.length_lt
      have := (mod_eq_mod_iff (show drained ≤ j by omega) (by omega)).mp hmod.symm
      omega
  · rw [(h.sides _).1]
    exact Nat.zero_le _

/-- The slot after the last record may be filled. -/
lemma writeOk (h : m.Holds k all freed drained)
    (hroom : all.length + 1 < freed ((m.view .producer).seen .head) + 2 ^ k) :
    (m.cell (.slot (all.length % 2 ^ k))).WriteOk (m.view .producer).known := by
  rintro (_ | _)
  · refine ⟨h.coherent.written_le _ _, ?_⟩
    rw [(h.sides _).2]
    exact Nat.zero_le _
  · refine ⟨by rw [(h.sides _).1]; exact Nat.zero_le _, ?_⟩
    have hseen := h.coherent.view .producer .head
    rcases h.emptied _ hseen.1 (all.length % 2 ^ k) with hle | ⟨j, hj, hjlt, hmod⟩
    · exact hle.trans (hseen.2.2 .writer)
    · -- the record that was in this slot before is freed
      have hdrained := h.drained_le.trans h.seen_le
      have := (mod_eq_mod_iff (show j ≤ all.length by omega) (by omega)).mp hmod
      omega

/-! ## Steps of the producer -/

/-- A slot is filled. -/
lemma assign (h : m.Holds k all freed drained) (hdef : m.undefined = false)
    (hroom : all.length + 1 < freed ((m.view .producer).seen .head) + 2 ^ k) (p : Bytes) :
    let m' : SinkMemory := (m.check (all.length % 2 ^ k ≤ 2 ^ k - 1)).modify .producer
      (.slot (all.length % 2 ^ k)) fun _ => p
    m.RingStep m' ∧ m'.Holds k all freed drained := by
  intro m'
  have hview : ∀ t, m.view t ≤ m'.view t := fun t =>
    Memory.view_le_modify (m := m.check _) t
  have hcell : ∀ c, c ≠ .slot (all.length % 2 ^ k) → m'.cell c = m.cell c := fun c hc =>
    Memory.cell_modify_of_ne (m := m.check _) hc
  have hm' : m'.Coherent := h.coherent.check.modify
  have hbound : all.length % 2 ^ k ≤ 2 ^ k - 1 :=
    Nat.le_sub_one_of_lt (Nat.mod_lt _ (Nat.two_pow_pos k))
  refine ⟨⟨fun _ _ _ => rfl, fun c hc => hcell c (hc _), hview,
    Memory.undefined_modify (Memory.undefined_check hdef hbound) (h.writeOk hroom)⟩, ?_⟩
  exact
    { h with
      coherent := hm'
      own_tail := Memory.seen_eq_last hm' h.own_tail rfl (hview _)
      own_head := Memory.seen_eq_last hm' h.own_head rfl (hview _)
      drained_le := h.drained_le.trans ((hview .writer).1 .tail)
      room := h.room.trans_le (Nat.add_le_add_right (h.mono ((hview .producer).1 .head)) _)
      slot := fun j hj hlt => by
        have hne : j % 2 ^ k ≠ all.length % 2 ^ k := fun hmod => by
          have hlen := h.length_lt
          exact hlt.ne ((mod_eq_mod_iff hlt.le (by omega)).mp hmod)
        rw [hcell _ (by simpa using hne)]
        exact h.slot j hj hlt
      filled := fun e he i => by
        by_cases hi : i = all.length % 2 ^ k
        · exact .inr ⟨all.length, he, le_rfl, hi.symm⟩
        · rw [hcell _ (by simpa using hi)]
          exact h.filled e he i
      emptied := fun n hn i => by
        rw [Memory.read_modify]
        exact h.emptied n hn i
      sides := fun i => by
        rw [Memory.read_modify, Memory.written_modify_of_ne (by decide)]
        exact h.sides i }

/-- The record in the slot is published. -/
lemma publish (h : m.Holds k all freed drained) (hdef : m.undefined = false)
    (hroom : all.length + 1 < freed ((m.view .producer).seen .head) + 2 ^ k)
    (hp : (m.cell (.slot (all.length % 2 ^ k))).value = p) :
    let m' : SinkMemory := m.storeRelease .producer .tail ((all.length % 2 ^ k + 1) % 2 ^ k)
    m.RingStep m' ∧ m'.Holds k (all ++ [p]) freed drained := by
  intro m'
  have hview : ∀ t, m.view t ≤ m'.view t := fun t => Memory.view_le_storeRelease t
  have hatomic : ∀ a, a ≠ .tail → m'.atomic a = m.atomic a := fun a ha =>
    Memory.atomic_storeRelease_of_ne ha
  have hm' : m'.Coherent := h.coherent.storeRelease
  have hlast : (m'.atomic .tail).last = all.length + 1 := by
    rw [Memory.last_storeRelease, h.last_tail]
  have hnew : (m'.atomic .tail).store (all.length + 1) =
      ((all.length % 2 ^ k + 1) % 2 ^ k, m'.view .producer) := by
    have hstore := Memory.store_storeRelease_last (m := m) (t := .producer) (a := .tail)
      (x := (all.length % 2 ^ k + 1) % 2 ^ k)
    rwa [h.last_tail] at hstore
  have hold : ∀ e ≤ all.length, (m'.atomic .tail).store e = (m.atomic .tail).store e :=
    fun e he => Memory.store_storeRelease (h.last_tail.symm ▸ he)
  have hlen : (all ++ [p]).length = all.length + 1 := by simp
  refine ⟨⟨fun a _ ha => hatomic a ha, fun _ _ => rfl, hview,
    Memory.undefined_storeRelease hdef h.own_tail⟩, ?_⟩
  exact
    { h with
      coherent := hm'
      last_tail := by rw [hlast, hlen]
      tail_eq := fun j hj => by
        rw [hlen] at hj
        rcases Nat.le_succ_iff.mp hj with hj | rfl
        · rw [hold j hj]
          exact h.tail_eq j hj
        · rw [hnew]
          exact Nat.mod_add_mod ..
      head_eq := by rw [hatomic _ (by decide)]; exact h.head_eq
      own_tail := by rw [hlast, ← h.last_tail]; exact Memory.seen_storeRelease h.coherent
      own_head := Memory.seen_eq_last hm' h.own_head (by rw [hatomic _ (by decide)]) (hview _)
      drained_le := h.drained_le.trans ((hview .writer).1 .tail)
      room := by
        rw [hlen]
        exact hroom.trans_le (Nat.add_le_add_right (h.mono ((hview .producer).1 .head)) _)
      slot := fun j hj hlt => by
        rw [hlen] at hlt
        rcases Nat.lt_succ_iff_lt_or_eq.mp hlt with hlt | rfl
        · rw [List.getElem?_append_left hlt]
          exact h.slot j hj hlt
        · -- the new record
          rw [List.getElem?_concat_length]
          exact congrArg some hp.symm
      filled := fun e he i => by
        rw [hlen] at he ⊢
        rcases Nat.le_succ_iff.mp he with he | rfl
        · rw [hold e he]
          exact (h.filled e he i).imp_right fun ⟨j, hj, hle, hmod⟩ =>
            ⟨j, hj, hle.trans (Nat.le_succ _), hmod⟩
        · -- the producer knows of all that it has filled
          rw [hnew]
          exact .inl (hm'.written_le .producer _)
      emptied := by rw [hatomic _ (by decide)]; exact h.emptied }

/-- **A step of `try_write`**, whatever store it loads. -/
lemma tryWrite (h : m.Holds k all freed drained) (hdef : m.undefined = false) {w : TryWrite}
    (hw : w.Weakly m k all.length freed p) (load : ℕ) :
    let r := m.tryWrite (2 ^ k - 1) load p w
    m.RingStep r.1 ∧ r.1.atomic .head = m.atomic .head ∧
      match r.2 with
      | .inl w' => r.1.Holds k all freed drained ∧ w'.Weakly r.1 k all.length freed p
      | .inr false => r.1.Holds k all freed drained
      | .inr true => r.1.Holds k (all ++ [p]) freed drained := by
  intro r
  cases w with
  | loadTail =>
    have hm' : r.1.Coherent := h.coherent.loadRelaxed h.own_tail
    have hview : ∀ t, m.view t ≤ r.1.view t := fun t => Memory.view_le_loadRelaxed t
    refine ⟨⟨fun _ _ _ => rfl, fun _ _ => rfl, hview, hdef⟩, rfl,
      h.frame hm' rfl rfl (fun _ => rfl) hview, ?_⟩
    -- it is its own variable, so the newest store is loaded
    calc (m.loadRelaxed .producer .tail load).2
        = ((m.atomic .tail).store (m.atomic .tail).last).1 :=
          Memory.loadRelaxed_of_newest h.own_tail
      _ = all.length % 2 ^ k := by
          rw [h.last_tail]
          exact h.tail_eq _ le_rfl
  | loadHead t =>
    obtain rfl : t = all.length % 2 ^ k := hw
    have hm' : (m.loadAcquire .producer .head load).1.Coherent := h.coherent.loadAcquire
    have hview : ∀ t, m.view t ≤ (m.loadAcquire .producer .head load).1.view t :=
      fun t => Memory.view_le_loadAcquire t
    have hholds := h.frame hm' rfl rfl (fun _ => rfl) hview
    have hstep : m.RingStep (m.loadAcquire .producer .head load).1 :=
      ⟨fun _ _ _ => rfl, fun _ _ => rfl, hview, hdef⟩
    obtain ⟨n, hn, hnewer, hload, -, hseen⟩ :=
      h.coherent.exists_loaded .producer .head load
    have hvalue : (m.loadAcquire .producer .head load).2 = freed n % 2 ^ k :=
      hload.trans (h.head_eq n hn)
    simp only [r, SinkMemory.tryWrite, hvalue, next_eq, Nat.mod_add_mod]
    split_ifs with hfull
    · exact ⟨hstep, rfl, hholds⟩
    · refine ⟨hstep, rfl, hholds, rfl, ?_⟩
      have hle : all.length < freed n + 2 ^ k :=
        h.room.trans_le (Nat.add_le_add_right (h.mono hnewer) _)
      have hne : all.length + 1 ≠ freed n + 2 ^ k := fun heq =>
        hfull (by rw [heq, Nat.add_mod_right])
      have hroom : all.length + 1 < freed n + 2 ^ k := by omega
      exact hroom.trans_le (Nat.add_le_add_right (h.mono hseen) _)
  | assign t =>
    obtain ⟨rfl, hroom⟩ := hw
    obtain ⟨hstep, hholds⟩ := h.assign hdef hroom p
    refine ⟨hstep, rfl, hholds, rfl, ?_, by simp [r, SinkMemory.tryWrite]⟩
    exact hroom.trans_le (Nat.add_le_add_right (h.mono ((hstep.view_le .producer).1 .head)) _)
  | storeTail t =>
    obtain ⟨rfl, hroom, hp⟩ := hw
    obtain ⟨hstep, hholds⟩ := h.publish hdef hroom hp
    simp only [r, SinkMemory.tryWrite, next_eq]
    exact ⟨hstep, Memory.atomic_storeRelease_of_ne (by decide), hholds⟩

/-! ## Steps of the consumer -/

/-- A record is read from its slot. -/
lemma readSlot (h : m.Holds k all freed drained) (hdef : m.undefined = false)
    (hlt : drained < (m.view .writer).seen .tail) :
    let r := (m.check (drained % 2 ^ k ≤ 2 ^ k - 1)).read .writer (.slot (drained % 2 ^ k))
    m.RingStep r.1 ∧ all[drained]? = some r.2 ∧ SinkMemory.Holds r.1 k all freed (drained + 1) := by
  intro r
  have hview : ∀ t, m.view t ≤ r.1.view t := fun t => Memory.view_le_read (m := m.check _) t
  have hcell : ∀ c, c ≠ .slot (drained % 2 ^ k) → r.1.cell c = m.cell c := fun c hc =>
    Memory.cell_read_of_ne (m := m.check _) hc
  have hm' : r.1.Coherent := h.coherent.check.read
  have hbound : drained % 2 ^ k ≤ 2 ^ k - 1 :=
    Nat.le_sub_one_of_lt (Nat.mod_lt _ (Nat.two_pow_pos k))
  refine ⟨⟨fun _ _ _ => rfl, fun c hc => hcell c (hc _), hview,
    Memory.undefined_read (Memory.undefined_check hdef hbound) (h.readOk hlt)⟩,
    h.slot drained le_rfl (hlt.trans_le h.seen_le), ?_⟩
  exact
    { h with
      coherent := hm'
      freed_le := fun n => (h.freed_le n).trans (Nat.le_succ _)
      own_tail := Memory.seen_eq_last hm' h.own_tail rfl (hview _)
      own_head := Memory.seen_eq_last hm' h.own_head rfl (hview _)
      drained_le := Nat.le_trans hlt ((hview .writer).1 .tail)
      room := h.room.trans_le (Nat.add_le_add_right (h.mono ((hview .producer).1 .head)) _)
      slot := fun j hj hlt => by
        rw [Memory.value_read]
        exact h.slot j (Nat.le_of_succ_le hj) hlt
      filled := fun e he i => by
        rw [Memory.written_read]
        exact h.filled e he i
      emptied := fun n hn i => by
        by_cases hi : i = drained % 2 ^ k
        · exact .inr ⟨drained, h.freed_le n, Nat.lt_succ_self _, hi.symm⟩
        · rw [hcell _ (by simpa using hi)]
          exact (h.emptied n hn i).imp_right fun ⟨j, hj, hlt, hmod⟩ =>
            ⟨j, hj, hlt.trans (Nat.lt_succ_self _), hmod⟩
      sides := fun i => by
        rw [Memory.written_read, Memory.read_read_of_ne (by decide)]
        exact h.sides i }

/-- The slots of the records that have been read are freed. -/
lemma free (h : m.Holds k all freed drained) (hdef : m.undefined = false) :
    let m' : SinkMemory := m.storeRelease .writer .head (drained % 2 ^ k)
    m.RingStep m' ∧ ∃ freed', m'.Holds k all freed' drained ∧
      (∀ n ≤ (m.atomic .head).last, freed' n = freed n) ∧
      freed' (m'.atomic .head).last = drained := by
  intro m'
  have hview : ∀ t, m.view t ≤ m'.view t := fun t => Memory.view_le_storeRelease t
  have hatomic : ∀ a, a ≠ .head → m'.atomic a = m.atomic a := fun a ha =>
    Memory.atomic_storeRelease_of_ne ha
  have hm' : m'.Coherent := h.coherent.storeRelease
  have hlast : (m'.atomic .head).last = (m.atomic .head).last + 1 := Memory.last_storeRelease
  have hnew : (m'.atomic .head).store ((m.atomic .head).last + 1) =
      (drained % 2 ^ k, m'.view .writer) := Memory.store_storeRelease_last
  have hold : ∀ n ≤ (m.atomic .head).last,
      (m'.atomic .head).store n = (m.atomic .head).store n := fun n hn =>
    Memory.store_storeRelease hn
  refine ⟨⟨fun a ha _ => hatomic a ha, fun _ _ => rfl, hview,
    Memory.undefined_storeRelease hdef h.own_head⟩,
    fun n => if n ≤ (m.atomic .head).last then freed n else drained, ?_,
    fun n hn => if_pos hn, by rw [hlast]; exact if_neg (Nat.not_succ_le_self _)⟩
  exact
    { h with
      coherent := hm'
      last_tail := by rw [hatomic _ (by decide)]; exact h.last_tail
      tail_eq := by rw [hatomic _ (by decide)]; exact h.tail_eq
      head_eq := fun n hn => by
        rw [hlast] at hn
        rcases Nat.le_succ_iff.mp hn with hn | rfl
        · rw [hold n hn, if_pos hn]
          exact h.head_eq n hn
        · rw [hnew, if_neg (Nat.not_succ_le_self _)]
      mono := fun i j hij => by
        dsimp only
        split_ifs with hi hj hj
        · exact h.mono hij
        · exact h.freed_le i
        · exact absurd (hij.trans hj) hi
        · exact le_rfl
      freed_le := fun n => by
        split_ifs
        · exact h.freed_le n
        · exact le_rfl
      own_tail := Memory.seen_eq_last hm' h.own_tail (by rw [hatomic _ (by decide)]) (hview _)
      own_head := by rw [hlast]; exact Memory.seen_storeRelease h.coherent
      drained_le := h.drained_le.trans ((hview .writer).1 .tail)
      room := by
        have hseen : (m'.view .producer).seen .head = (m.view .producer).seen .head := rfl
        rw [hseen, if_pos (h.coherent.view .producer .head).1]
        exact h.room
      filled := by rw [hatomic _ (by decide)]; exact h.filled
      emptied := fun n hn i => by
        rw [hlast] at hn
        rcases Nat.le_succ_iff.mp hn with hn | rfl
        · rw [hold n hn, if_pos hn]
          exact h.emptied n hn i
        · -- the consumer knows of all that it has read
          rw [hnew]
          exact .inl (hm'.read_le .writer _) }

/-- **A step of `drain`**, whatever store it loads: the record that is handed out is the next
one. -/
lemma drain (h : m.Holds k all freed drained) (hdef : m.undefined = false) {d : Drain}
    (hd : d.Weakly m k freed drained) (load : ℕ) :
    let r := m.drain (2 ^ k - 1) load d
    m.RingStep r.1 ∧ (∀ i, (r.1.cell (.slot i)).value = (m.cell (.slot i)).value) ∧
      ∃ freed', (∀ n ≤ (m.atomic .head).last, freed' n = freed n) ∧
        match r.2 with
        | .next d' => r.1.Holds k all freed' drained ∧ d'.Weakly r.1 k freed' drained
        | .record p d' => all[drained]? = some p ∧ r.1.Holds k all freed' (drained + 1) ∧
            d'.Weakly r.1 k freed' (drained + 1)
        | .done _ => r.1.Holds k all freed' drained ∧
            drained = freed' (r.1.atomic .head).last := by
  intro r
  cases d with
  | loadHead =>
    have hm' : r.1.Coherent := h.coherent.loadRelaxed h.own_head
    have hview : ∀ t, m.view t ≤ r.1.view t := fun t => Memory.view_le_loadRelaxed t
    refine ⟨⟨fun _ _ _ => rfl, fun _ _ => rfl, hview, hdef⟩, fun _ => rfl, freed, fun _ _ => rfl,
      h.frame hm' rfl rfl (fun _ => rfl) hview, ?_, hd⟩
    -- it is its own variable, so the newest store is loaded
    calc (m.loadRelaxed .writer .head load).2
        = ((m.atomic .head).store (m.atomic .head).last).1 :=
          Memory.loadRelaxed_of_newest h.own_head
      _ = freed (m.atomic .head).last % 2 ^ k := h.head_eq _ le_rfl
      _ = drained % 2 ^ k := by rw [← show drained = freed (m.atomic .head).last from hd]
  | loadTail i =>
    obtain ⟨rfl, hfreed⟩ := hd
    have hm' : (m.loadAcquire .writer .tail load).1.Coherent := h.coherent.loadAcquire
    have hview : ∀ t, m.view t ≤ (m.loadAcquire .writer .tail load).1.view t :=
      fun t => Memory.view_le_loadAcquire t
    obtain ⟨e, he, hnewer, hload, -, hseen⟩ := h.coherent.exists_loaded .writer .tail load
    rw [h.last_tail] at he
    exact ⟨⟨fun _ _ _ => rfl, fun _ _ => rfl, hview, hdef⟩, fun _ => rfl, freed, fun _ _ => rfl,
      h.frame hm' rfl rfl (fun _ => rfl) hview, rfl, hfreed, e, hload.trans (h.tail_eq e he),
      h.drained_le.trans hnewer, hseen⟩
  | loop i t count =>
    obtain ⟨rfl, hcount, e, rfl, hle, hseen⟩ := hd
    have hlen := h.length_lt
    have he := hseen.trans h.seen_le
    have hindex := mod_eq_mod_iff hle (show e < drained + 2 ^ k by omega)
    simp only [r, SinkMemory.drain, ne_eq, ite_not, hindex, next_eq, Nat.mod_add_mod]
    split_ifs with heq hzero
    · -- nothing was read
      subst heq
      exact ⟨⟨fun _ _ _ => rfl, fun _ _ => rfl, fun _ => View.le_refl _, hdef⟩, fun _ => rfl, freed,
        fun _ _ => rfl, h, show drained = freed (m.atomic .head).last by omega⟩
    · subst heq
      obtain ⟨hstep, freed', hholds, hfreed', hlast⟩ := h.free hdef
      exact ⟨hstep, fun _ => rfl, freed', hfreed', hholds, hlast.symm⟩
    · obtain ⟨hstep, hp, hholds⟩ := h.readSlot hdef (by omega)
      exact ⟨hstep, fun _ => Memory.value_read, freed, fun _ _ => rfl, hp, hholds, rfl,
        show drained + 1 = freed (m.atomic .head).last + (count + 1) by omega, e, rfl, by omega,
        hseen.trans ((hstep.view_le .writer).1 .tail)⟩

/-- **A step of `empty`**: what it calls empty holds nothing that the consumer has known of. -/
lemma empty (h : m.Holds k all freed drained) (hdef : m.undefined = false) {e : EmptyCheck}
    (he : e.Weakly k drained) (hfreed : drained = freed (m.atomic .head).last) (load : ℕ) :
    let r := m.empty load e
    m.RingStep r.1 ∧ r.1.Holds k all freed drained ∧ r.1.atomic = m.atomic ∧ r.1.cell = m.cell ∧
      match r.2 with
      | .inl e' => e'.Weakly k drained
      | .inr b => b = true → drained = (m.view .writer).seen .tail := by
  intro r
  cases e with
  | loadHead =>
    have hview : ∀ t, m.view t ≤ r.1.view t := fun t => Memory.view_le_loadAcquire t
    refine ⟨⟨fun _ _ _ => rfl, fun _ _ => rfl, hview, hdef⟩,
      h.frame h.coherent.loadAcquire rfl rfl (fun _ => rfl) hview, rfl, rfl, ?_⟩
    calc (m.loadAcquire .writer .head load).2
        = ((m.atomic .head).store (m.atomic .head).last).1 :=
          Memory.loadAcquire_of_newest h.own_head
      _ = freed (m.atomic .head).last % 2 ^ k := h.head_eq _ le_rfl
      _ = drained % 2 ^ k := by rw [← hfreed]
  | loadTail i =>
    obtain rfl : i = drained % 2 ^ k := he
    have hview : ∀ t, m.view t ≤ r.1.view t := fun t => Memory.view_le_loadAcquire t
    refine ⟨⟨fun _ _ _ => rfl, fun _ _ => rfl, hview, hdef⟩,
      h.frame h.coherent.loadAcquire rfl rfl (fun _ => rfl) hview, rfl, rfl, fun hb => ?_⟩
    obtain ⟨t, ht, hnewer, hload, -⟩ := h.coherent.exists_loaded .writer .tail load
    rw [h.last_tail] at ht
    have hlen := h.length_lt
    have hdrained := h.drained_le
    have hmod : drained % 2 ^ k = t % 2 ^ k :=
      (of_decide_eq_true hb).trans (hload.trans (h.tail_eq t ht))
    have := (mod_eq_mod_iff (by omega) (by omega)).mp hmod
    omega

end Holds

end SinkMemory

/-! ### What the other side does -/

section Mono

variable {m m' : SinkMemory} {k len drained : ℕ} {freed freed' : ℕ → ℕ} {p : Bytes}

lemma TryWrite.Weakly.mono {w : TryWrite} (h : w.Weakly m k len freed p) (hmono : Monotone freed')
    (hfreed : freed' ((m.view .producer).seen .head) = freed ((m.view .producer).seen .head))
    (hview : m.view .producer ≤ m'.view .producer)
    (hslot : ∀ i, (m'.cell (.slot i)).value = (m.cell (.slot i)).value) :
    w.Weakly m' k len freed' p := by
  have hle := hmono (hview.1 .head)
  cases w with
  | loadTail => trivial
  | loadHead t => exact h
  | assign t => exact ⟨h.1, by have := h.2; omega⟩
  | storeTail t =>
    obtain ⟨ht, hroom, hp⟩ := h
    exact ⟨ht, by omega, by rw [hslot]; exact hp⟩

lemma Drain.Weakly.mono {d : Drain} (h : d.Weakly m k freed drained)
    (hhead : m'.atomic .head = m.atomic .head) (hview : m.view .writer ≤ m'.view .writer) :
    d.Weakly m' k freed drained := by
  cases d with
  | loadHead => exact h.trans (by rw [hhead])
  | loadTail i => exact ⟨h.1, h.2.trans (by rw [hhead])⟩
  | loop i t count =>
    obtain ⟨hi, hcount, e, ht, hle, hseen⟩ := h
    exact ⟨hi, by rw [hhead]; exact hcount, e, ht, hle, hseen.trans (hview.1 .tail)⟩

end Mono

end LobCapture
