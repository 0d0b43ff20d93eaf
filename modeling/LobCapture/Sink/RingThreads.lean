/-
# The ring under concurrency

One thread makes calls of `try_write` and the other one calls of `drain`, and their loads, stores
and copies are interleaved in any way.  A copy of an index that a thread has loaded may be
outdated, but only in the direction that does no harm: the consumer reads up to an earlier end,
and the producer counts records that are free already.
-/
import LobCapture.Sink.SpscByteRing
import LobCapture.Lib.Run

namespace LobCapture

open Lib

/-! ## Two threads -/

inductive RingThread
  | producer
  | consumer
deriving DecidableEq, Repr

/-- What a step of one of the threads brings about. -/
inductive RingEvent
  /-- `try_write` returns `true`. -/
  | accepted (p : Bytes)
  /-- `try_write` returns `false`. -/
  | refused (p : Bytes)
  /-- `drain` passes a record to its callback. -/
  | handed (p : Bytes)
  /-- `drain` returns. -/
  | drained (count : ℕ)
deriving DecidableEq, Repr

/-- The ring and its threads.  The first of the `writes` is the record of the call under way, or
of the next one. -/
structure RingThreads where
  ring : SpscByteRing
  writes : List Bytes
  tryWrite : TryWrite := .loadTail
  drains : ℕ
  drain : Drain := .loadHead
deriving DecidableEq, Repr

namespace RingThreads

/-- An empty ring, before the first calls. -/
def new (capacityPow2 : ℕ) (writes : List Bytes) (drains : ℕ) : RingThreads where
  ring := .new capacityPow2
  writes := writes
  drains := drains

def step (s : RingThreads) : RingThread → RingThreads × Option RingEvent
  | .producer =>
    match s.writes with
    | [] => (s, none)
    | p :: writes =>
      match s.ring.tryWrite p s.tryWrite with
      | (ring, .inl w) => ({ s with ring := ring, tryWrite := w }, none)
      | (ring, .inr ok) =>
        ({ s with ring := ring, writes := writes, tryWrite := .loadTail },
          some (if ok then .accepted p else .refused p))
  | .consumer =>
    match s.drains with
    | 0 => (s, none)
    | drains + 1 =>
      match s.ring.drain s.drain with
      | (ring, .next d) => ({ s with ring := ring, drain := d }, none)
      | (ring, .record p d) => ({ s with ring := ring, drain := d }, some (.handed p))
      | (ring, .done count) =>
        ({ s with ring := ring, drains := drains, drain := .loadHead }, some (.drained count))

end RingThreads

/-! ## Histories -/

abbrev RingHistory := List (RingThread × Option RingEvent)

namespace RingHistory

/-- The records that were accepted. -/
def accepted (h : RingHistory) : List Bytes :=
  h.filterMap fun x => match x.2 with | some (.accepted p) => some p | _ => none

/-- The records that were passed to the callback. -/
def handed (h : RingHistory) : List Bytes :=
  h.filterMap fun x => match x.2 with | some (.handed p) => some p | _ => none

/-- The number of the records whose slots were released. -/
def released (h : RingHistory) : ℕ :=
  (h.map fun x => match x.2 with | some (.drained count) => count | _ => 0).sum

@[simp] lemma accepted_concat (h : RingHistory) (x : RingThread) (ev : Option RingEvent) :
    accepted (h ++ [(x, ev)]) =
      accepted h ++ match ev with | some (.accepted p) => [p] | _ => [] := by
  rw [accepted, List.filterMap_append]
  congr 1
  rcases ev with - | (p | p | p | count) <;> rfl

@[simp] lemma handed_concat (h : RingHistory) (x : RingThread) (ev : Option RingEvent) :
    handed (h ++ [(x, ev)]) =
      handed h ++ match ev with | some (.handed p) => [p] | _ => [] := by
  rw [handed, List.filterMap_append]
  congr 1
  rcases ev with - | (p | p | p | count) <;> rfl

@[simp] lemma released_concat (h : RingHistory) (x : RingThread) (ev : Option RingEvent) :
    released (h ++ [(x, ev)]) =
      released h + match ev with | some (.drained count) => count | _ => 0 := by
  rw [released, List.map_append, List.sum_append, List.map_singleton, List.sum_singleton]
  rfl

end RingHistory

/-! ## The invariant -/

/-- The records `all` were accepted, the first `freed` of their slots were released, and the first
`drained` of them were handed out. -/
structure RingThreads.Inv (k : ℕ) (all : List Bytes) (freed drained : ℕ) (s : RingThreads) :
    Prop where
  holds : s.ring.Holds k all freed
  producer : s.tryWrite.At s.ring k all.length freed (s.writes.headD [])
  consumer : s.drain.At k all.length freed drained

namespace RingThreads.Inv

variable {k freed drained : ℕ} {all : List Bytes} {s : RingThreads}

/-- **A step of the producer.** -/
lemma producer_step (h : s.Inv k all freed drained) :
    match s.step .producer with
    | (s', none) => s'.Inv k all freed drained
    | (s', some (.accepted p)) => s'.Inv k (all ++ [p]) freed drained
    | (s', some (.refused _)) => s'.Inv k all freed drained ∧ all.length + 1 = freed + 2 ^ k
    | (_, some _) => False := by
  obtain ⟨hholds, hplace, hconsumer⟩ := h
  cases hwrites : s.writes with
  | nil =>
    simp only [step, hwrites]
    exact ⟨hholds, hplace, hconsumer⟩
  | cons p writes =>
    rw [hwrites, List.headD_cons] at hplace
    have hring := hholds.tryWrite hplace
    simp only [step, hwrites]
    rcases hstep : s.ring.tryWrite p s.tryWrite with ⟨ring, w | ok⟩
    · rw [hstep] at hring
      exact ⟨hring.1, hring.2.1, hconsumer⟩
    · cases ok with
      | false =>
        rw [hstep] at hring
        obtain ⟨rfl, hfull⟩ := hring
        exact ⟨⟨hholds, trivial, hconsumer⟩, hfull⟩
      | true =>
        rw [hstep] at hring
        exact ⟨hring.1, trivial, hconsumer.mono (by simp)⟩

/-- **A step of the consumer.** -/
lemma consumer_step (h : s.Inv k all freed drained) :
    match s.step .consumer with
    | (s', none) => s'.Inv k all freed drained
    | (s', some (.handed p)) => s'.Inv k all freed (drained + 1) ∧ all[drained]? = some p
    | (s', some (.drained count)) =>
      s'.Inv k all (freed + count) drained ∧ drained = freed + count
    | (_, some _) => False := by
  obtain ⟨hholds, hproducer, hplace⟩ := h
  cases hdrains : s.drains with
  | zero =>
    simp only [step, hdrains]
    exact ⟨hholds, hproducer, hplace⟩
  | succ drains =>
    have hring := hholds.drain hplace
    simp only [step, hdrains]
    rcases hstep : s.ring.drain s.drain with ⟨ring, d | ⟨p, d⟩ | count⟩
    · rw [hstep] at hring
      obtain ⟨rfl, hd⟩ := hring
      exact ⟨hholds, hproducer, hd⟩
    · rw [hstep] at hring
      obtain ⟨rfl, hp, hd⟩ := hring
      exact ⟨⟨hholds, hproducer, hd⟩, hp⟩
    · rw [hstep] at hring
      obtain ⟨hring, hslots, htail, rfl⟩ := hring
      exact ⟨⟨hring, hproducer.mono (Nat.le_add_right _ _) hslots htail, rfl⟩, rfl⟩

end RingThreads.Inv

/-- The invariant, for the events so far. -/
structure RingThreads.Fits (k : ℕ) (h : RingHistory) (s : RingThreads) : Prop where
  inv : s.Inv k h.accepted h.released h.handed.length
  isPrefix : h.handed <+: h.accepted

namespace RingThreads

variable {k : ℕ} {h : RingHistory} {s : RingThreads}

lemma fits_new (k : ℕ) (writes : List Bytes) (drains : ℕ) :
    (new (2 ^ k) writes drains).Fits k [] where
  inv := ⟨SpscByteRing.holds_new k, trivial, rfl⟩
  isPrefix := List.prefix_rfl

/-- A step of one of the threads. -/
lemma Fits.step (hfits : s.Fits k h) (x : RingThread) :
    (s.step x).1.Fits k (h ++ [(x, (s.step x).2)]) := by
  obtain ⟨hinv, hprefix⟩ := hfits
  cases x with
  | producer =>
    have hstep := hinv.producer_step
    rcases hs : s.step .producer with ⟨s', - | (p | p | p | count)⟩
    all_goals rw [hs] at hstep
    · exact ⟨by simpa using hstep, by simpa using hprefix⟩
    · refine ⟨by simpa using hstep, ?_⟩
      have hmore : h.handed <+: h.accepted ++ [p] := hprefix.trans (List.prefix_append _ _)
      simpa using hmore
    · exact ⟨by simpa using hstep.1, by simpa using hprefix⟩
    · exact hstep.elim
    · exact hstep.elim
  | consumer =>
    have hstep := hinv.consumer_step
    rcases hs : s.step .consumer with ⟨s', - | (p | p | p | count)⟩
    all_goals rw [hs] at hstep
    · exact ⟨by simpa using hstep, by simpa using hprefix⟩
    · exact hstep.elim
    · exact hstep.elim
    · obtain ⟨hinv', hp⟩ := hstep
      refine ⟨by simpa using hinv', ?_⟩
      -- the next record
      have hnext : h.handed ++ [p] <+: h.accepted := by
        obtain ⟨rest, hrest⟩ := hprefix
        rw [← hrest, List.getElem?_append_right le_rfl, Nat.sub_self] at hp
        obtain ⟨rest, rfl⟩ : ∃ l, rest = p :: l := by
          cases rest with
          | nil => simp at hp
          | cons q l => exact ⟨l, by rw [← Option.some.inj hp]⟩
        exact ⟨rest, by rw [← hrest, List.append_assoc]; rfl⟩
      simpa using hnext
    · exact ⟨by simpa using hstep.1, by simpa using hprefix⟩

lemma fits_run (k : ℕ) (writes : List Bytes) (drains : ℕ) (is : List RingThread) :
    (run step (new (2 ^ k) writes drains) is).1.Fits k
      (run step (new (2 ^ k) writes drains) is).2 :=
  run_induction (fits_new k writes drains) (fun _ _ x hfits => hfits.step x) is

/-- The records that are accepted but not handed out are in their slots. -/
lemma Fits.unread (hfits : s.Fits k h) :
    ∃ unread, h.accepted = h.handed ++ unread ∧
      ∀ j < unread.length, s.ring.slots[(h.handed.length + j) % 2 ^ k]? = unread[j]? := by
  obtain ⟨unread, hunread⟩ := hfits.isPrefix
  refine ⟨unread, hunread.symm, fun j hj => ?_⟩
  have hfreed : h.released ≤ h.handed.length := hfits.inv.consumer.freed_le
  have hlen := congrArg List.length hunread
  rw [List.length_append] at hlen
  rw [hfits.inv.holds.window.slot _ (by omega) (by omega), ← hunread,
    List.getElem?_append_right (Nat.le_add_right _ _), Nat.add_sub_cancel_left]

/-- The slot that is about to be filled is none of those that are not released, and not the one
that the consumer reads next. -/
lemma Fits.assign (hfits : s.Fits k h) {t : ℕ} (hplace : s.tryWrite = .assign t) :
    (∀ j, h.released ≤ j → j < h.accepted.length → j % 2 ^ k ≠ t) ∧
      ∀ i e count, s.drain = .loop i e count → i ≠ e → i ≠ t := by
  have hproducer := hfits.inv.producer
  rw [hplace] at hproducer
  obtain ⟨rfl, hroom⟩ := hproducer
  have hslot := fun j => @Window.slot_ne_tail _ _ _ _ _ _ _ hfits.inv.holds.window j
  refine ⟨hslot, fun i e count hdrain hne => ?_⟩
  have hconsumer := hfits.inv.consumer
  rw [hdrain] at hconsumer
  obtain ⟨rfl, hcount, n, rfl, hle, hlen⟩ := hconsumer
  -- the consumer has not reached the end that it has loaded
  refine hslot _ (by omega) (lt_of_le_of_ne (hle.trans hlen) fun heq => hne ?_)
  rw [Nat.le_antisymm hle (heq ▸ hlen)]

end RingThreads

/-! ## What a call of `drain` hands out -/

/-- When this call of `drain` returns, the first `n` records have been handed out. -/
def Drain.Covers (k n len drained : ℕ) : Drain → Prop
  | .loop _ t _ => ∃ e, t = e % 2 ^ k ∧ n ≤ e ∧ drained ≤ e ∧ e ≤ len
  | _ => True

lemma Drain.Covers.mono {k n len drained : ℕ} {d : Drain} (h : d.Covers k n len drained)
    {len' : ℕ} (hle : len ≤ len') : d.Covers k n len' drained := by
  cases d with
  | loop i t count =>
    obtain ⟨e, ht, hn, hdrained, he⟩ := h
    exact ⟨e, ht, hn, hdrained, he.trans hle⟩
  | _ => trivial

lemma SpscByteRing.Holds.drain_covers {r : SpscByteRing} {k n freed drained : ℕ}
    {all : List Bytes} (h : r.Holds k all freed) {d : Drain}
    (hd : d.At k all.length freed drained) (hcovers : d.Covers k n all.length drained)
    (hn : n ≤ all.length) :
    match (r.drain d).2 with
    | .next d' => d'.Covers k n all.length drained
    | .record _ d' => d'.Covers k n all.length (drained + 1)
    | .done _ => n ≤ drained := by
  cases d with
  | loadHead => trivial
  | loadTail i =>
    obtain ⟨-, rfl⟩ := hd
    exact ⟨all.length, h.window.tail_eq, hn, h.window.freed_le, le_rfl⟩
  | loop i t count =>
    obtain ⟨rfl, hcount, -⟩ := hd
    obtain ⟨e, rfl, hne, hle, hlen⟩ := hcovers
    have hindex := h.window.index_eq_iff (show freed ≤ drained by omega) hle hlen
    simp only [SpscByteRing.drain, ne_eq, ite_not, hindex]
    split_ifs with he hzero
    · exact hne.trans he.ge
    · exact hne.trans he.ge
    · exact ⟨e, rfl, hne, by omega, hlen⟩

/-- One of the calls of `drain` has returned. -/
def RingHistory.Returned (h : RingHistory) : Prop :=
  ∃ count, some (.drained count) ∈ h.map Prod.snd

lemma RingHistory.returned_concat {h : RingHistory} {x : RingThread} {ev : Option RingEvent} :
    RingHistory.Returned (h ++ [(x, ev)]) ↔ h.Returned ∨ ∃ count, ev = some (.drained count) := by
  simp only [RingHistory.Returned, List.map_append, List.map_singleton, List.mem_append,
    List.mem_singleton, exists_or, eq_comm]

namespace RingThreads

variable {k n : ℕ} {h : RingHistory} {s : RingThreads}

lemma drain_step_producer (s : RingThreads) : (s.step .producer).1.drain = s.drain := by
  simp only [step]
  split
  · rfl
  · split <;> rfl

/-- From a call of `drain` on that has not loaded `tail` when `n` records are accepted. -/
structure Catches (n k : ℕ) (h : RingHistory) (returned : Prop) (s : RingThreads) : Prop where
  fits : s.Fits k h
  le_accepted : n ≤ h.accepted.length
  covers : s.drain.Covers k n h.accepted.length h.handed.length
  le_handed : returned → n ≤ h.handed.length

lemma Catches.step {returned : Prop} (hc : s.Catches n k h returned) (x : RingThread) :
    (s.step x).1.Catches n k (h ++ [(x, (s.step x).2)])
      (returned ∨ ∃ count, (s.step x).2 = some (.drained count)) := by
  obtain ⟨hfits, hn, hcovers, hhanded⟩ := hc
  have hmore : h.handed.length ≤ (RingHistory.handed (h ++ [(x, (s.step x).2)])).length := by
    rw [RingHistory.handed_concat, List.length_append]
    exact Nat.le_add_right _ _
  have hn' : n ≤ (RingHistory.accepted (h ++ [(x, (s.step x).2)])).length := by
    rw [RingHistory.accepted_concat, List.length_append]
    exact hn.trans (Nat.le_add_right _ _)
  refine ⟨hfits.step x, hn', ?_, ?_⟩
  · cases x with
    | producer =>
      -- a record is added, at most
      have hstep := hfits.inv.producer_step
      rw [drain_step_producer]
      rcases hs : s.step .producer with ⟨s', - | (p | p | p | count)⟩
      all_goals rw [hs] at hstep
      · simpa using hcovers
      · simpa using hcovers.mono (Nat.le_succ _)
      · simpa using hcovers
      · exact hstep.elim
      · exact hstep.elim
    | consumer =>
      cases hdrains : s.drains with
      | zero =>
        simp only [RingThreads.step, hdrains]
        simpa using hcovers
      | succ drains =>
        have hring := hfits.inv.holds.drain_covers hfits.inv.consumer hcovers hn
        simp only [RingThreads.step, hdrains]
        rcases hstep : s.ring.drain s.drain with ⟨ring, d | ⟨p, d⟩ | count⟩
        all_goals rw [hstep] at hring
        · simpa using hring
        · simpa using hring
        · trivial
  · rintro (hreturned | ⟨count, hcount⟩)
    · exact (hhanded hreturned).trans hmore
    refine le_trans ?_ hmore
    cases x with
    | producer =>
      have hstep := hfits.inv.producer_step
      rcases hs : s.step .producer with ⟨s', - | (p | p | p | count)⟩
      all_goals
        rw [hs] at hstep hcount
        first | exact hstep.elim | exact absurd hcount (by simp)
    | consumer =>
      cases hdrains : s.drains with
      | zero => simp [RingThreads.step, hdrains] at hcount
      | succ drains =>
        have hring := hfits.inv.holds.drain_covers hfits.inv.consumer hcovers hn
        simp only [RingThreads.step, hdrains] at hcount
        rcases hstep : s.ring.drain s.drain with ⟨ring, d | ⟨p, d⟩ | count⟩
        all_goals rw [hstep] at hring hcount
        · exact absurd hcount (by simp)
        · exact absurd hcount (by simp)
        · exact hring

/-- What was accepted before `tail` was loaded is handed out when a call returns. -/
lemma accepted_prefix_handed (hfits : s.Fits k h) (hplace : ∀ i e count, s.drain ≠ .loop i e count)
    (js : List RingThread) (hreturned : RingHistory.Returned (run step s js).2) :
    h.accepted <+: RingHistory.handed (h ++ (run step s js).2) := by
  have hcovers : s.drain.Covers k h.accepted.length h.accepted.length h.handed.length := by
    cases hdrain : s.drain with
    | loop i e count => exact absurd hdrain (hplace i e count)
    | _ => trivial
  have hrun : (run step s js).1.Catches h.accepted.length k (h ++ (run step s js).2)
      (RingHistory.Returned (run step s js).2) := by
    refine run_induction (P := fun h' (t : RingThreads) =>
      t.Catches h.accepted.length k (h ++ h') (RingHistory.Returned h')) ?_ ?_ js
    · rw [List.append_nil]
      exact ⟨hfits, le_rfl, hcovers, fun ⟨_, hmem⟩ => absurd hmem (by simp)⟩
    · intro h' t x ht
      have hstep := ht.step x
      rw [List.append_assoc] at hstep
      exact ⟨hstep.fits, hstep.le_accepted, hstep.covers,
        fun hr => hstep.le_handed (RingHistory.returned_concat.mp hr)⟩
  -- both are prefixes of what is accepted in the end
  have haccepted : h.accepted <+: RingHistory.accepted (h ++ (run step s js).2) := by
    rw [RingHistory.accepted, RingHistory.accepted, List.filterMap_append]
    exact List.prefix_append _ _
  exact List.prefix_of_prefix_length_le haccepted hrun.fits.isPrefix (hrun.le_handed hreturned)

/-- **The ring is a bounded queue**, under any interleaving.  What is handed out is what was
accepted, in this order; the others are in their slots, until a call of `drain` that loads `tail`
after they were accepted has handed them out.  No slot is filled that is still to be read, at most
one slot less than there are is in use, and a record is refused only if so many are. -/
theorem bounded_fifo (k : ℕ) (writes : List Bytes) (drains : ℕ) (is : List RingThread) :
    let s := (run step (new (2 ^ k) writes drains) is).1
    let h : RingHistory := (run step (new (2 ^ k) writes drains) is).2
    (∃ unread, h.accepted = h.handed ++ unread ∧
      ∀ j < unread.length, s.ring.slots[(h.handed.length + j) % 2 ^ k]? = unread[j]?) ∧
    (∀ t, s.tryWrite = .assign t →
      (∀ j, h.released ≤ j → j < h.accepted.length → j % 2 ^ k ≠ t) ∧
        ∀ i e count, s.drain = .loop i e count → i ≠ e → i ≠ t) ∧
    h.released ≤ h.handed.length ∧ h.accepted.length ≤ h.released + (2 ^ k - 1) ∧
    (∀ p, (s.step .producer).2 = some (.refused p) →
      h.accepted.length = h.released + (2 ^ k - 1)) ∧
    ((∀ i e count, s.drain ≠ .loop i e count) →
      ∀ js, RingHistory.Returned (run step s js).2 →
        h.accepted <+: RingHistory.handed (h ++ (run step s js).2)) := by
  intro s h
  have hfits : s.Fits k h := fits_run k writes drains is
  have hlen := hfits.inv.holds.window.length_lt
  refine ⟨hfits.unread, fun t hplace => hfits.assign hplace, hfits.inv.consumer.freed_le, by omega,
    fun p hp => ?_, fun hplace js hreturned => ?_⟩
  · have hstep := hfits.inv.producer_step
    rcases hs : s.step .producer with ⟨s', ev⟩
    rw [hs] at hstep hp
    obtain rfl : ev = some (.refused p) := hp
    have hfull : h.accepted.length + 1 = h.released + 2 ^ k := hstep.2
    have hpos := Nat.two_pow_pos k
    omega
  · exact accepted_prefix_handed hfits hplace js hreturned

/-- A ring of two slots that refuses the second record, and hands out the first one. -/
theorem bounded_fifo_two :
    let is : List RingThread := [.producer, .producer, .producer, .producer, .producer]
    let js : List RingThread := [.consumer, .consumer, .consumer, .consumer]
    let s := (run step (new (2 ^ 1) [lit "a", lit "b"] 1) is).1
    let h : RingHistory := (run step (new (2 ^ 1) [lit "a", lit "b"] 1) is).2
    h.accepted = [lit "a"] ∧ h.accepted.length = h.released + (2 ^ 1 - 1) ∧
      [lit "a"] <+: RingHistory.handed (h ++ (run step s js).2) := by
  intro is js s h
  obtain ⟨-, -, -, -, hrefused, hhanded⟩ := bounded_fifo 1 [lit "a", lit "b"] 1 is
  refine ⟨by decide, hrefused (lit "b") (by decide), ?_⟩
  have hplace : s.drain = .loadHead := by decide
  exact hhanded (fun i e count heq => nomatch hplace.symm.trans heq) js ⟨1, by decide⟩

end RingThreads

end LobCapture
