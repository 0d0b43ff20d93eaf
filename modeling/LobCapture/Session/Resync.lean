/-
# Resync on an unbroken stream

When the buffered events follow each other without a gap and the snapshot connects to them, a
resync should apply everything that is newer than the snapshot and leave the session ready for
the next event.  For spot it does; for USD-M it depends on where the snapshot id falls.
-/
import LobCapture.Session.History

namespace LobCapture.BookSession

open Lib

variable {s : BookSession} {v : Venue} {S : UInt64} {ev : DepthEvent}
  {l pre post rest : List DepthEvent} {b b' : OrderBook} {cbs : List (DepthEvent × OrderBook)}

/-! ## Streams -/

/-- A run of events, each with its successor related by `R`. -/
def Stream (R : DepthEvent → DepthEvent → Prop) (l : List DepthEvent) : Prop :=
  (∀ e ∈ l, e.U ≤ e.u) ∧ l.IsChain R

/-- A run of spot events without a gap. -/
abbrev Contiguous : List DepthEvent → Prop := Stream fun e e' => e'.U.toNat = e.u.toNat + 1

/-- A run of USD-M events, each of which names its predecessor. -/
abbrev Linked : List DepthEvent → Prop := Stream fun e e' => e.u < e'.U ∧ e'.pu = e.u

namespace Stream

variable {R : DepthEvent → DepthEvent → Prop}

lemma tail (h : Stream R (ev :: l)) : Stream R l :=
  ⟨fun e he => h.1 e (List.mem_cons_of_mem _ he), (List.isChain_cons.mp h.2).2⟩

lemma of_append (h : Stream R (pre ++ post)) : Stream R post :=
  ⟨fun e he => h.1 e (List.mem_append_right _ he), (List.isChain_append.mp h.2).2.1⟩

/-- The events of a stream do not overlap when each starts after the end of its predecessor. -/
lemma ordered (hR : ∀ e e', R e e' → e.u < e'.U) (h : Stream R l) :
    l.Pairwise fun e e' => e.u < e'.U ∧ e'.U ≤ e'.u := by
  refine @List.IsChain.pairwise _ (fun e e' => e.u < e'.U ∧ e'.U ≤ e'.u) l
    ⟨fun h h' => ⟨(h.1.trans_le h.2).trans h'.1, h'.2⟩⟩ ?_
  induction l with
  | nil => exact .nil
  | cons e l ih =>
    refine List.isChain_cons.mpr ⟨?_, ih h.tail⟩
    intro e' he'
    exact ⟨hR _ _ ((List.isChain_cons.mp h.2).1 e' he'),
      h.tail.1 e' (List.mem_of_mem_head? he')⟩

lemma increasing (hR : ∀ e e', R e e' → e.u < e'.U) (h : Stream R l) :
    l.Pairwise fun e e' => e.u < e'.u :=
  (h.ordered hR).imp fun h => h.1.trans_le h.2

end Stream

lemma Contiguous.increasing (h : Contiguous l) : l.Pairwise fun e e' => e.u < e'.u :=
  Stream.increasing (fun e e' (h : e'.U.toNat = e.u.toNat + 1) => by
    rw [UInt64.lt_iff_toNat_lt]
    omega) h

lemma Linked.increasing (h : Linked l) : l.Pairwise fun e e' => e.u < e'.u :=
  Stream.increasing (fun _ _ h => h.1) h

/-- A snapshot id cuts a list of increasing ids in two. -/
lemma exists_split (S : UInt64) (h : l.Pairwise fun e e' => e.u < e'.u) :
    ∃ pre post, l = pre ++ post ∧ (∀ e ∈ pre, e.u ≤ S) ∧ (∀ e ∈ post, S < e.u) ∧
      l.filter (S < ·.u) = post := by
  induction l with
  | nil => exact ⟨[], [], by simp⟩
  | cons e l ih =>
    obtain ⟨hlt, hl⟩ := List.pairwise_cons.mp h
    rcases le_or_gt e.u S with he | he
    · obtain ⟨pre, post, rfl, hpre, hpost, hfilter⟩ := ih hl
      exact ⟨e :: pre, post, rfl, by simpa [he] using hpre, hpost,
        by simpa [not_lt_of_ge he] using hfilter⟩
    · have hall : ∀ x ∈ e :: l, S < x.u := by
        rintro x (_ | ⟨_, hx⟩)
        · exact he
        · exact he.trans (hlt x hx)
      exact ⟨[], e :: l, rfl, by simp, hall, List.filter_eq_self.mpr (by simpa using hall)⟩

/-! ## Events that fit -/

/-- Each event of the list is new to the book and connects to it, once those before it have been
applied. -/
def Fits (v : Venue) : OrderBook → List DepthEvent → Prop
  | _, [] => True
  | b, e :: l => b.lastUpdateId < e.u ∧ b.Bridges v e ∧ Fits v (b.advance e) l

/-- Spot events fit when they are contiguous, the first starts no later than the id after the
book and is not stale. -/
lemma fits_spot (h : Contiguous l) (hnew : ∀ e ∈ l.head?, b.lastUpdateId < e.u)
    (hhead : ∀ e ∈ l.head?, e.U.toNat ≤ b.lastUpdateId.toNat + 1) : Fits .spot b l := by
  induction l generalizing b with
  | nil => trivial
  | cons e l ih =>
    have hnext := (List.isChain_cons.mp h.2).1
    refine ⟨hnew e rfl, hhead e rfl, ih h.tail ?_ ?_⟩
    · intro e' he'
      exact List.rel_of_pairwise_cons h.increasing (List.mem_of_mem_head? he')
    · exact fun e' he' => (hnext e' he').le

/-- Linked USD-M events fit a book that has already started, when the first names its id. -/
lemma fits_usdm (h : Linked l) (hstarted : b.started = true)
    (hnew : ∀ e ∈ l.head?, b.lastUpdateId < e.u)
    (hhead : ∀ e ∈ l.head?, e.pu = b.lastUpdateId) : Fits .usdm b l := by
  induction l generalizing b with
  | nil => trivial
  | cons e l ih =>
    have hnext := (List.isChain_cons.mp h.2).1
    refine ⟨hnew e rfl, by simpa [OrderBook.Bridges, hstarted] using hhead e rfl,
      ih h.tail rfl ?_ ?_⟩
    · intro e' he'
      exact List.rel_of_pairwise_cons h.increasing (List.mem_of_mem_head? he')
    · exact fun e' he' => (hnext e' he').2

/-- The book after a list of events. -/
def advanceAll (l : List DepthEvent) (b : OrderBook) : OrderBook :=
  l.foldl (fun b e => b.advance e) b

lemma lastUpdateId_advanceAll (l : List DepthEvent) (b : OrderBook) :
    (advanceAll l b).lastUpdateId = (l.getLast?.map DepthEvent.u).getD b.lastUpdateId := by
  cases l using List.reverseRecOn with
  | nil => rfl
  | append_singleton l e => simp [advanceAll]

lemma started_advanceAll (l : List DepthEvent) (b : OrderBook) :
    (advanceAll l b).started = (b.started || !l.isEmpty) := by
  cases l using List.reverseRecOn with
  | nil => simp [advanceAll]
  | append_singleton l e => simp [advanceAll]

lemma initialized_advanceAll (l : List DepthEvent) (b : OrderBook) :
    (advanceAll l b).initialized = b.initialized := by
  induction l generalizing b with
  | nil => rfl
  | cons e l ih => exact (ih _).trans (OrderBook.initialized_advance e b)

/-- A synced session applies events that fit, one after the other. -/
lemma run_onDiff_fits (hs : s.Synced) (h : Fits s.venue s.ob l) :
    ∀ x ∈ (run step s (l.map Call.onDiff)).2, x.2 = .outcome .applied := by
  induction l generalizing s with
  | nil => simp
  | cons e l ih =>
    obtain ⟨hnew, hb, hrest⟩ := h
    have happ : s.onDiff e = (.applied, { s with ob := s.ob.advance e }) := by
      rcases s.onDiff_cases e with ⟨hn, -⟩ | ⟨-, hold, -⟩ | ⟨-, -, -, heq⟩ | ⟨-, -, hnb, -⟩
      · exact absurd hs hn
      · exact absurd hold (not_le_of_gt hnew)
      · exact heq
      · exact absurd hb hnb
    simp only [List.map_cons, run_cons, step, happ]
    rintro x (_ | ⟨_, hx⟩)
    · rfl
    · exact ih (s := { s with ob := s.ob.advance e }) ⟨hs.1, by simpa using hs.2⟩ hrest x hx

namespace Consumes

/-- The loop skips the stale events at the front. -/
lemma drop_stale (h : Consumes v S b (pre ++ post) b' cbs rest) (hpre : ∀ e ∈ pre, e.u ≤ S) :
    Consumes v S b post b' cbs rest := by
  induction pre with
  | nil => exact h
  | cons e pre ih =>
    have he : e.u ≤ S := hpre e List.mem_cons_self
    cases h with
    | skip hold h => exact ih h fun x hx => hpre x (List.mem_cons_of_mem _ hx)
    | apply hS hnew hb h => exact absurd he (not_le_of_gt hS)
    | gap hS hnew hb => exact absurd he (not_le_of_gt hS)

/-- The loop applies all events that fit. -/
lemma of_fits (h : Consumes v S b l b' cbs rest) (hS : ∀ e ∈ l, S < e.u) (hfits : Fits v b l) :
    cbs.map Prod.fst = l ∧ (∀ x ∈ cbs, x.2.lastUpdateId = x.1.u) ∧ rest = [] ∧
      b' = advanceAll l b := by
  induction h with
  | done b => simp [advanceAll]
  | skip hold h ih =>
    rcases hold with hold | hold
    · exact absurd hold (not_le_of_gt (hS _ List.mem_cons_self))
    · exact absurd hold (not_le_of_gt hfits.1)
  | apply hS' hnew hb h ih =>
    obtain ⟨hfst, hid, hrest, hb'⟩ := ih (fun e he => hS e (List.mem_cons_of_mem _ he)) hfits.2.2
    refine ⟨by rw [List.map_cons, hfst], ?_, hrest, hb'⟩
    rintro x (_ | ⟨_, hx⟩)
    · rfl
    · exact hid x hx
  | gap hS' hnew hb => exact absurd hfits.2.1 hb

end Consumes

/-- A resync that finds only fitting events after the stale ones. -/
lemma onSnapshot_of_fits {bids asks : List Level} (hbuf : s.buffer = pre ++ post)
    (hpre : ∀ e ∈ pre, e.u ≤ S) (hpost : ∀ e ∈ post, S < e.u)
    (hfits : Fits s.venue (s.ob.setSnapshot .stored bids asks S) post) :
    ∃ cbs, cbs.map Prod.fst = post ∧ (∀ x ∈ cbs, x.2.lastUpdateId = x.1.u) ∧
      s.onSnapshot bids asks S =
        ⟨{ s with
            ob := advanceAll post (s.ob.setSnapshot .stored bids asks S)
            resyncPending := false
            buffer := [] }, cbs.length, cbs⟩ := by
  obtain ⟨b', cbs, rest, hc, heq⟩ := s.onSnapshot_cases bids asks S
  rw [hbuf] at hc
  obtain ⟨hfst, hid, rfl, rfl⟩ := (hc.drop_stale hpre).of_fits hpost hfits
  exact ⟨cbs, hfst, hid, heq⟩

/-! ## Spot -/

/-- **A spot resync completes on an unbroken stream**, and the session then applies whatever
follows without a gap. -/
theorem onSnapshot_spot (s : BookSession) (S : UInt64) (bids asks : List Level)
    (hv : s.venue = .spot) (hbuf : Contiguous s.buffer)
    (hS : ∀ e ∈ s.buffer.head?, e.U.toNat ≤ S.toNat + 1) :
    let r := s.onSnapshot bids asks S
    r.applied = (s.buffer.filter (S < ·.u)).length ∧
      r.callbacks.map Prod.fst = s.buffer.filter (S < ·.u) ∧
      (∀ x ∈ r.callbacks, x.2.lastUpdateId = x.1.u) ∧
      r.session.buffer = [] ∧ r.session.resyncPending = false ∧
      r.session.ob.initialized = true ∧
      r.session.ob.lastUpdateId = max S ((s.buffer.getLast?.map DepthEvent.u).getD S) ∧
      ∀ later, Contiguous later →
        (∀ e ∈ later.head?, e.U.toNat = r.session.ob.lastUpdateId.toNat + 1) →
        ∀ x ∈ (run step r.session (later.map Call.onDiff)).2, x.2 = .outcome .applied := by
  obtain ⟨pre, post, hsplit, hpre, hpost, hfilter⟩ := exists_split S hbuf.increasing
  have hfits : Fits s.venue (s.ob.setSnapshot .stored bids asks S) post := by
    rw [hv]
    refine fits_spot (hsplit ▸ hbuf).of_append
      (fun e he => hpost e (List.mem_of_mem_head? he)) ?_
    intro e he
    -- the first event left either is the first of all or follows a stale one
    cases hlast : pre.getLast? with
    | none =>
      rw [List.getLast?_eq_none_iff] at hlast
      refine hS e ?_
      rwa [hsplit, hlast]
    | some d =>
      have hnext : e.U.toNat = d.u.toNat + 1 :=
        (List.isChain_append.mp (hsplit ▸ hbuf).2).2.2 d hlast e he
      have hd := UInt64.le_iff_toNat_le.mp (hpre d (List.mem_of_getLast? hlast))
      show e.U.toNat ≤ S.toNat + 1
      omega
  obtain ⟨cbs, hfst, hid, heq⟩ := onSnapshot_of_fits hsplit hpre hpost hfits
  have hinit : (advanceAll post (s.ob.setSnapshot .stored bids asks S)).initialized = true :=
    initialized_advanceAll _ _
  simp only [heq, hfilter]
  refine ⟨by rw [← hfst, List.length_map], hfst, hid, trivial, trivial, hinit, ?_, ?_⟩
  · rw [lastUpdateId_advanceAll, hsplit]
    show (post.getLast?.map DepthEvent.u).getD S = _
    cases hp : post.getLast? with
    | none =>
      rw [List.getLast?_eq_none_iff] at hp
      rw [hp, List.append_nil]
      cases hl : pre.getLast? with
      | none => simp
      | some d => simpa using hpre d (List.mem_of_getLast? hl)
    | some e =>
      have he := hpost e (List.mem_of_getLast? hp)
      simpa [List.getLast?_append, hp] using he.le
  · -- the first later event starts right behind the book
    intro later hlater hhead
    refine run_onDiff_fits ⟨rfl, hinit⟩ ?_
    rw [show s.venue = .spot from hv]
    refine fits_spot hlater ?_ fun e he => (hhead e he).le
    intro e he
    have hU := UInt64.le_iff_toNat_le.mp (hlater.1 e (List.mem_of_mem_head? he))
    rw [hhead e he] at hU
    exact UInt64.lt_iff_toNat_lt.mpr hU

/-- A spot session with two buffered events, the first of which the snapshot already contains. -/
theorem onSnapshot_spot_boundary :
    let s : BookSession := (run step (new 1 .spot)
      [.onDiff { U := 11, u := 12 }, .onDiff { U := 13, u := 15 }]).1
    (s.onSnapshot [] [] 12).applied = 1 ∧ (s.onSnapshot [] [] 12).session.buffer = [] := by
  intro s
  have hbuf : s.buffer = [{ U := 11, u := 12 }, { U := 13, u := 15 }] := rfl
  have h := onSnapshot_spot s 12 [] [] rfl (by rw [hbuf]; simp [Stream]) (by rw [hbuf]; simp)
  exact ⟨h.1.trans (by rw [hbuf]; rfl), h.2.2.2.1⟩

/-! ## USD-M -/

/-- What a resync on an unbroken USD-M stream is for: exactly the events newer than the snapshot
are applied, in order, nothing stays behind, and the next event that names the book's id as its
predecessor is applied when it arrives. -/
def Resumes (s : BookSession) (bids asks : List Level) (S : UInt64) : Prop :=
  let r := s.onSnapshot bids asks S
  r.callbacks.map Prod.fst = s.buffer.filter (S < ·.u) ∧
    r.session.buffer = [] ∧ r.session.resyncPending = false ∧
    ∀ ev : DepthEvent, ev.pu = r.session.ob.lastUpdateId → ev.pu < ev.U → ev.U ≤ ev.u →
      (r.session.onDiff ev).1 = .applied

/-- When everything in the buffer is stale the book waits for a first event that starts at or
before the snapshot, and the successor of the last event does not. -/
lemma resumes_of_stale {bids asks : List Level} (hv : s.venue = .usdm)
    (hstale : ∀ e ∈ s.buffer, e.u ≤ S) : Resumes s bids asks S ↔ S.toNat + 1 = UInt64.size := by
  obtain ⟨cbs, hfst, -, heq⟩ := @onSnapshot_of_fits s S s.buffer [] bids asks
    (List.append_nil _).symm hstale (by simp) trivial
  have hfilter : s.buffer.filter (S < ·.u) = [] := by
    rw [List.filter_eq_nil_iff]
    intro e he
    simpa using hstale e he
  simp only [Resumes, heq, hfilter, hfst, onDiff_applied, hv]
  constructor
  · -- the event that starts right behind the snapshot is no first event for the book
    rintro ⟨-, -, -, hnext⟩
    by_contra hS
    have hlt : S < S + 1 := by
      have := S.toNat_lt_size
      rw [UInt64.size] at this hS
      rw [UInt64.lt_iff_toNat_lt, UInt64.toNat_add, UInt64.toNat_one]
      omega
    have hU : S + 1 ≤ S := (hnext { U := S + 1, u := S + 1, pu := S } rfl hlt le_rfl).2.2
    exact absurd hU (not_le_of_gt hlt)
  · intro hS
    refine ⟨trivial, trivial, trivial, fun ev hpu hU _ => ?_⟩
    have hlt : S < ev.U := by
      rw [hpu] at hU
      exact hU
    have := ev.U.toNat_lt_size
    rw [UInt64.lt_iff_toNat_lt] at hlt
    omega

/-- When some event is newer than the snapshot, everything depends on where the first of them
starts. -/
lemma resumes_of_newer {bids asks : List Level} (hv : s.venue = .usdm)
    (hbuf : s.buffer = pre ++ ev :: post) (hl : Linked (ev :: post)) (hpre : ∀ e ∈ pre, e.u ≤ S)
    (hpost : ∀ e ∈ ev :: post, S < e.u) : Resumes s bids asks S ↔ ev.U ≤ S := by
  have hfilter : s.buffer.filter (S < ·.u) = ev :: post := by
    rw [hbuf, List.filter_append, List.filter_eq_nil_iff.mpr, List.filter_eq_self.mpr]
    · rfl
    · simpa using hpost
    · simpa using hpre
  constructor
  · -- a first newer event that starts behind the snapshot stays in the buffer
    rintro ⟨-, hrest, -⟩
    by_contra hU
    obtain ⟨b', cbs, rest, hc, heq⟩ := s.onSnapshot_cases bids asks S
    rw [hbuf, hv] at hc
    rw [heq] at hrest
    subst hrest
    cases hc.drop_stale hpre with
    | skip hold h => exact absurd (hpost ev List.mem_cons_self) (not_lt_of_ge (or_self_iff.mp hold))
    | apply hS hnew hb h => exact hU hb
  · intro hU
    have hnext := (List.isChain_cons.mp hl.2).1
    have hfits : Fits s.venue (s.ob.setSnapshot .stored bids asks S) (ev :: post) := by
      rw [hv]
      refine ⟨hpost ev List.mem_cons_self, hU, fits_usdm hl.tail rfl ?_ ?_⟩
      · intro e he
        exact List.rel_of_pairwise_cons hl.increasing (List.mem_of_mem_head? he)
      · exact fun e he => (hnext e he).2
    obtain ⟨cbs, hfst, -, heq⟩ := onSnapshot_of_fits hbuf hpre hpost hfits
    simp only [Resumes, heq, hfilter, hfst, onDiff_applied, hv]
    refine ⟨trivial, trivial, trivial, fun e hpu hlt hle => ⟨⟨rfl, ?_⟩, ?_, ?_⟩⟩
    · exact initialized_advanceAll _ _
    · exact hpu ▸ hlt.trans_le hle
    · simpa [OrderBook.Bridges, started_advanceAll] using hpu

/-- **When a USD-M resync resumes on an unbroken stream**: exactly when some buffered event
starts at or before the snapshot id and ends after it, or when no later event can exist. -/
theorem onSnapshot_usdm (s : BookSession) (S : UInt64) (bids asks : List Level)
    (hv : s.venue = .usdm) (hbuf : Linked s.buffer) :
    Resumes s bids asks S ↔
      (∃ e ∈ s.buffer, e.U ≤ S ∧ S < e.u) ∨ S.toNat + 1 = UInt64.size := by
  obtain ⟨pre, post, hsplit, hpre, hpost, -⟩ := exists_split S hbuf.increasing
  rw [hsplit] at hbuf
  cases post with
  | nil =>
    rw [List.append_nil] at hsplit
    rw [resumes_of_stale hv (hsplit ▸ hpre), hsplit]
    refine ⟨.inr, ?_⟩
    rintro (⟨e, he, -, hlt⟩ | hS)
    · exact absurd (hpre e he) (not_le_of_gt hlt)
    · exact hS
  | cons ev post =>
    rw [resumes_of_newer hv hsplit hbuf.of_append hpre hpost, hsplit]
    have hev : S < ev.u := hpost ev List.mem_cons_self
    refine ⟨fun hU => .inl ⟨ev, by simp, hU, hev⟩, ?_⟩
    rintro (⟨e, he, hU, hlt⟩ | hS)
    · rcases List.mem_append.mp he with he | he
      · exact absurd (hpre e he) (not_le_of_gt hlt)
      rcases List.mem_cons.mp he with rfl | he
      · exact hU
      · -- later events start after the end of `ev`
        have hord := (hbuf.of_append.ordered fun _ _ h => h.1)
        have hstart := (List.rel_of_pairwise_cons hord he).1
        exact absurd (hev.trans hstart) (not_lt_of_ge hU)
    · have := ev.u.toNat_lt_size
      rw [UInt64.lt_iff_toNat_lt] at hev
      omega

/-- A snapshot inside the first of two buffered events. -/
theorem onSnapshot_usdm_inside :
    Resumes (run step (new 1 .usdm) [.onDiff { U := 11, u := 13, pu := 9 },
      .onDiff { U := 15, u := 16, pu := 13 }]).1 [] [] 12 :=
  (onSnapshot_usdm _ 12 [] [] rfl ⟨by decide, by decide⟩).mpr
    (.inl ⟨{ U := 11, u := 13, pu := 9 }, by decide, by decide, by decide⟩)

/-- A snapshot whose id is the end of a buffered event: the next event names that id as its
predecessor, and the resync still stops at it. -/
theorem onSnapshot_usdm_boundary :
    let s : BookSession := (run step (new 1 .usdm) [.onDiff { U := 11, u := 12, pu := 9 },
      .onDiff { U := 15, u := 16, pu := 12 }]).1
    s.resyncPending = true ∧ Linked s.buffer ∧
      (∀ e ∈ s.buffer.head?, e.U ≤ 12) ∧ (∀ e ∈ s.buffer.getLast?, 12 ≤ e.u) ∧
      ¬ Resumes s [] [] 12 := by
  intro s
  refine ⟨rfl, ⟨by decide, by decide⟩, by decide, by decide, ?_⟩
  rintro ⟨-, hrest, -⟩
  revert hrest
  decide

end LobCapture.BookSession
