/-
# Stop and reconnect

What a client comes to in the end, if its thread goes on whenever it can, a timer that is armed
expires at some time, and a sleep ends.  After `stop` or the deadline it hands over one more frame
at most, and returns.  After a failed operation it connects again, with one exception: when the
time of the watchdog has come just before, `wd.cancel()` comes too late, the handler of the
watchdog arms the timer again, and `ioc.run()` never returns.
-/
import LobCapture.Client.WsClient
import LobCapture.Lib.Fair

namespace LobCapture

open Lib

namespace WsClient

/-! ## Fairness -/

/-- What happens at some time when it can. -/
inductive Party where
  | loop
  | check
  | watchdog
  | leave
  | next
  | expire
  | wake
deriving DecidableEq

def Event.party : Event → Option Party
  | .loop => some .loop
  | .check => some .check
  | .watchdog => some .watchdog
  | .leave => some .leave
  | .next => some .next
  | .expire => some .expire
  | .wake => some .wake
  | _ => none

variable (asio : Asio)

/-- It can happen. -/
def Ready (k : Party) (c : WsClient) : Prop :=
  match k with
  | .loop => c.place = .top
  | .check => c.place = .delivered
  | .watchdog => c.place.polling = true ∧ (c.wd = .expired ∨ c.wd = .cancelled)
  | .leave => (c.place.polling = true ∨ c.place = .stopped) ∧
      asio.returns (c.place = .stopped) c.place.busy c.wd = true
  | .next => c.place = .behind
  | .expire => asio.expires c.wd = true
  | .wake => c.place = .sleeping

/-- The client with these events for ever. -/
abbrev FairRun (es : ℕ → Event) : Prop := Fair (step asio) Event.party (Ready asio) {} es

variable {asio}

/-- What the documentation says about `ioc.run()`, for the places of the client. -/
lemma Asio.Documented.leaves_iff (hasio : asio.Documented) (c : WsClient) :
    (c.place.polling = true ∨ c.place = .stopped) ∧
        asio.returns (c.place = .stopped) c.place.busy c.wd = true ↔
      c.place = .stopped ∨ c.place = .failed ∧ c.wd = .off := by
  rw [hasio.returns_iff]
  cases c.place <;> simp [Place.polling, Place.busy]

/-! ## The watchdog -/

/-- While an operation is under way, the watchdog is armed. -/
def Armed (c : WsClient) : Prop :=
  (∃ op, c.place = .setup op) ∨ c.place = .reading ∨ c.place = .delivered →
    c.wd = .waiting ∨ c.wd = .expired

lemma armed_of_place {c : WsClient} (h : ∀ op, c.place ≠ .setup op) (hr : c.place ≠ .reading)
    (hd : c.place ≠ .delivered) : Armed c := by
  rintro (⟨op, hp⟩ | hp | hp)
  · exact absurd hp (h op)
  · exact absurd hp hr
  · exact absurd hp hd

lemma Armed.reconnect (c : WsClient) : Armed c.reconnect.1 := by
  rw [WsClient.reconnect]
  split_ifs <;> exact armed_of_place (by simp) (by simp) (by simp)

lemma Armed.step {c : WsClient} (h : Armed c) (e : Event) : Armed (c.step asio e).1 := by
  have hm := c.moves asio e
  generalize c.step asio e = r at hm
  cases hm with
  | nothing => exact h
  | stop => exact h
  | deadline => exact h
  | ends => exact armed_of_place (by simp) (by simp) (by simp)
  | begins => exact fun _ => .inl rfl
  | @proceeds op hp => cases op <;> exact fun _ => h (.inl ⟨_, hp⟩)
  | fails => exact armed_of_place (by simp [failed]) (by simp [failed]) (by simp [failed])
  | delivers hp _ _ _ _ throws => cases throws <;> exact fun _ => h (.inr (.inl hp))
  | stops => exact armed_of_place (by simp) (by simp) (by simp)
  | reads hp => exact fun _ => h (.inr (.inr hp))
  | expires => exact fun _ => .inr rfl
  | aborted hp hwd =>
    -- a wait is cancelled only after a failure
    rintro (⟨op, hp⟩ | hp | hp)
    · exact absurd (h (.inl ⟨op, hp⟩)) (by simp [hwd])
    · exact absurd (h (.inr (.inl hp))) (by simp [hwd])
    · exact absurd (h (.inr (.inr hp))) (by simp [hwd])
  | interrupts => exact armed_of_place (by simp) (by simp) (by simp)
  | rearms => exact fun _ => .inl rfl
  | leaves => exact armed_of_place (by simp) (by simp) (by simp)
  | goesOn => exact Armed.reconnect c
  | catches => exact Armed.reconnect c
  | wakes => exact armed_of_place (by simp) (by simp) (by simp)

lemma armed_states (es : ℕ → Event) (n : ℕ) : Armed (states (step asio) {} es n) :=
  states_invariant (armed_of_place (by simp) (by simp) (by simp)) (fun _ e h => h.step e) n

/-! ## Stop -/

lemma ended_step {c : WsClient} (h : c.ended = true) (e : Event) :
    (c.step asio e).1.ended = true := by
  have hm := c.moves asio e
  generalize c.step asio e = r at hm
  cases hm with
  | stop => rfl
  | deadline => exact Bool.or_true _
  | @proceeds op => cases op <;> exact h
  | delivers _ _ _ _ _ throws => cases throws <;> exact h
  | goesOn => rw [reconnect, if_pos h]; exact h
  | catches => rw [reconnect, if_pos h]; exact h
  | _ => exact h

/-- The frames that can still come when it is over. -/
def Place.comes : Place → ℕ
  | .setup _ | .reading => 1
  | _ => 0

lemma comes_step {c : WsClient} (h : c.ended = true) (e : Event) :
    (frames [(e, (c.step asio e).2)]).length + (c.step asio e).1.place.comes ≤ c.place.comes := by
  have hm := c.moves asio e
  generalize c.step asio e = r at hm
  cases hm with
  | nothing => simp [frames]
  | stop => simp [frames]
  | deadline => simp [frames]
  | ends => simp [frames, Place.comes]
  | begins _ ho => exact absurd h (by simp [ho])
  | @proceeds op hp => cases op <;> simp [proceed, frames, Place.comes, hp]
  | fails => simp [failed, frames, Place.comes]
  | delivers hp _ _ _ _ throws => cases throws <;> simp [deliver, frames, Place.comes, hp]
  | stops => simp [frames, Place.comes]
  | reads _ ho => exact absurd h (by simp [ho])
  | expires => simp [frames]
  | aborted => simp [frames]
  | interrupts => simp [frames, Place.comes]
  | rearms _ _ ho => exact absurd h (by simp [ho])
  | leaves => simp [frames, Place.comes]
  | goesOn => simp [reconnect, h, frames, Place.comes]
  | catches => simp [reconnect, h, frames, Place.comes]
  | wakes => simp [frames, Place.comes]

/-- One more frame at most. -/
lemma frames_ended {c : WsClient} (h : c.ended = true) (es : List Event) :
    (frames (run (step asio) c es).2).length ≤ 1 := by
  have hrun : ∀ c : WsClient, c.ended = true →
      (frames (run (step asio) c es).2).length ≤ c.place.comes := by
    induction es with
    | nil => simp [frames]
    | cons e es ih =>
      intro c h
      have hstep := @comes_step asio _ h e
      have hrest := ih _ (@ended_step asio _ h e)
      have hsplit : frames (run (step asio) c (e :: es)).2 =
          frames [(e, (c.step asio e).2)] ++ frames (run (step asio) (c.step asio e).1 es).2 := by
        rw [run_cons, frames, frames, frames, ← List.filterMap_append]
        rfl
      rw [hsplit, List.length_append]
      omega
  refine (hrun c h).trans ?_
  cases c.place <;> simp [Place.comes]

/-- Where a client that is over has to be helped. -/
def helper (c : WsClient) : Party :=
  match c.place with
  | .top | .returned => .loop
  | .delivered => .check
  | .stopped => .leave
  | .behind => .next
  | .sleeping => .wake
  | _ => if c.wd = .waiting then .expire else if c.wd = .off then .leave else .watchdog

/-- How far it is from the end. -/
def distance (c : WsClient) : ℕ :=
  let wait := if c.wd = .waiting then 1 else 0
  match c.place with
  | .setup .resolve => 14 + wait
  | .setup .connect => 12 + wait
  | .setup .tls => 10 + wait
  | .setup .handshake => 8 + wait
  | .reading => 6 + wait
  | .delivered => 5
  | .failed => if c.wd = .off then 3 else 4 + wait
  | .stopped => 2
  | .sleeping => 2
  | .behind => 1
  | .top => 1
  | .returned => 0

/-- No step leads away from the end, and a step that leads nowhere leaves the helper as it is. -/
lemma distance_step (hasio : asio.Documented) {c : WsClient} (h : c.ended = true) (ha : Armed c)
    (e : Event) :
    distance (c.step asio e).1 < distance c ∨
      distance (c.step asio e).1 = distance c ∧ helper (c.step asio e).1 = helper c := by
  have hm := c.moves asio e
  generalize c.step asio e = r at hm
  cases hm with
  | nothing => exact .inr ⟨rfl, rfl⟩
  | stop => exact .inr ⟨rfl, rfl⟩
  | deadline => exact .inr ⟨rfl, rfl⟩
  | ends hp => exact .inl (by simp [distance, hp])
  | begins _ ho => exact absurd h (by simp [ho])
  | @proceeds op hp =>
    refine .inl ?_
    cases op <;> simp only [distance, proceed, hp] <;> exact Nat.add_lt_add_right (by decide) _
  | fails hp =>
    refine .inl ?_
    rcases ha (hp.imp_right .inl) with hwd | hwd <;> rcases hp with ⟨op, hp⟩ | hp
    · cases op <;> simp [distance, failed, hasio.cancel_waiting, hwd, hp]
    · simp [distance, failed, hasio.cancel_waiting, hwd, hp]
    · cases op <;> simp [distance, failed, hasio.cancel_expired, hwd, hp]
    · simp [distance, failed, hasio.cancel_expired, hwd, hp]
  | delivers hp text recvTs response snapTs throws =>
    refine .inl ?_
    have hfive : distance (c.deliver text recvTs response snapTs throws).1 = 5 := by
      cases throws <;> rfl
    rw [hfive]
    simp only [distance, hp]
    omega
  | stops hp => exact .inl (by simp [distance, hp])
  | reads _ ho => exact absurd h (by simp [ho])
  | expires hexpires =>
    have hwd := (hasio.expires_iff _).mp hexpires
    cases hp : c.place with
    | setup op => cases op <;> exact .inl (by simp [distance, hp, hwd])
    | reading => exact .inl (by simp [distance, hp, hwd])
    | failed => exact .inl (by simp [distance, hp, hwd])
    | _ => exact .inr (by simp [distance, helper, hp])
  | aborted hp hwd =>
    cases hplace : c.place with
    | setup op => exact absurd (ha (.inl ⟨op, hplace⟩)) (by simp [hwd])
    | reading => exact absurd (ha (.inr (.inl hplace))) (by simp [hwd])
    | failed => exact .inl (by simp [distance, hplace, hwd])
    | _ => simp [hplace, Place.polling] at hp
  | interrupts hp hwd =>
    cases hplace : c.place with
    | setup op => cases op <;> exact .inl (by simp [distance, hplace, hwd])
    | reading => exact .inl (by simp [distance, hplace, hwd])
    | failed => exact .inl (by simp [distance, hplace, hwd])
    | _ => simp [hplace, Place.polling] at hp
  | rearms _ _ ho => exact absurd h (by simp [ho])
  | leaves hp hr =>
    rcases (hasio.leaves_iff c).mp ⟨hp, hr⟩ with hp | ⟨hp, hwd⟩ <;>
      exact .inl (by simp [distance, *])
  | goesOn hp => exact .inl (by simp [distance, reconnect, h, hp])
  | catches hp =>
    refine .inl ?_
    have hzero : distance c.reconnect.1 = 0 := by simp [distance, reconnect, h]
    rw [hzero]
    cases hplace : c.place with
    | setup op => cases op <;> simp [distance, hplace]
    | failed => simp only [distance, hplace]; split_ifs <;> omega
    | top | sleeping | returned => simp [hplace, Place.trying] at hp
    | _ => simp [distance, hplace]
  | wakes hp => exact .inl (by simp [distance, hp])

lemma four_le_distance {c : WsClient} (hp : c.place.polling = true) (hwd : c.wd ≠ .off) :
    4 ≤ distance c := by
  cases hplace : c.place with
  | setup op => cases op <;> simp only [distance, hplace] <;> omega
  | reading => simp only [distance, hplace]; omega
  | failed => simp only [distance, hplace, if_neg hwd]; omega
  | _ => simp [hplace, Place.polling] at hp

/-- In `ioc.run()` it is the watchdog that helps. -/
lemma watchdog_helps (hasio : asio.Documented) {c : WsClient} (h : c.ended = true) (ha : Armed c)
    (hp : c.place.polling = true) :
    Ready asio (helper c) c ∧
      ∀ e, Event.party e = some (helper c) → distance (c.step asio e).1 < distance c := by
  have hhelper : helper c =
      if c.wd = .waiting then .expire else if c.wd = .off then .leave else .watchdog := by
    cases hplace : c.place <;> simp_all [helper, Place.polling]
  -- only after a failure the timer can be cancelled or off
  have hfailed : c.wd = .cancelled ∨ c.wd = .off → c.place = .failed := by
    intro hwd
    cases hplace : c.place with
    | setup op => rcases ha (.inl ⟨op, hplace⟩) with h | h <;> simp [h] at hwd
    | reading => rcases ha (.inr (.inl hplace)) with h | h <;> simp [h] at hwd
    | failed => rfl
    | _ => simp [hplace, Place.polling] at hp
  cases hwd : c.wd with
  | off =>
    have hplace := hfailed (.inr hwd)
    have hleave := (hasio.leaves_iff c).mpr (.inr ⟨hplace, hwd⟩)
    refine ⟨by simpa [hhelper, hwd, Ready] using hleave, fun e he => ?_⟩
    cases e <;> simp [hhelper, hwd, Event.party] at he
    rw [step, if_pos hleave]
    simp [distance, hplace, hwd]
  | waiting =>
    have hexpires : asio.expires .waiting = true := (hasio.expires_iff _).mpr rfl
    refine ⟨by simp [hhelper, hwd, Ready, hexpires], fun e he => ?_⟩
    cases e <;> simp [hhelper, hwd, Event.party] at he
    cases hplace : c.place with
    | setup op => cases op <;> simp [step, distance, hplace, hwd, hexpires]
    | reading => simp [step, distance, hplace, hwd, hexpires]
    | failed => simp [step, distance, hplace, hwd, hexpires]
    | _ => simp [hplace, Place.polling] at hp
  | expired =>
    refine ⟨by simp [hhelper, hwd, Ready, hp], fun e he => ?_⟩
    cases e <;> simp [hhelper, hwd, Event.party] at he
    have hfour := four_le_distance hp (by simp [hwd])
    have htwo : distance (c.step asio .watchdog).1 = 2 := by
      simp [step, onWatchdog, distance, hp, hwd, h]
    omega
  | cancelled =>
    have hplace := hfailed (.inl hwd)
    refine ⟨by simp [hhelper, hwd, Ready, hp], fun e he => ?_⟩
    cases e <;> simp [hhelper, hwd, Event.party] at he
    simp [step, onWatchdog, distance, hplace, hwd, Place.polling]

/-- The helper can take a step, and that leads on. -/
lemma helper_step (hasio : asio.Documented) {c : WsClient} (h : c.ended = true) (ha : Armed c)
    (hne : c.place ≠ .returned) :
    Ready asio (helper c) c ∧
      ∀ e, Event.party e = some (helper c) → distance (c.step asio e).1 < distance c := by
  cases hp : c.place with
  | setup op => exact watchdog_helps hasio h ha (by simp [hp, Place.polling])
  | reading => exact watchdog_helps hasio h ha (by simp [hp, Place.polling])
  | failed => exact watchdog_helps hasio h ha (by simp [hp, Place.polling])
  | returned => exact absurd hp hne
  | stopped =>
    have hleave := (hasio.leaves_iff c).mpr (.inl hp)
    refine ⟨by simpa [helper, Ready, hp] using hleave, fun e he => ?_⟩
    cases e <;> simp [helper, hp, Event.party] at he
    rw [step, if_pos hleave]
    simp [distance, hp]
  | _ =>
    refine ⟨by simp [helper, Ready, hp], fun e he => ?_⟩
    cases e <;> simp [helper, hp, Event.party] at he
    simp [step, distance, reconnect, hp, h]

/-- A client that is over returns. -/
lemma returns (hasio : asio.Documented) {es : ℕ → Event} (hfair : FairRun asio es) {n : ℕ}
    (h : (states (step asio) {} es n).ended = true) :
    ∃ m, n ≤ m ∧ (states (step asio) {} es m).place = .returned := by
  refine hfair.leadsTo (P := fun c => c.ended = true ∧ Armed c) (r := distance) (k := helper)
    (fun c hc hne => (helper_step hasio hc.1 hc.2 hne).1) ?_ ⟨h, armed_states es n⟩
  rintro m - ⟨ho, ha⟩ hne
  refine .inr ⟨⟨ended_step ho _, ha.step _⟩, ?_⟩
  rcases distance_step hasio ho ha (es m) with hlt | ⟨heq, hhelper⟩
  · exact .inl hlt
  · refine .inr ⟨heq, hhelper, fun hparty => ?_⟩
    have hlt := (helper_step hasio ho ha hne).2 _ hparty
    omega

/-! ## Reconnecting -/

/-- Nobody stops the client, and nothing is thrown. -/
def Undisturbed (e : Event) : Prop := e ≠ .stop ∧ e ≠ .deadline ∧ e ≠ .throws

/-- The failure has come after the time of the watchdog. -/
def Caught (c : WsClient) : Prop :=
  c.ended = false ∧ c.place = .failed ∧ (c.wd = .waiting ∨ c.wd = .expired)

lemma Caught.advance (hasio : asio.Documented) {c : WsClient} (h : Caught c) {e : Event}
    (he : Undisturbed e) :
    Caught (c.step asio e).1 := by
  obtain ⟨ho, hp, hwd⟩ := h
  have hm := c.moves asio e
  generalize c.step asio e = r at hm
  cases hm with
  | nothing => exact ⟨ho, hp, hwd⟩
  | stop => exact absurd rfl he.1
  | deadline => exact absurd rfl he.2.1
  | catches => exact absurd rfl he.2.2
  | expires => exact ⟨ho, hp, .inr rfl⟩
  | aborted _ hwd' => simp [hwd'] at hwd
  | interrupts _ _ ho' => exact absurd ho (by simp [ho'])
  | rearms => exact ⟨ho, hp, .inl rfl⟩
  | leaves hp' hr =>
    rcases (hasio.leaves_iff c).mp ⟨hp', hr⟩ with hp' | ⟨-, hwd'⟩
    · simp [hp] at hp'
    · simp [hwd'] at hwd
  | fails hp' => rcases hp' with ⟨op, hp'⟩ | hp' <;> simp [hp] at hp'
  | ends hp' => exact absurd (hp.symm.trans hp') (by simp)
  | begins hp' => exact absurd (hp.symm.trans hp') (by simp)
  | proceeds hp' => exact absurd (hp.symm.trans hp') (by simp)
  | delivers hp' => exact absurd (hp.symm.trans hp') (by simp)
  | stops hp' => exact absurd (hp.symm.trans hp') (by simp)
  | reads hp' => exact absurd (hp.symm.trans hp') (by simp)
  | goesOn hp' => exact absurd (hp.symm.trans hp') (by simp)
  | wakes hp' => exact absurd (hp.symm.trans hp') (by simp)

/-- The way from a failure to the next connection. -/
def Released (c : WsClient) : Prop :=
  c.ended = false ∧ (c.place = .failed ∧ (c.wd = .cancelled ∨ c.wd = .off) ∨ c.place = .behind)

/-- How far the next connection is. -/
def remaining (c : WsClient) : ℕ :=
  if c.place = .behind then 1 else if c.wd = .off then 2 else 3

/-- What the client does next. -/
def nextParty (c : WsClient) : Party :=
  if c.place = .behind then .next else if c.wd = .off then .leave else .watchdog

lemma sleeping_reconnect {c : WsClient} (ho : c.ended = false) :
    c.reconnect.1.place = .sleeping := by simp [reconnect, ho]

lemma Released.advance (hasio : asio.Documented) {c : WsClient} (h : Released c) {e : Event}
    (he : Undisturbed e) :
    (c.step asio e).1.place = .sleeping ∨ Released (c.step asio e).1 ∧
      (remaining (c.step asio e).1 < remaining c ∨
        remaining (c.step asio e).1 = remaining c ∧ nextParty (c.step asio e).1 = nextParty c) := by
  have hm := c.moves asio e
  generalize c.step asio e = r at hm
  -- the only steps are those to the next connection
  have hplace : c.place = .failed ∨ c.place = .behind := h.2.imp_left And.left
  have hother : ∀ p, c.place = p → p ≠ .failed → p ≠ .behind → False := by
    rintro _ rfl hf hb
    exact hplace.elim hf hb
  obtain ⟨ho, hcase⟩ := h
  cases hm with
  | nothing => exact .inr ⟨⟨ho, hcase⟩, .inr ⟨rfl, rfl⟩⟩
  | stop => exact absurd rfl he.1
  | deadline => exact absurd rfl he.2.1
  | catches => exact absurd rfl he.2.2
  | ends hp => exact (hother _ hp (by simp) (by simp)).elim
  | begins hp => exact (hother _ hp (by simp) (by simp)).elim
  | proceeds hp => exact (hother _ hp (by simp) (by simp)).elim
  | fails hp =>
    rcases hp with ⟨op, hp⟩ | hp <;> exact (hother _ hp (by simp) (by simp)).elim
  | delivers hp => exact (hother _ hp (by simp) (by simp)).elim
  | stops hp => exact (hother _ hp (by simp) (by simp)).elim
  | reads hp => exact (hother _ hp (by simp) (by simp)).elim
  | wakes hp => exact (hother _ hp (by simp) (by simp)).elim
  | expires hexpires =>
    have hwd := (hasio.expires_iff _).mp hexpires
    rcases hcase with ⟨-, hwd'⟩ | hp
    · exact absurd hwd' (by simp [hwd])
    · exact .inr ⟨⟨ho, .inr hp⟩, .inr (by simp [remaining, nextParty, hp])⟩
  | aborted hp hwd =>
    have hfailed : c.place = .failed := hplace.resolve_right fun hb => by
      simp [hb, Place.polling] at hp
    exact .inr ⟨⟨ho, .inl ⟨hfailed, .inr rfl⟩⟩, .inl (by simp [remaining, hfailed, hwd])⟩
  | interrupts _ _ ho' => exact absurd ho (by simp [ho'])
  | rearms hp hwd =>
    rcases hcase with ⟨-, hwd'⟩ | hb
    · exact absurd hwd' (by simp [hwd])
    · exact absurd hp (by simp [hb, Place.polling])
  | leaves hp hr =>
    rcases (hasio.leaves_iff c).mp ⟨hp, hr⟩ with hp | ⟨hp, hwd⟩
    · exact (hother _ hp (by simp) (by simp)).elim
    · exact .inr ⟨⟨ho, .inr rfl⟩, .inl (by simp [remaining, hp, hwd])⟩
  | goesOn => exact .inl (sleeping_reconnect ho)

/-- The next step can be taken, and it leads on. -/
lemma Released.next (hasio : asio.Documented) {c : WsClient} (h : Released c) :
    Ready asio (nextParty c) c ∧ ∀ e, Event.party e = some (nextParty c) →
      (c.step asio e).1.place = .sleeping ∨ remaining (c.step asio e).1 < remaining c := by
  obtain ⟨ho, ⟨hp, hwd | hwd⟩ | hp⟩ := h
  · refine ⟨by simp [nextParty, Ready, hp, hwd, Place.polling], fun e he => .inr ?_⟩
    cases e <;> simp [nextParty, hp, hwd, Event.party] at he
    simp [WsClient.step, onWatchdog, remaining, hp, hwd, Place.polling]
  · have hleave := (hasio.leaves_iff c).mpr (.inr ⟨hp, hwd⟩)
    refine ⟨by simpa [nextParty, Ready, hp, hwd] using hleave, fun e he => .inr ?_⟩
    cases e <;> simp [nextParty, hp, hwd, Event.party] at he
    rw [WsClient.step, if_pos hleave]
    simp [remaining, hp, hwd]
  · refine ⟨by simp [nextParty, Ready, hp], fun e he => .inl ?_⟩
    cases e <;> simp [nextParty, hp, Event.party] at he
    simp only [WsClient.step, if_pos hp]
    exact sleeping_reconnect ho

/-- A client whose watchdog has been cancelled connects again. -/
lemma Released.sleeps (hasio : asio.Documented) {es : ℕ → Event} (hfair : FairRun asio es) {n : ℕ}
    (hes : ∀ m, n ≤ m → Undisturbed (es m)) (h : Released (states (step asio) {} es n)) :
    ∃ m, n ≤ m ∧ (states (step asio) {} es m).place = .sleeping := by
  refine hfair.leadsTo (P := Released) (Q := fun c => c.place = .sleeping) (r := remaining)
    (k := nextParty) (fun c hc _ => (hc.next hasio).1) ?_ h
  intro m hm hc _
  rcases hc.advance hasio (hes m hm) with hsleeping | ⟨hc', hlt | ⟨heq, hnext⟩⟩
  · exact .inl hsleeping
  · exact .inr ⟨hc', .inl hlt⟩
  · by_cases hparty : Event.party (es m) = some (nextParty (states (step asio) {} es m))
    · rcases (hc.next hasio).2 _ hparty with hsleeping | hlt
      · exact .inl hsleeping
      · exact .inr ⟨hc', .inl hlt⟩
    · exact .inr ⟨hc', .inr ⟨heq, hnext, hparty⟩⟩

/-! ## Results -/

/-- **Stop.** Once `stop` has been called or the deadline has passed, a client hands over one more
frame at most, and returns. -/
theorem returns_after_stop (hasio : asio.Documented) {es : ℕ → Event} (hfair : FairRun asio es)
    {n : ℕ} (h : (states (step asio) {} es n).ended = true) :
    (∃ m, n ≤ m ∧ (states (step asio) {} es m).place = .returned) ∧
      ∀ rest, (frames (run (step asio) (states (step asio) {} es n) rest).2).length ≤ 1 :=
  ⟨returns hasio hfair h, frames_ended h⟩

/-- **The lost cancellation.** After an operation has failed, a client that nobody stops and in
which nothing is thrown connects again if and only if the time of the watchdog had not come when
the operation failed; otherwise it stays in `ioc.run()` for ever. -/
theorem reconnects_iff (hasio : asio.Documented) {es : ℕ → Event} (hfair : FairRun asio es) {n : ℕ}
    (hfail : es n = .fail)
    (hplace : (∃ op, (states (step asio) {} es n).place = .setup op) ∨
      (states (step asio) {} es n).place = .reading)
    (ho : (states (step asio) {} es n).ended = false) (hes : ∀ m, n < m → Undisturbed (es m)) :
    (∃ m, n < m ∧ (states (step asio) {} es m).place = .sleeping) ↔
      (states (step asio) {} es n).wd = .waiting := by
  have hnext : states (step asio) {} es (n + 1) = (states (step asio) {} es n).failed asio := by
    rw [states, hfail]
    rcases hplace with ⟨op, hp⟩ | hp <;> simp [step, hp]
  have harmed := armed_states es n (hplace.imp_right .inl)
  constructor
  · rintro ⟨m, hm, hsleeping⟩
    refine harmed.resolve_right fun hwd => ?_
    have hcaught : Caught (states (step asio) {} es (n + 1)) := by
      rw [hnext]
      exact ⟨ho, rfl, .inr (by simp [failed, hasio.cancel_expired, hwd])⟩
    have hstays := states_stays hcaught (fun l hl hc => hc.advance hasio (hes l (by omega))) m hm
    exact absurd (hstays.2.1.symm.trans hsleeping) (by simp)
  · intro hwd
    have hreleased : Released (states (step asio) {} es (n + 1)) := by
      rw [hnext]
      exact ⟨ho, .inl ⟨rfl, .inl (by simp [failed, hasio.cancel_waiting, hwd])⟩⟩
    obtain ⟨m, hm, hsleeping⟩ :=
      Released.sleeps hasio hfair (fun m hm => hes m (by omega)) hreleased
    exact ⟨m, by omega, hsleeping⟩

/-! ### Two endless runs -/

/-- A stop while the client reads; then nothing else happens. -/
def stoppedRun (n : ℕ) : Event :=
  match n with
  | 0 => .loop
  | 1 | 2 | 3 | 4 => .done
  | 5 => .stop
  | 6 => .expire
  | 7 => .watchdog
  | 8 => .leave
  | 9 => .next
  | _ => .stop

lemma states_stoppedRun (n : ℕ) :
    (states (step boostAsio) {} stoppedRun (n + 10)).place = .returned ∧
      (states (step boostAsio) {} stoppedRun (n + 10)).wd = .off := by
  induction n with
  | zero => exact ⟨rfl, rfl⟩
  | succ n ih => exact ih

lemma fair_stoppedRun : FairRun boostAsio stoppedRun := by
  intro k n hready
  obtain ⟨hp, hwd⟩ := states_stoppedRun n
  have h := hready (n + 10) (by omega)
  cases k <;> simp [Ready, documented_boostAsio.expires_iff, hp, hwd, Place.polling] at h

theorem returns_after_stop_reading :
    let cs := states (step boostAsio) {} stoppedRun
    (∃ m, 6 ≤ m ∧ (cs m).place = .returned) ∧
      ∀ rest, (frames (run (step boostAsio) (cs 6) rest).2).length ≤ 1 :=
  returns_after_stop documented_boostAsio fair_stoppedRun rfl

/-- The time of the watchdog comes before the first operation fails. -/
def lostRun (n : ℕ) : Event :=
  match n with
  | 0 => .loop
  | 1 => .expire
  | 2 => .fail
  | n + 3 => if n % 2 = 0 then .watchdog else .expire

/-- The handler of the watchdog is called and arms the timer again, for ever. -/
lemma states_lostRun (n : ℕ) :
    let c := states (step boostAsio) {} lostRun (2 * n + 3)
    (c.ended = false ∧ c.place = .failed ∧ c.wd = .expired) ∧
      states (step boostAsio) {} lostRun (2 * n + 4) = { c with wd := .waiting } := by
  have hrearm : ∀ c : WsClient, c.ended = false ∧ c.place = .failed ∧ c.wd = .expired →
      (c.step boostAsio .watchdog).1 = { c with wd := .waiting } := by
    rintro c ⟨ho, hp, hwd⟩
    simp [step, onWatchdog, ho, hp, hwd, Place.polling]
  have hcalled : ∀ m, states (step boostAsio) {} lostRun (2 * m + 4) =
      (step boostAsio (states (step boostAsio) {} lostRun (2 * m + 3)) .watchdog).1 := fun m => by
    simp [states, lostRun]
  have hexpires : ∀ m, states (step boostAsio) {} lostRun (2 * (m + 1) + 3) =
      (step boostAsio (states (step boostAsio) {} lostRun (2 * m + 4)) .expire).1 := fun m => by
    rw [show 2 * (m + 1) + 3 = 2 * m + 4 + 1 by omega, states]
    simp [lostRun, Nat.add_mod]
  have hstate : (states (step boostAsio) {} lostRun (2 * n + 3)).ended = false ∧
      (states (step boostAsio) {} lostRun (2 * n + 3)).place = .failed ∧
      (states (step boostAsio) {} lostRun (2 * n + 3)).wd = .expired := by
    induction n with
    | zero => exact ⟨rfl, rfl, rfl⟩
    | succ n ih =>
      rw [hexpires, hcalled, hrearm _ ih]
      exact ⟨ih.1, ih.2.1, rfl⟩
  refine ⟨hstate, ?_⟩
  rw [hcalled]
  exact hrearm _ hstate

lemma fair_lostRun : FairRun boostAsio lostRun := by
  intro k n hready
  obtain ⟨⟨-, hp, hwd⟩, hnext⟩ := states_lostRun n
  have h := hready (2 * n + 3) (by omega)
  have h' := hready (2 * n + 4) (by omega)
  rw [hnext] at h'
  cases k <;> simp [Ready, documented_boostAsio.expires_iff, documented_boostAsio.returns_iff, hp,
    hwd, Place.polling, Place.busy] at h h'

theorem reconnects_iff_lost :
    ¬ ∃ m, 2 < m ∧ (states (step boostAsio) {} lostRun m).place = .sleeping := by
  have hes : ∀ m, 2 < m → Undisturbed (lostRun m) := by
    rintro m hm
    obtain ⟨l, rfl⟩ : ∃ l, m = l + 3 := ⟨m - 3, by omega⟩
    simp only [lostRun]
    split_ifs <;> simp [Undisturbed]
  rw [reconnects_iff documented_boostAsio fair_lostRun rfl (.inl ⟨.resolve, rfl⟩) rfl hes]
  exact (by decide : Watchdog.expired ≠ .waiting)

end WsClient

end LobCapture
