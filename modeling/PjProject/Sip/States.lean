import PjProject.Sip.Sending

set_option autoImplicit false

/-! # The states of a transaction

A transaction goes through its states in the order of the enumeration, and is destroyed once. The
exception is a server transaction that sends its last response again when a retransmission of it is
still to be sent: the callback that resolves the server sends the response twice. When the second
send fails the transaction is terminated, the first one reports success, and the handler goes on
with the state that the response asks for (`resendOk`, `steps_back`).

`After` follows the body of a handler and keeps both this order and, for `Sip/Timeouts.lean`, the
timeout timer.
-/

namespace Sip

open Timer Machine

variable {s s1 s' : Tsx} {c p q : Prop} {st : State}

/-! ## What a handler keeps -/

/-- The state `a` may come after `b`. -/
def InOrder (a b : State) : Prop := b.rank ≤ a.rank ∧ b ≠ .destroyed

/-- The states since the transaction was created are in order. -/
def Sorted (s : Tsx) : Prop := s.path.Pairwise InOrder

/-- The states that the timeout timer has to end. -/
def needsTimer (role : Role) (invite : Bool) : State → Prop
  | .calling | .completed | .confirmed | .terminated => True
  | .proceeding => role = .uac ∧ invite = false
  | _ => False

/-- The timeout timer is scheduled where it is needed; for a terminated transaction it is not the
timer of a transport error. -/
structure Timed (s : Tsx) : Prop where
  running : needsTimer s.role s.invite s.state → s.timeoutTimer.running = true
  terminated : s.state = .terminated → s.timeoutTimer.id = timeoutTimerId

/-- From `s` a handler leads to `s'`. The new states are in order if `p` holds, the timeout timer
stays scheduled if `q` holds, and CONFIRMED is among the new states only if `c` holds. -/
structure After (c p q : Prop) (s s' : Tsx) : Prop where
  role : s'.role = s.role
  invite : s'.invite = s.invite
  sound : Sound s'
  path : ∃ new, s'.path = new ++ s.path ∧ (.confirmed ∈ new → c)
  sorted : p → Sorted s → Sorted s'
  timed : q → Timed s → Timed s'

theorem After.trans (h : After c p q s s1) (h' : After c p q s1 s') : After c p q s s' := by
  rcases h.path with ⟨new, hnew, hc⟩
  rcases h'.path with ⟨new', hnew', hc'⟩
  refine ⟨h'.role.trans h.role, h'.invite.trans h.invite, h'.sound, ⟨new' ++ new, ?_, fun hmem => ?_⟩,
    fun hp hs => h'.sorted hp (h.sorted hp hs), fun hq ht => h'.timed hq (h.timed hq ht)⟩
  · rw [hnew', hnew, List.append_assoc]
  · rcases List.mem_append.mp hmem with hmem | hmem
    · exact hc' hmem
    · exact hc hmem

theorem Base.after (h : Base s s') (ht : q → Timed s → Timed s') : After c p q s s' := by
  refine ⟨h.role, h.invite, h.sound, ⟨[], h.path, nofun⟩, fun _ hs => ?_, ht⟩
  unfold Sorted
  rw [h.path]
  exact hs

theorem Timed.frame (h : Timed s) (hb : Base s s') (ht : s'.timeoutTimer = s.timeoutTimer) :
    Timed s' := by
  refine ⟨?_, ?_⟩
  · rw [hb.role, hb.invite, hb.state, ht]
    exact h.running
  · rw [hb.state, ht]
    exact h.terminated

theorem After.refl (h : Sound s) : After c p q s s := (Base.refl h).after fun _ ht => ht

theorem Stay.after (h : Stay s s') (hlt : s.state.rank < State.terminated.rank) :
    After c p q s s' := by
  refine h.base.after fun _ ht => ⟨fun hn => ?_, fun hst => ?_⟩
  · rw [h.base.role, h.base.invite, h.base.state] at hn
    exact h.timer (ht.running hn)
  · rw [← h.base.state, hst] at hlt
    exact absurd hlt (Nat.lt_irrefl _)

/-- A state that comes after the current one comes after all before. -/
theorem Sorted.cons (hs : Sorted s) (h : Sound s) (hle : s.state.rank ≤ st.rank)
    (hne : s.state ≠ .destroyed) : (st :: s.path).Pairwise InOrder := by
  rcases h.path with ⟨l, hl⟩
  refine List.Pairwise.cons (fun b hb => ?_) hs
  unfold Sorted at hs
  rw [hl] at hb hs
  rcases List.mem_cons.mp hb with rfl | hb
  · exact ⟨hle, hne⟩
  · have hb' := (List.pairwise_cons.mp hs).1 b hb
    exact ⟨hb'.1.trans hle, hb'.2⟩

theorem Term.after (h : Term s s') (h0 : Sound s) (hne : s.state ≠ .destroyed) :
    After c p q s s' := by
  have hle : s.state.rank ≤ State.terminated.rank := by
    revert hne
    cases s.state <;> decide
  refine ⟨h.role, h.invite, h.sound, ⟨[.terminated], h.path, fun hmem => absurd hmem (by decide)⟩, fun _ hs => ?_,
    fun _ _ => ⟨fun _ => ?_, fun _ => ?_⟩⟩
  · unfold Sorted
    rw [h.path]
    exact hs.cons h0 hle hne
  · rw [h.timer]
  · rw [h.timer]

/-- A new state before TERMINATED, after changes of timers and flags. -/
theorem Entered.after (h : Entered s1 st s') (h0 : Sound s) (hb : Base s s1)
    (hst : st.rank < State.terminated.rank) (hp : p → s.state.rank ≤ st.rank)
    (hc : st = .confirmed → c)
    (ht : q → Timed s → needsTimer s.role s.invite st → s1.timeoutTimer.running = true) :
    After c p q s s' := by
  have hne : p → s.state ≠ .destroyed := by
    intro h1 heq
    have hle := hp h1
    rw [heq] at hle
    exact absurd (hle.trans_lt hst) (by decide)
  rcases h.cases with ⟨hst', hpath, htm⟩ | ⟨hst', hpath, htm⟩
  · refine ⟨h.role.trans hb.role, h.invite.trans hb.invite, h.sound, ⟨[st], ?_, fun hmem => ?_⟩,
      fun h1 hs => ?_, fun h1 hs => ⟨fun hn => ?_, fun heq => ?_⟩⟩
    · rw [hpath, hb.path]
      rfl
    · exact hc (List.mem_singleton.mp hmem).symm
    · unfold Sorted
      rw [hpath, hb.path]
      exact hs.cons h0 (hp h1) (hne h1)
    · rw [hst', h.role, h.invite, hb.role, hb.invite] at hn
      rw [htm]
      exact ht h1 hs hn
    · rw [← hst', heq] at hst
      exact absurd hst (Nat.lt_irrefl _)
  · refine ⟨h.role.trans hb.role, h.invite.trans hb.invite, h.sound,
      ⟨[.terminated, st], ?_, fun hmem => ?_⟩, fun h1 hs => ?_,
      fun _ _ => ⟨fun _ => ?_, fun _ => ?_⟩⟩
    · rw [hpath, hb.path]
      rfl
    · rcases List.mem_cons.mp hmem with hmem | hmem
      · cases hmem
      · exact hc (List.mem_singleton.mp hmem).symm
    · unfold Sorted
      rw [hpath, hb.path]
      have hs1 : (st :: s.path).Pairwise InOrder := hs.cons h0 (hp h1) (hne h1)
      refine List.Pairwise.cons (fun b hb' => ?_) hs1
      rcases List.mem_cons.mp hb' with rfl | hb'
      · refine ⟨hst.le, fun heq => ?_⟩
        rw [heq] at hst
        exact absurd hst (by decide)
      · have hb'' := (List.pairwise_cons.mp hs1).1 b hb'
        exact ⟨hb''.1.trans hst.le, hb''.2⟩
    · rw [htm]
    · rw [htm]

/-- What happens after `tsx_set_state` to anything but the timeout timer. -/
theorem Entered.frame (h : Entered s st s1) (hb : Base s1 s')
    (ht : s'.timeoutTimer = s1.timeoutTimer) : Entered s st s' := by
  refine ⟨hb.role.trans h.role, hb.invite.trans h.invite, hb.sound, ?_⟩
  rw [hb.state, hb.path, ht]
  exact h.cases

/-- The timeout timer is set anew after `tsx_set_state`. -/
theorem Entered.reset (h : Entered s st s1) (hb : Base s1 s')
    (ht : s'.timeoutTimer = ⟨timeoutTimerId, true⟩) :
    Entered (s.resetTimeout timeoutTimerId) st s' := by
  refine ⟨hb.role.trans h.role, hb.invite.trans h.invite, hb.sound, ?_⟩
  rw [hb.state, hb.path, ht]
  rcases h.cases with ⟨hst, hp, -⟩ | ⟨hst, hp, -⟩
  · exact Or.inl ⟨hst, hp, rfl⟩
  · exact Or.inr ⟨hst, hp, rfl⟩

/-! ## Client transactions -/

/-- The change of anything but the timeout timer. -/
theorem Base.setState_after (env : Env) (hb : Base s s1) (h0 : Sound s) (st : State)
    (hst : st.rank < State.terminated.rank) (ha : allowed s.role s.invite st)
    (hlt : CanEnter s1) (hp : p → s.state.rank ≤ st.rank) (hc : st = .confirmed → c)
    (ht : q → Timed s → needsTimer s.role s.invite st → s1.timeoutTimer.running = true) :
    After c p q s (tsxSetState env s1 st true) := by
  refine (entered_setState env hb.sound true hst ?_ hlt).after h0 hb hst hp hc ht
  rw [hb.role, hb.invite]
  exact ha

theorem Base.canEnter (hb : Base s s1) (hlt : s.state.rank < State.terminated.rank) :
    CanEnter s1 := by
  refine Or.inl ?_
  rw [hb.state]
  exact hlt

/-- A client transaction has nothing left to send when it resolves its server. -/
theorem Sound.noStale (h : Sound s) (hr : s.role = .uac)
    (hlt : s.state.rank < State.terminated.rank) : NoStale s := by
  rintro ⟨hps, hpt, hrs, -⟩
  rcases h.clientSend hr hlt hps with h1 | h1
  · rw [hrs] at h1
    cases h1
  · rw [hpt] at h1
    cases h1

/-- `tsx_send_msg` as a part of a handler. -/
theorem Sent.after {env : Env} {r : Tsx × Nat} (h : Sent env s r) (h0 : Sound s)
    (hlt : s.state.rank < State.terminated.rank) : After c p q s r.1 := by
  rcases h.cases with h1 | h1
  · exact h1.after hlt
  · refine h1.1.after h0 fun heq => ?_
    rw [heq] at hlt
    exact absurd hlt (by decide)

theorem after_retransmit (env : Env) (h : Sound s) (hlt : s.state.rank < State.terminated.rank)
    (resched : Bool) : After c p q s (tsxRetransmit env s resched).1 := by
  rcases tsxRetransmit_cases env h hlt resched with h1 | h1
  · exact h1.after hlt
  · refine h1.after h fun heq => ?_
    rw [heq] at hlt
    exact absurd hlt (by decide)

theorem after_null (env : Env) (h : Sound s) (hst : s.state = .null) (event : Event) :
    After c p q s (tsxOnStateNull env s event).1 := by
  have hlt : s.state.rank < State.terminated.rank := by
    rw [hst]
    decide
  unfold tsxOnStateNull
  split
  · rename_i hr
    refine (Base.refl h).setState_after env h .trying (by decide) ?_ (Or.inl hlt) (fun _ => ?_)
      nofun fun _ _ => False.elim
    · rw [hr]
      exact ⟨nofun, nofun⟩
    · rw [hst]
      decide
  · rename_i hr
    split
    · rename_i m
      have hb : Base s { s with lastTx := some m } := h.base rfl
      have hsent := tsxSendMsg_spec env hb.sound hlt m
      dsimp only
      generalize tsxSendMsg env { s with lastTx := some m } (some m) = r at hsent ⊢
      split
      · exact (hb.after fun _ ht => ht.frame hb rfl).trans (hsent.after hb.sound hlt)
      · rename_i hok
        have hok : r.2 = 0 := not_not.mp hok
        have hs : Stay { s with lastTx := some m } r.1 :=
          hsent.ok hok (hb.sound.noStale hr hlt)
        -- The timeout timer is set before the retransmit timer.
        have h2 : Base s (r.1.resetTimeout timeoutTimerId) := hb.trans (hs.base.trans
          (hs.base.sound.base rfl))
        have h3 : Base s { r.1.resetTimeout timeoutTimerId with retransmitCount := 0 } := h2.trans
          (h2.sound.base rfl)
        have ha : allowed s.role s.invite .calling := by
          rw [hr]
          exact ⟨nofun, nofun⟩
        have hle : s.state.rank ≤ State.calling.rank := by
          rw [hst]
          decide
        split
        · exact h2.setState_after env h .calling (by decide) ha (h2.canEnter hlt) (fun _ => hle) nofun
            fun _ _ _ => rfl
        · have h4 := h3.sound.startRetransmit
          exact (h3.trans h4.base).setState_after env h .calling (by decide) ha
            ((h3.trans h4.base).canEnter hlt) (fun _ => hle) nofun fun _ _ _ => h4.timer rfl
    · exact After.refl h

/-- A final response completes a client transaction. -/
theorem after_completeUac (env : Env) (hb : Base s s1) (h : Sound s) (hr : s.role = .uac)
    (hle : s.state.rank ≤ State.completed.rank) (code : Code) (ack : Option Msg) :
    After c p q s (completeUac env s1 code ack) := by
  have hlt : s.state.rank < State.terminated.rank := hle.trans_lt (by decide)
  have hb0 : Base s1 (s1.report code ack) := hb.sound.base rfl
  have hent : Entered s1 .completed (tsxSetState env (s1.report code ack) .completed true) := by
    have hent0 : Entered (s1.report code ack) .completed
        (tsxSetState env (s1.report code ack) .completed true) := by
      refine entered_setState env hb0.sound true (by decide) ?_ ((hb.trans hb0).canEnter hlt)
      rw [hb0.role, hb.role, hr]
      exact ⟨nofun, nofun⟩
    exact ⟨hent0.role, hent0.invite, hent0.sound, hent0.cases⟩
  have hb1 : Base s (s1.resetTimeout timeoutTimerId) := hb.trans (hb.sound.base rfl)
  unfold completeUac
  dsimp only
  generalize tsxSetState env (s1.report code ack) .completed true = s2 at hent ⊢
  have hs2 := hent.sound
  split
  · have hb2 : Base s2 (Tsx.resetTimeout { s2 with lastTx := ack } timeoutTimerId) := hs2.base rfl
    exact (hent.reset hb2 rfl).after h hb1 (by decide) (fun _ => hle) nofun fun _ _ _ => rfl
  · have hb2 : Base s2 (s2.resetTimeout timeoutTimerId) := hs2.base rfl
    exact (hent.reset hb2 rfl).after h hb1 (by decide) (fun _ => hle) nofun fun _ _ _ => rfl

/-- The ACK for a failure response to an INVITE in CALLING can be made, and is on its way. -/
def ackOk (env : Env) (s : Tsx) (code : Code) (ack : Option Msg) : Prop :=
  s.state = .calling → s.invite = true → 300 ≤ code.val →
    ack.isSome = true ∧ s.resolutionErrs env = false

/-- Without the timeout timer, an INVITE client transaction may be in PROCEEDING. -/
theorem timed_proceeding (hr : s.role = .uac) (hi : s.invite = true) (hst : s.state = .proceeding) :
    Timed s := by
  refine ⟨fun hn => ?_, fun hst' => ?_⟩
  · rw [hst, hr, hi] at hn
    cases hn.2
  · rw [hst] at hst'
    cases hst'

/-- A response, when the timers have been stopped as `tsx_on_state_calling` does. -/
theorem after_proceedingUacResponse (env : Env) (hb : Base s s1) (h : Sound s) (hr : s.role = .uac)
    (hst : s.state = .calling ∨ s.state = .proceeding) (code : Code) (ack : Option Msg)
    (hres : s1.resolutionErrs env = s.resolutionErrs env) (hack : q → ackOk env s code ack)
    (ht : code.val / 100 = 1 → s.invite = false →
      s.timeoutTimer.running = true → s1.timeoutTimer.running = true) :
    After c p q s (proceedingUacResponse env s1 code ack).1 := by
  have hle : s.state.rank ≤ State.proceeding.rank := by
    rcases hst with hst | hst
    · rw [hst]
      decide
    · rw [hst]
  have hlt : s.state.rank < State.terminated.rank := hle.trans_lt (by decide)
  have hne : s.state ≠ .destroyed := by
    intro heq
    rw [heq] at hlt
    exact absurd hlt (by decide)
  have hallowed : ∀ st, st ≠ .trying → st ≠ .confirmed → allowed s.role s.invite st := by
    intro st h1 h2
    rw [hr]
    exact ⟨h1, h2⟩
  unfold proceedingUacResponse
  dsimp only
  split
  · rename_i hcode
    have hb1 : Base s { s1 with statusCode := code.val } := hb.trans (hb.sound.base rfl)
    refine hb1.setState_after env h .proceeding (by decide) (hallowed _ nofun nofun)
      (hb1.canEnter hlt) (fun _ => hle) nofun fun _ htm hn => ht hcode hn.2 (htm.running ?_)
    -- The timer was running before, in CALLING as in PROCEEDING.
    rcases hst with hst | hst
    · rw [hst]
      exact trivial
    · rw [hst]
      exact hn
  · split
    · have hb1 : Base s (Tsx.report (Tsx.cancelTimeout { s1 with statusCode := code.val }) code
          none) := hb.trans (hb.sound.base rfl)
      split
      · exact (hb1.term (term_setState env hb1.sound true)).after h hne
      · have hb2 : Base s (Tsx.cancelRetransmit (Tsx.scheduleTimeout (Tsx.report (Tsx.cancelTimeout
            { s1 with statusCode := code.val }) code none) timeoutTimerId)) := hb.trans
          (hb.sound.base rfl)
        exact hb2.setState_after env h .completed (by decide) (hallowed _ nofun nofun)
          (hb2.canEnter hlt) (fun _ => hle.trans (by decide)) nofun fun _ _ _ => rfl
    · rename_i h1 h2
      have hcode : 300 ≤ code.val := by
        have := code.property
        omega
      have hb1 : Base s (Tsx.cancelTimeout (Tsx.cancelRetransmit
          { s1 with statusCode := code.val })) := hb.trans (hb.sound.base rfl)
      have hlt1 : s1.state.rank < State.terminated.rank := by
        rw [hb.state]
        exact hlt
      split
      · rename_i hi
        have hi : s.invite = true := hb.invite.symm.trans hi
        -- The timer has been cancelled, which PROCEEDING allows.
        have hstuck : ∀ s2, Base s s2 → (ackOk env s code ack → s.state ≠ .calling) →
            After c p q s s2 := by
          intro s2 hb2 hno
          refine hb2.after fun hq _ => timed_proceeding (hb2.role.trans hr) (hb2.invite.trans hi) ?_
          rw [hb2.state]
          exact hst.resolve_left (hno (hack hq))
        split
        · exact hstuck _ hb1 fun ha hcall => absurd (ha hcall hi hcode).1 Bool.false_ne_true
        · rename_i m
          have hsent := tsxSendMsg_spec env hb1.sound hlt1 m
          have hres1 : (Tsx.cancelTimeout (Tsx.cancelRetransmit
              { s1 with statusCode := code.val })).resolutionErrs env = s.resolutionErrs env := hres
          have hnostale := hb1.sound.noStale (hb1.role.trans hr) hlt1
          generalize Tsx.cancelTimeout (Tsx.cancelRetransmit
            { s1 with statusCode := code.val }) = s2 at hb1 hsent hres1 hnostale ⊢
          generalize tsxSendMsg env s2 (some m) = r at hsent ⊢
          split
          · rename_i herr
            rcases hsent.cases with h3 | ⟨h3, -⟩
            · refine hstuck _ (hb1.trans h3.base) fun ha hcall => ?_
              rcases hsent.err herr with h4 | h4
              · have hst4 := h4.state
                rw [h3.base.state, hb1.state, hcall] at hst4
                cases hst4
              · rw [hres1, (ha hcall hi hcode).2] at h4
                cases h4
            · exact (hb1.term h3).after h hne
          · rename_i hok
            have h3 := hsent.ok (not_not.mp hok) hnostale
            exact after_completeUac env (hb1.trans h3.base) h hr (hle.trans (by decide)) code _
      · exact after_completeUac env hb1 h hr (hle.trans (by decide)) code ack

theorem after_proceedingUac (env : Env) (h : Sound s) (hr : s.role = .uac)
    (hst : s.state = .proceeding) (event : Event) (hto : event ≠ .timeout)
    (hack : q → ∀ code ack, event = .rxResponse code ack → ackOk env s code ack) :
    After c p q s (tsxOnStateProceedingUac env s event).1 := by
  have hlt : s.state.rank < State.terminated.rank := by
    rw [hst]
    decide
  unfold tsxOnStateProceedingUac
  split
  · rename_i code ack
    exact after_proceedingUacResponse env (Base.refl h) h hr (Or.inr hst) code ack rfl
      (fun hq => hack hq code ack rfl) fun _ _ => id
  · exact after_retransmit env h hlt true
  · exact absurd rfl hto
  · exact After.refl h

/-- What `tsx_on_state_calling` does to the timers leaves the sending of messages as it is. -/
theorem base_stopForResponse (env : Env) (h : Sound s) (code : Code) :
    Base s (s.stopForResponse code) ∧
      (s.stopForResponse code).resolutionErrs env = s.resolutionErrs env ∧
      (code.val / 100 = 1 → s.invite = false →
        s.timeoutTimer.running = true → (s.stopForResponse code).timeoutTimer.running = true) := by
  unfold Tsx.stopForResponse
  dsimp only
  split
  · rename_i hcode
    have hno : ¬ code.val / 100 = 1 := by omega
    split
    · exact ⟨h.base rfl, rfl,
        fun h1 => absurd h1 hno⟩
    · exact ⟨h.base rfl, rfl,
        fun h1 => absurd h1 hno⟩
  · split
    · rename_i hi
      refine ⟨h.base rfl, rfl,
        fun _ hi' => ?_⟩
      have hi : s.invite = true := hi
      rw [hi'] at hi
      cases hi
    · split
      · exact ⟨h.base rfl, rfl,
          fun _ _ => id⟩
      · exact ⟨h.base rfl, rfl,
          fun _ _ => id⟩

theorem after_calling (env : Env) (h : Sound s) (hr : s.role = .uac) (hst : s.state = .calling)
    (event : Event) (hto : event ≠ .timeout)
    (hack : q → ∀ code ack, event = .rxResponse code ack → ackOk env s code ack) :
    After c p q s (tsxOnStateCalling env s event).1 := by
  have hlt : s.state.rank < State.terminated.rank := by
    rw [hst]
    decide
  unfold tsxOnStateCalling
  split
  · exact after_retransmit env h hlt true
  · exact absurd rfl hto
  · rename_i code ack
    rcases base_stopForResponse env h code with ⟨hb, hres, ht⟩
    have hb1 : Base s { s.stopForResponse code with pendingResched := false } := hb.trans
      (hb.sound.base rfl)
    exact after_proceedingUacResponse env hb1 h hr (Or.inl hst) code ack hres
      (fun hq => hack hq code ack rfl) ht
  · exact After.refl h

theorem after_completedUac (env : Env) (h : Sound s) (hst : s.state = .completed) (event : Event)
    (hto : event ≠ .timeout) : After c p q s (tsxOnStateCompletedUac env s event).1 := by
  have hlt : s.state.rank < State.terminated.rank := by
    rw [hst]
    decide
  unfold tsxOnStateCompletedUac
  split
  · exact absurd rfl hto
  · exact After.refl h
  · split
    · exact after_retransmit env h hlt false
    · exact After.refl h
  · exact After.refl h
  · exact After.refl h

/-! ## Server transactions -/

theorem provisionalSent_entered (env : Env) (h : Sound s) (hr : s.role = .uas) (hc : CanEnter s)
    (m : Msg) :
    Entered { s with lastTx := some m } .proceeding (provisionalSent env s m) := by
  have h1 : Sound { s with lastTx := some m } :=
    h.frame rfl rfl rfl rfl rfl rfl rfl rfl rfl rfl rfl
  have hent : Entered { s with lastTx := some m } .proceeding
      (tsxSetState env { s with lastTx := some m } .proceeding true) := by
    refine entered_setState env h1 true (by decide) ?_ hc
    show allowed s.role s.invite .proceeding
    rw [hr]
    exact ⟨nofun, nofun⟩
  unfold provisionalSent
  dsimp only
  generalize tsxSetState env { s with lastTx := some m } .proceeding true = s2 at hent ⊢
  split
  · have hb : Base s2 { s2.cancelRetransmit with retransmitCount := 0 } := hent.sound.base rfl
    refine hent.frame (hb.trans hb.sound.startRetransmit.base) ?_
    unfold Tsx.startRetransmit
    split <;> rfl
  · exact hent

/-- The timeout timer is set for COMPLETED, which may leave the retransmit timer running. -/
theorem after_setCompleted (env : Env) (hb : Base s s1) (h : Sound s) (hr : s.role = .uas)
    (hc : CanEnter s1) (hp : p → s.state.rank ≤ State.completed.rank) (ht : s1.timeoutTimer.running = true) :
    After c p q s (tsxSetState env s1 .completed true) := by
  refine hb.setState_after env h .completed (by decide) ?_ hc hp nofun fun _ _ _ => ht
  rw [hr]
  exact ⟨nofun, nofun⟩

theorem after_successSent (env : Env) (h : Sound s) (hr : s.role = .uas) (hc : CanEnter s)
    (hp : p → s.state.rank ≤ State.completed.rank) (hne : s.state ≠ .destroyed) (m : Msg) :
    After c p q s (successSent env s m) := by
  have hb : Base s s.cancelRetransmit := h.base rfl
  unfold successSent
  dsimp only
  split
  · exact (hb.term (term_setState env hb.sound true)).after h hne
  · have hset : ∀ s2, Base s s2 → CanEnter s2 →
        After c p q s (tsxSetState env
          (Tsx.resetTimeout { s2 with lastTx := some m } timeoutTimerId) .completed true) := by
      intro s2 hb2 hc2
      have hb3 : Base s (Tsx.resetTimeout { s2 with lastTx := some m } timeoutTimerId) := hb2.trans
        (hb2.sound.base rfl)
      exact after_setCompleted env hb3 h hr hc2 hp rfl
    split
    · have hb2 : Base s { s.cancelRetransmit with retransmitCount := 0 } := hb.trans
        (hb.sound.base rfl)
      have hc2 : CanEnter { s.cancelRetransmit with retransmitCount := 0 } := hc
      exact hset _ (hb2.trans hb2.sound.startRetransmit.base) hc2.startRetransmit
    · exact hset _ hb hc

theorem after_failureSent (env : Env) (h : Sound s) (hr : s.role = .uas) (hc : CanEnter s)
    (hp : p → s.state.rank ≤ State.completed.rank) (m : Msg) :
    After c p q s (failureSent env s m) := by
  have hb : Base s (Tsx.resetTimeout { s.cancelRetransmit with lastTx := some m }
      timeoutTimerId) := h.base rfl
  unfold failureSent
  dsimp only
  split
  · have hb2 : Base s { Tsx.resetTimeout { s.cancelRetransmit with lastTx := some m }
        timeoutTimerId with retransmitCount := 0 } := hb.trans (hb.sound.base rfl)
    have hr2 := hb2.sound.startRetransmit
    have hc2 : CanEnter { Tsx.resetTimeout { s.cancelRetransmit with lastTx := some m }
        timeoutTimerId with retransmitCount := 0 } := hc
    exact after_setCompleted env (hb2.trans hr2.base) h hr hc2.startRetransmit hp (hr2.timer rfl)
  · exact after_setCompleted env hb h hr hc hp rfl

/-- The message is the last response, of which a retransmission is still to be sent, while no
transport is pending and the server may have to be resolved. -/
def stale (s : Tsx) (m : Msg) : Bool :=
  s.pendingSend && !s.pendingTransport && !s.resolvedServer && decide (s.lastTx = some m)

theorem after_proceedingUasTx (env : Env) (h : Sound s) (hr : s.role = .uas)
    (hst : s.state = .trying ∨ s.state = .proceeding) (m : Msg) (hp : p → stale s m = false) :
    After c p q s (proceedingUasTx env s m).1 := by
  have hle : s.state.rank ≤ State.proceeding.rank := by
    rcases hst with hst | hst
    · rw [hst]
      decide
    · rw [hst]
  unfold proceedingUasTx
  split
  · exact After.refl h
  · rename_i code _
    dsimp only
    have h1 : ∀ s1, s1 = (if s.lastTx = some m then { s with statusCode := code.val }
        else { s with statusCode := code.val, lastTx := none }) →
        Base s s1 ∧ s1.timeoutTimer = s.timeoutTimer ∧ (p → NoStale s1) := by
      intro s1 hs1
      split at hs1
      · rename_i hl
        subst hs1
        refine ⟨h.base rfl, rfl,
          fun hpp => ?_⟩
        have hno := hp hpp
        unfold stale at hno
        rintro ⟨hps, hpt, hrs, -⟩
        have hps : s.pendingSend = true := hps
        have hpt : s.pendingTransport = false := hpt
        have hrs : s.resolvedServer = false := hrs
        rw [hps, hpt, hrs, decide_eq_true hl] at hno
        cases hno
      · subst hs1
        refine ⟨h.base rfl, rfl,
          fun _ => ?_⟩
        rintro ⟨-, -, -, hl⟩
        cases hl
    obtain ⟨hb1, ht1, hno1⟩ := h1 _ rfl
    generalize (if s.lastTx = some m then { s with statusCode := code.val }
      else { s with statusCode := code.val, lastTx := none }) = s1 at hb1 ht1 hno1 ⊢
    have hlt1 : s1.state.rank < State.terminated.rank := by
      rw [hb1.state]
      exact hle.trans_lt (by decide)
    have hsent := tsxSendMsg_spec env hb1.sound hlt1 m
    generalize tsxSendMsg env s1 (some m) = r at hsent ⊢
    have hafter : After c p q s r.1 :=
      (hb1.after fun _ ht => ht.frame hb1 ht1).trans (hsent.after hb1.sound hlt1)
    split
    · exact hafter
    · rename_i hok
      -- The handler goes on; only without `stale` is it sure that the transaction has not ended.
      have hle2 : p → r.1.state.rank ≤ State.proceeding.rank := by
        intro hpp
        rw [(hsent.ok (not_not.mp hok) (hno1 hpp)).base.state, hb1.state]
        exact hle
      have hne : r.1.state ≠ .destroyed := by
        rcases hsent.cases with h2 | h2
        · rw [h2.base.state]
          intro heq
          rw [heq] at hlt1
          exact absurd hlt1 (by decide)
        · rw [h2.1.state]
          nofun
      have hc2 : CanEnter r.1 := by
        rcases hsent.cases with h2 | h2
        · exact h2.base.canEnter hlt1
        · exact Or.inr ⟨h2.2, h2.1.pendingTx⟩
      have hr2 : r.1.role = .uas := hafter.role.trans hr
      have hs2 : Sound r.1 := hafter.sound
      have hle3 : p → r.1.state.rank ≤ State.completed.rank :=
        fun hpp => (hle2 hpp).trans (by decide)
      split
      · have hb2 : Base r.1 { r.1 with lastTx := some m } := hs2.base rfl
        refine hafter.trans ((provisionalSent_entered env hs2 hr2 hc2 m).after hs2 hb2 (by decide) hle2
          nofun fun _ _ hn => ?_)
        have hrole : r.1.role = .uac := hn.1
        rw [hr2] at hrole
        cases hrole
      · split
        · exact hafter.trans (after_successSent env hs2 hr2 hc2 hle3 hne m)
        · split
          · exact hafter.trans (after_failureSent env hs2 hr2 hc2 hle3 m)
          · exact hafter

/-- A message of the transaction user is not stale. -/
def txOk (s : Tsx) (event : Event) : Prop := ∀ m, event = .tx m → stale s m = false

theorem after_proceedingUas (env : Env) (h : Sound s) (hr : s.role = .uas)
    (hst : s.state = .trying ∨ s.state = .proceeding) (event : Event) (hto : event ≠ .timeout)
    (hp : p → txOk s event) : After c p q s (tsxOnStateProceedingUas env s event).1 := by
  have hlt : s.state.rank < State.terminated.rank := by
    rcases hst with hst | hst
    · rw [hst]
      decide
    · rw [hst]
      decide
  unfold tsxOnStateProceedingUas
  split
  · rename_i m
    exact after_proceedingUasTx env h hr hst m fun hpp => hp hpp m rfl
  · exact after_retransmit env h hlt true
  · exact absurd rfl hto
  · split
    · exact After.refl h
    · split
      · rename_i hpt
        exact (h.deferSend hpt).after hlt
      · cases hl : s.lastTx with
        | none => exact After.refl h
        | some m => exact (tsxSendMsg_spec env h hlt m).after h hlt

theorem after_trying (env : Env) (h : Sound s) (hr : s.role = .uas) (hst : s.state = .trying)
    (event : Event) (hp : p → txOk s event) : After c p q s (tsxOnStateTrying env s event).1 := by
  unfold tsxOnStateTrying
  split
  · rename_i m
    have h1 : After c p q s (tsxOnStateProceedingUas env s (.tx m)).1 :=
      after_proceedingUas env h hr (Or.inl hst) (.tx m) nofun hp
    dsimp only
    generalize tsxOnStateProceedingUas env s (.tx m) = r at h1 ⊢
    have hr1 : r.1.role = .uas := h1.role.trans hr
    split
    · rename_i hgo
      refine h1.trans ((Base.refl h1.sound).setState_after env h1.sound .proceeding (by decide) ?_
        (Or.inl ?_) (fun _ => ?_) nofun fun _ _ hn => ?_)
      · rw [hr1]
        exact ⟨nofun, nofun⟩
      · rw [hgo.2]
        decide
      · rw [hgo.2]
        decide
      · have hrole : r.1.role = .uac := hn.1
        rw [hr1] at hrole
        cases hrole
    · exact h1
  · exact After.refl h

/-- CONFIRMED is entered here. -/
theorem after_completedUas (env : Env) (h : Sound s) (hr : s.role = .uas)
    (hst : s.state = .completed) (event : Event) (hto : event ≠ .timeout)
    (hc : event = .rxRequest true → s.invite = true → c) :
    After c p q s (tsxOnStateCompletedUas env s event).1 := by
  have hlt : s.state.rank < State.terminated.rank := by
    rw [hst]
    decide
  unfold tsxOnStateCompletedUas
  split
  · exact after_retransmit env h hlt false
  · split
    · rename_i hi
      have hb : Base s (Tsx.resetTimeout { s.cancelRetransmit with pendingResched := false }
          timeoutTimerId) := h.base rfl
      refine hb.setState_after env h .confirmed (by decide) ?_ (hb.canEnter hlt) (fun _ => ?_)
        (fun _ => hc rfl hi) fun _ _ _ => rfl
      · rw [hr]
        exact ⟨nofun, fun _ => hi⟩
      · rw [hst]
        decide
    · exact After.refl h
  · exact After.refl h
  · exact after_retransmit env h hlt true
  · exact absurd rfl hto
  · exact After.refl h

theorem after_destroyed (env : Env) (hb : Base s s1) (h : Sound s) (hst : s.state = .terminated) :
    After c p q s (tsxSetState env s1 .destroyed true) := by
  have hd := destroyed_setState env hb.sound (by rw [hb.state, hst]) true
  have hpath : (tsxSetState env s1 .destroyed true).path = [.destroyed] ++ s.path := by
    rw [hd.path, ← hb.path]
    rfl
  refine ⟨hd.role.trans hb.role, hd.invite.trans hb.invite, hd.sound,
    ⟨[.destroyed], hpath, fun hmem => ?_⟩, fun _ hs => ?_,
    fun _ _ => ⟨fun hn => ?_, fun hst' => ?_⟩⟩
  · cases List.mem_singleton.mp hmem
  · unfold Sorted
    rw [hpath]
    refine hs.cons h ?_ ?_
    · rw [hst]
      decide
    · rw [hst]
      nofun
  · rw [hd.state] at hn
    exact hn.elim
  · rw [hd.state] at hst'
    cases hst'

theorem after_terminated (env : Env) (h : Sound s) (hst : s.state = .terminated) (event : Event)
    (hto : event ≠ .timeout) : After c p q s (tsxOnStateTerminated env s event).1 := by
  unfold tsxOnStateTerminated
  split
  · exact after_destroyed env (Base.refl h) h hst
  · exact absurd rfl hto
  · exact After.refl h

theorem after_confirmed (env : Env) (h : Sound s) (event : Event) (hto : event ≠ .timeout) :
    After c p q s (tsxOnStateConfirmed env s event).1 := by
  cases event with
  | timeout => exact absurd rfl hto
  | _ => exact After.refl h

/-! ## Events -/

theorem dispatch_of_handler {env : Env} {f : Tsx → Event → Tsx × Nat}
    (hf : stateHandler env s.role s.state = some f) (event : Event) :
    dispatch env s event = .ok (f s event).1 := by
  unfold dispatch
  rw [hf]

theorem Sound.allowed_state (h : Sound s) : allowed s.role s.invite s.state := by
  rcases h.path with ⟨l, hl⟩
  refine h.states _ ?_
  rw [hl]
  exact List.mem_cons_self

/-- An event other than a timeout. -/
theorem after_dispatch (env : Env) (h : Sound s) (event : Event) (hto : event ≠ .timeout)
    (hc : event = .rxRequest true → s.role = .uas → s.invite = true → s.state = .completed → c)
    (hp : p → s.role = .uas → s.state = .trying ∨ s.state = .proceeding → txOk s event)
    (hack : q → ∀ code ack, event = .rxResponse code ack → s.role = .uac → ackOk env s code ack) :
    ∃ s', dispatch env s event = .ok s' ∧ After c p q s s' := by
  have hal := h.allowed_state
  cases hr : s.role with
  | uac =>
      rw [hr] at hal
      have hack' : q → ∀ code ack, event = .rxResponse code ack → ackOk env s code ack :=
        fun hq code ack he => hack hq code ack he hr
      cases hst : s.state with
      | null =>
          exact ⟨_, dispatch_of_handler (by rw [hst]; rfl) event, after_null env h hst event⟩
      | calling =>
          exact ⟨_, dispatch_of_handler (by rw [hr, hst]; rfl) event,
            after_calling env h hr hst event hto hack'⟩
      | trying => exact absurd hst hal.1
      | proceeding =>
          exact ⟨_, dispatch_of_handler (by rw [hr, hst]; rfl) event,
            after_proceedingUac env h hr hst event hto hack'⟩
      | completed =>
          exact ⟨_, dispatch_of_handler (by rw [hr, hst]; rfl) event,
            after_completedUac env h hst event hto⟩
      | confirmed => exact absurd hst hal.2
      | terminated =>
          exact ⟨_, dispatch_of_handler (by rw [hst]; rfl) event,
            after_terminated env h hst event hto⟩
      | destroyed =>
          exact ⟨_, dispatch_of_handler (by rw [hst]; rfl) event, After.refl h⟩
  | uas =>
      rw [hr] at hal
      cases hst : s.state with
      | null =>
          exact ⟨_, dispatch_of_handler (by rw [hst]; rfl) event, after_null env h hst event⟩
      | calling => exact absurd hst hal.1
      | trying =>
          exact ⟨_, dispatch_of_handler (by rw [hr, hst]; rfl) event,
            after_trying env h hr hst event fun hpp => hp hpp hr (Or.inl hst)⟩
      | proceeding =>
          exact ⟨_, dispatch_of_handler (by rw [hr, hst]; rfl) event,
            after_proceedingUas env h hr (Or.inr hst) event hto fun hpp => hp hpp hr (Or.inr hst)⟩
      | completed =>
          exact ⟨_, dispatch_of_handler (by rw [hr, hst]; rfl) event,
            after_completedUas env h hr hst event hto fun he hi => hc he hr hi hst⟩
      | confirmed =>
          exact ⟨_, dispatch_of_handler (by rw [hst]; rfl) event,
            after_confirmed env h event hto⟩
      | terminated =>
          exact ⟨_, dispatch_of_handler (by rw [hst]; rfl) event,
            after_terminated env h hst event hto⟩
      | destroyed =>
          exact ⟨_, dispatch_of_handler (by rw [hst]; rfl) event, After.refl h⟩

/-- What a timeout does. -/
inductive TimedOut (env : Env) (s s' : Tsx) : Prop where
  | term (h : Term s s') (hlt : s.state.rank < State.terminated.rank)
  | destroyed (hst : s.state = .terminated) (h : s' = tsxSetState env s .destroyed true)
  | idle (hn : ¬ needsTimer s.role s.invite s.state)
      (h : ∀ c p q : Prop, After c p q s s')

theorem dispatch_timeout (env : Env) (h : Sound s) :
    ∃ s', dispatch env s .timeout = .ok s' ∧ TimedOut env s s' := by
  have hal := h.allowed_state
  have hbase : ∀ code : Nat, Base s { s with statusCode := code } := fun code =>
    h.base rfl
  have hterm : ∀ s1, Base s s1 → Term s (tsxSetState env s1 .terminated true) :=
    fun s1 hb => hb.term (term_setState env hb.sound true)
  cases hst : s.state with
  | null =>
      refine ⟨_, dispatch_of_handler (by rw [hst]; rfl) .timeout,
        .idle ?_ fun _ _ _ => after_null env h hst .timeout⟩
      rw [hst]
      exact not_false
  | calling =>
      cases hr : s.role with
      | uac =>
          have hb : Base s { s.cancelRetransmit with
              pendingResched := false
              statusCode := scTimeout } := h.base rfl
          exact ⟨_, dispatch_of_handler (by rw [hr, hst]; rfl) .timeout,
            .term (hterm _ hb) (by rw [hst]; decide)⟩
      | uas =>
          rw [hr] at hal
          exact absurd hst hal.1
  | trying =>
      cases hr : s.role with
      | uac =>
          rw [hr] at hal
          exact absurd hst hal.1
      | uas =>
          refine ⟨_, dispatch_of_handler (by rw [hr, hst]; rfl) .timeout,
            .idle ?_ fun _ _ _ => After.refl h⟩
          rw [hst]
          exact not_false
  | proceeding =>
      cases hr : s.role with
      | uac | uas =>
          exact ⟨_, dispatch_of_handler (by rw [hr, hst]; rfl) .timeout,
            .term (hterm _ (hbase scTimeout)) (by rw [hst]; decide)⟩
  | completed =>
      cases hr : s.role with
      | uac =>
          exact ⟨_, dispatch_of_handler (by rw [hr, hst]; rfl) .timeout,
            .term (hterm _ (Base.refl h)) (by rw [hst]; decide)⟩
      | uas =>
          refine ⟨_, dispatch_of_handler (by rw [hr, hst]; rfl) .timeout,
            .term (hterm (if s.invite then { s with statusCode := scTimeout } else s) ?_)
              (by rw [hst]; decide)⟩
          split
          · exact hbase scTimeout
          · exact Base.refl h
  | confirmed =>
      exact ⟨_, dispatch_of_handler (by rw [hst]; rfl) .timeout,
        .term (hterm _ (Base.refl h)) (by rw [hst]; decide)⟩
  | terminated =>
      exact ⟨_, dispatch_of_handler (by rw [hst]; rfl) .timeout, .destroyed hst rfl⟩
  | destroyed =>
      refine ⟨_, dispatch_of_handler (by rw [hst]; rfl) .timeout,
        .idle ?_ fun _ _ _ => After.refl h⟩
      rw [hst]
      exact not_false

/-- What a transport error does before the transaction is terminated. -/
theorem Sound.transportErr (h : Sound s) (timer : Entry) (code : Nat) :
    Base s { s with timeoutTimer := timer, transport := none, statusCode := code } := by
  refine ⟨rfl, rfl, rfl, rfl, h.path, h.states, h.pendingTx, h.tpSends, h.ended, h.pendingDestroy,
    fun hr hs => ?_, h.clientSend⟩
  rcases hs with hs | hs
  · cases hs
  · exact h.clientTransport hr (Or.inr hs)

/-- The timer of a transport error does nothing to a transaction that has ended. -/
theorem after_onTimeoutTimer (env : Env) (h : Sound s) :
    ∃ s', onTimeoutTimer env s = .ok s' ∧ After c p q s s' := by
  have hb : Base s { s with timeoutTimer := { s.timeoutTimer.fired with id := timerInactive } } :=
    h.base rfl
  have hne : s.state.rank < State.terminated.rank → s.state ≠ .destroyed := by
    intro hlt heq
    rw [heq] at hlt
    exact absurd hlt (by decide)
  unfold onTimeoutTimer
  dsimp only
  split
  · rename_i hid
    split
    · rename_i hlt
      have hb1 : Base s { s with
          timeoutTimer := { s.timeoutTimer.fired with id := timerInactive }
          transport := none
          statusCode := if s.statusCode < 200 then scTransportError else s.statusCode } :=
        h.transportErr _ _
      exact ⟨_, rfl, (hb1.term (term_setState env hb1.sound false)).after h (hne hlt)⟩
    · rename_i hlt
      refine ⟨_, rfl, hb.after fun _ ht => ?_⟩
      -- In TERMINATED it is not the timer of a transport error that fires.
      have hnt : s.state ≠ .terminated := by
        intro hst
        have hid' := ht.terminated hst
        rw [hid] at hid'
        exact absurd hid' (by decide)
      have hst : s.state = .destroyed := by
        revert hlt hnt
        cases s.state <;> decide
      refine ⟨fun hn => ?_, fun hst' => absurd hst' hnt⟩
      have hn : needsTimer s.role s.invite s.state := hn
      rw [hst] at hn
      exact hn.elim
  · rcases dispatch_timeout env hb.sound with ⟨s', hs', hto⟩
    refine ⟨s', hs', ?_⟩
    cases hto with
    | term ht hlt => exact (hb.term ht).after h (hne hlt)
    | destroyed hst heq =>
        rw [heq]
        exact after_destroyed env hb h hst
    | idle hn ha =>
        refine (hb.after fun _ _ => ⟨fun hn' => absurd hn' hn, fun hst => absurd ?_ hn⟩).trans
          (ha c p q)
        rw [hst]
        exact trivial

theorem Sound.postTransportErr (h : Sound s) (err : Nat) : Base s (s.postTransportErr err) :=
  h.base rfl

/-- The transport calls back when nothing else is being sent. -/
theorem Sound.transportCallback (h : Sound s) (hn : s.tpSends ≠ 0) :
    Base s { s with pendingTransport := false, tpSends := s.tpSends - 1 } := by
  have htx : s.pendingTx = none := by
    cases hp : s.pendingTx with
    | none => rfl
    | some m =>
        have hlt := (h.pendingTx (by rw [hp]; rfl)).2
        rcases h.tpSends hlt with h1 | h1 | h1
        · exact absurd h1 hn
        · rw [hp] at h1
          cases h1.2
        · rw [hp] at h1
          cases h1.2.2
  have hres : s.role = .uac → s.resolvedServer = true :=
    fun hr => h.clientTransport hr (Or.inr (Nat.pos_of_ne_zero hn))
  refine ⟨rfl, rfl, rfl, rfl, h.path, h.states, ?_, fun hlt => ?_, fun _ => rfl, h.pendingDestroy,
    fun hr _ => hres hr, fun hr _ _ => Or.inl (hres hr)⟩
  · dsimp only
    rw [htx]
    nofun
  · rcases h.tpSends hlt with h1 | h1 | h1
    · exact absurd h1 hn
    · exact Or.inr (Or.inl h1)
    · refine Or.inl ?_
      show s.tpSends - 1 = 0
      rw [h1.1]

theorem after_sendMsgCallback (env : Env) (h : Sound s) (cb : SendCb) :
    After c p q s (sendMsgCallback env s cb) := by
  by_cases hlt : s.state.rank < State.terminated.rank
  · cases sendMsgCallback_cases env h hlt cb with
    | stay hs _ => exact hs.after hlt
    | next hs _ _ => exact hs.after hlt
    | term ht _ _ =>
        refine ht.after h fun heq => ?_
        rw [heq] at hlt
        exact absurd hlt (by decide)
  · have htx : s.pendingTx = none := h.pendingTx_none (h.ended (Nat.not_lt.mp hlt))
    have heq : sendMsgCallback env s cb = s := by
      unfold sendMsgCallback
      rw [htx]
    rw [heq]
    exact After.refl h

theorem after_terminate (h : Sound s) (code : Nat) : After c p q s (s.terminate code) := by
  unfold Tsx.terminate
  split
  · rename_i hlt
    have hb : Base s { s with statusCode := code } := h.base rfl
    refine (hb.term (term_onTerminated hb.sound)).after h fun heq => ?_
    rw [heq] at hlt
    exact absurd hlt.2 (by decide)
  · exact After.refl h

/-! ## Runs -/

/-- The transaction user does not send the last response again in a state where a retransmission of
it is still to be sent. -/
def resendOk (s : Tsx) : Op → Bool
  | .send m =>
      match m.or s.lastTx with
      | none => true
      | some m =>
          !(decide (s.role = .uas) && (decide (s.state = .trying) || decide (s.state = .proceeding)) &&
            stale s m)
  | _ => true

/-- The ACK for a failure response to an INVITE in CALLING can be made and its server resolved, and
no transport reports an error to a transaction in TERMINATED. -/
def timedOk (env : Env) (s : Tsx) : Op → Bool
  | .recvResponse code ack =>
      !(decide (s.role = .uac) && decide (s.state = .calling) && s.invite &&
        decide (300 ≤ code.val)) || (ack.isSome && !s.resolutionErrs env)
  | .transportCallback (some _) => decide (s.state ≠ .terminated) || decide (s.tpSends = 0)
  | .disconnected _ => decide (s.state ≠ .terminated) || decide (s.transport = none)
  | _ => true

/-- The step that confirms a transaction. -/
def Confirms (s : Tsx) (op : Op) : Prop :=
  op = .recvRequest true ∧ s.role = .uas ∧ s.invite = true ∧ s.state = .completed

theorem after_step (env : Env) (h : Sound s) (op : Op) :
    ∃ s', step env s op = .ok s' ∧
      After (Confirms s op) (resendOk s op = true) (timedOk env s op = true) s s' := by
  unfold step
  split
  · rename_i m0
    split
    · exact ⟨s, rfl, After.refl h⟩
    · rename_i m hm
      refine after_dispatch env h (.tx m) nofun nofun (fun hp hr hst => ?_) nofun
      intro m' hm'
      cases hm'
      unfold resendOk at hp
      dsimp only at hp
      rw [hm] at hp
      dsimp only at hp
      cases hstale : stale s m with
      | false => rfl
      | true =>
          rw [hstale, decide_eq_true hr] at hp
          rcases hst with hst | hst
          · rw [hst] at hp
            exact absurd hp (by decide)
          · rw [hst] at hp
            exact absurd hp (by decide)
  · rename_i ack
    refine after_dispatch env h (.rxRequest ack) nofun (fun he hr hi hst => ?_) (fun _ _ _ => nofun)
      nofun
    cases he
    exact ⟨rfl, hr, hi, hst⟩
  · rename_i code ack
    refine after_dispatch env h (.rxResponse code ack) nofun nofun (fun _ _ _ => nofun)
      fun hq code' ack' he hr => ?_
    cases he
    intro hst hi hcode
    unfold timedOk at hq
    rw [hr, hst, hi] at hq
    simp only [decide_true, Bool.and_self, decide_eq_true hcode, Bool.not_true, Bool.false_or,
      Bool.and_eq_true, Bool.not_eq_true'] at hq
    exact hq
  · split
    · have hb : Base s { s with
          retransmitTimer := { s.retransmitTimer.fired with id := timerInactive } } := h.base rfl
      rcases after_dispatch env hb.sound .retransmit nofun nofun (fun _ _ _ => nofun) nofun with
        ⟨s', hs', ha⟩
      exact ⟨s', hs', (hb.after fun _ ht => ht.frame hb rfl).trans ha⟩
    · exact ⟨s, rfl, After.refl h⟩
  · split
    · exact after_onTimeoutTimer env h
    · exact ⟨s, rfl, After.refl h⟩
  · rename_i err
    split
    · exact ⟨s, rfl, After.refl h⟩
    · rename_i hn
      have hb : Base s { s with pendingTransport := false, tpSends := s.tpSends - 1 } :=
        h.transportCallback hn
      split
      · exact ⟨_, rfl, hb.after fun _ ht => ht.frame hb rfl⟩
      · rename_i e
        have hb1 := hb.trans (hb.sound.postTransportErr (e + 1))
        refine ⟨_, rfl, hb1.after fun hq ht => ⟨fun _ => rfl, fun hst => ?_⟩⟩
        have hst : s.state = .terminated := hst
        unfold timedOk at hq
        dsimp only at hq
        rw [hst, decide_eq_false hn] at hq
        exact absurd hq (by decide)
  · split
    · exact ⟨s, rfl, After.refl h⟩
    · rename_i status htp
      refine ⟨_, rfl, (h.postTransportErr status).after fun hq ht =>
        ⟨fun _ => rfl, fun hst => ?_⟩⟩
      have hst : s.state = .terminated := hst
      unfold timedOk at hq
      dsimp only at hq
      rw [hst, decide_eq_false htp] at hq
      exact absurd hq (by decide)
  · rename_i cb
    exact ⟨_, rfl, after_sendMsgCallback env h cb⟩
  · rename_i code
    exact ⟨_, rfl, after_terminate h code⟩
  · have hb : Base s (s.resetTimeout timeoutTimerId) := h.base rfl
    split
    · split
      · exact ⟨s, rfl, After.refl h⟩
      · exact ⟨_, rfl, hb.after fun _ _ => ⟨fun _ => rfl, fun _ => rfl⟩⟩
    · exact ⟨s, rfl, After.refl h⟩
  · have hb : Base s s.cancelRetransmit := h.base rfl
    split
    · exact ⟨_, rfl, hb.after fun _ ht => ht.frame hb rfl⟩
    · exact ⟨s, rfl, After.refl h⟩
  · rename_i handle
    have hb : Base s { s with handle200resp := handle } := h.base rfl
    exact ⟨_, rfl, hb.after fun _ ht => ht.frame hb rfl⟩

/-- A transaction that has been created. -/
inductive Created : Tsx → Prop where
  | uac (invite isReliable : Bool) (tdata : Msg) : Created (createUac invite isReliable tdata)
  | uas (invite isReliable : Bool) (transport : Option Nat) :
      Created (createUas invite isReliable transport)

theorem Created.path (h : Created s) : s.path = [.null] ∧ s.state = .null := by
  cases h with
  | uac => exact ⟨rfl, rfl⟩
  | uas => exact ⟨rfl, rfl⟩

theorem Created.sound (h : Created s) : Sound s := by
  have hallowed : ∀ role invite, allowed role invite .null := by
    intro role invite
    cases role
    · exact ⟨nofun, nofun⟩
    · exact ⟨nofun, nofun⟩
  cases h with
  | uac invite isReliable tdata =>
      refine ⟨⟨[], rfl⟩, fun st hst => ?_, nofun, fun _ => Or.inl rfl, fun _ => rfl, rfl,
        fun _ hs => ?_, fun _ _ => nofun⟩
      · cases List.mem_singleton.mp hst
        exact hallowed _ _
      · rcases hs with hs | hs
        · cases hs
        · exact absurd hs (Nat.lt_irrefl _)
  | uas invite isReliable transport =>
      refine ⟨⟨[], rfl⟩, fun st hst => ?_, nofun, fun _ => Or.inl rfl, fun _ => rfl, rfl, nofun,
        nofun⟩
      cases List.mem_singleton.mp hst
      exact hallowed _ _

theorem Created.sorted (h : Created s) : Sorted s := by
  unfold Sorted
  rw [h.path.1]
  exact List.pairwise_singleton _ _

/-- The states of a transaction: each is one of its role, has a handler, and comes after those
before; DESTROYED has been entered at most once, and nothing after it. -/
structure Ordered (env : Env) (s : Tsx) : Prop where
  current : s.path.head? = some s.state
  sorted : s.path.Pairwise fun a b => b.rank ≤ a.rank
  roles : ∀ st ∈ s.path, (s.role = .uac → st ≠ .trying ∧ st ≠ .confirmed) ∧
    (s.role = .uas → st ≠ .calling)
  handler : (stateHandler env s.role s.state).isSome = true
  destroyed : s.path.count .destroyed = if s.state = .destroyed then 1 else 0

/-- What a step does to the states: CONFIRMED comes of an ACK for an INVITE in COMPLETED, and
DESTROYED is left as it is. -/
structure Follows (s : Tsx) (op : Op) (s' : Tsx) : Prop where
  path : ∃ new, s'.path = new ++ s.path ∧ (.confirmed ∈ new → Confirms s op)
  destroyed : s.state = .destroyed → s'.state = .destroyed ∧ s'.path = s.path

theorem Sound.handler (h : Sound s) (env : Env) :
    (stateHandler env s.role s.state).isSome = true := by
  have hal := h.allowed_state
  cases hr : s.role with
  | uac =>
      rw [hr] at hal
      cases hst : s.state with
      | trying => exact absurd hst hal.1
      | _ => rfl
  | uas =>
      rw [hr] at hal
      cases hst : s.state with
      | calling => exact absurd hst hal.1
      | _ => rfl

theorem Sorted.ordered (hs : Sorted s) (h : Sound s) (env : Env) : Ordered env s := by
  rcases h.path with ⟨l, hl⟩
  refine ⟨?_, hs.imp fun hab => hab.1, fun st hst => ?_, h.handler env, ?_⟩
  · rw [hl]
    rfl
  · have hal := h.states st hst
    refine ⟨fun hr => ?_, fun hr => ?_⟩
    · rw [hr] at hal
      exact hal
    · rw [hr] at hal
      exact hal.1
  · unfold Sorted at hs
    rw [hl] at hs ⊢
    have hl0 : l.count .destroyed = 0 :=
      List.count_eq_zero.mpr fun hmem => ((List.pairwise_cons.mp hs).1 _ hmem).2 rfl
    rw [List.count_cons, hl0]
    split
    · rename_i hst
      rw [if_pos (beq_iff_eq.mp hst)]
    · rename_i hst
      rw [if_neg fun heq => hst (beq_iff_eq.mpr heq)]

theorem After.follows {op : Op} (h : After (Confirms s op) p q s s') (h0 : Sound s)
    (hs : Sorted s') : Follows s op s' := by
  refine ⟨h.path, fun hst => ?_⟩
  rcases h.path with ⟨new, hnew, -⟩
  rcases h0.path with ⟨l, hl⟩
  rcases h.sound.path with ⟨l', hl'⟩
  cases new with
  | nil =>
      have hp : s'.path = s.path := hnew
      refine ⟨?_, hp⟩
      rw [hl', hl] at hp
      rw [(List.cons.inj hp).1]
      exact hst
  | cons a new =>
      -- Nothing comes after DESTROYED.
      unfold Sorted at hs
      rw [hnew, hl, hst] at hs
      have hmem : State.destroyed ∈ new ++ State.destroyed :: l :=
        List.mem_append_right _ List.mem_cons_self
      exact absurd rfl ((List.pairwise_cons.mp hs).1 _ hmem).2

/-- **The states of a transaction.** In every run in which the last response is not sent again while
a retransmission of it is still to be sent, the states are in order, every state has a handler,
CONFIRMED is entered by an INVITE server transaction in COMPLETED on an ACK only, and DESTROYED is
entered once and never left. -/
theorem tsx_states (env : Env) {s0 : Tsx} (h0 : Created s0) (ops : List Op)
    (hm : Meets (step env) (fun s op => resendOk s op = true) s0 ops) :
    ∃ s, run (step env) s0 ops = .ok s ∧ Ordered env s ∧
      ∀ op, resendOk s op = true → ∃ s', step env s op = .ok s' ∧ Follows s op s' := by
  have hstep : ∀ s op, Sound s ∧ Sorted s → resendOk s op = true →
      ∃ s', step env s op = .ok s' ∧ Sound s' ∧ Sorted s' := by
    intro s op h hok
    rcases after_step env h.1 op with ⟨s', hs', ha⟩
    exact ⟨s', hs', ha.sound, ha.sorted hok h.2⟩
  rcases run_invariant hstep ops s0 ⟨h0.sound, h0.sorted⟩ hm with ⟨s, hs, h⟩
  refine ⟨s, hs, h.2.ordered h.1 env, fun op hok => ?_⟩
  rcases after_step env h.1 op with ⟨s', hs', ha⟩
  exact ⟨s', hs', ha.follows h.1 (ha.sorted hok h.2)⟩

/-- Messages are sent with the transport at once, and the transaction user does not interfere. -/
def plainEnv : Env where
  attempt _ := ⟨false, .ok, .calls [.sent ⟨0, false, false⟩]⟩
  terminates _ := none
  t1 := 500
  t2 := 4000

/-- The response `code` to an INVITE. -/
def inviteResponse (id : Nat) (code : Code) : Msg := ⟨id, some code, true⟩

def ringing : Code := ⟨180, by decide⟩

def busyHere : Code := ⟨486, by decide⟩

/-- An INVITE is refused, and the ACK comes. -/
def refusedRun : List Op :=
  [.recvRequest false, .send (some (inviteResponse 0 ringing)),
   .send (some (inviteResponse 1 busyHere)), .recvRequest true, .timeoutTimer, .timeoutTimer]

theorem tsx_states_refused :
    ∃ s, run (step plainEnv) (createUas true false (some 0)) refusedRun = .ok s ∧
      s.path = [.destroyed, .terminated, .confirmed, .completed, .proceeding, .trying, .null] ∧
      Ordered plainEnv s ∧
      ∀ op, resendOk s op = true → ∃ s', step plainEnv s op = .ok s' ∧ Follows s op s' := by
  have h : checkRun (step plainEnv) resendOk (fun s => decide (s.path =
      [.destroyed, .terminated, .confirmed, .completed, .proceeding, .trying, .null]))
      (createUas true false (some 0)) refusedRun = true := by
    decide
  rcases checkRun_sound _ _ _ _ _ h with ⟨hm, s, hs, hp⟩
  rcases tsx_states plainEnv (Created.uas true false (some 0)) refusedRun hm with ⟨s', hs', hst⟩
  rw [hs] at hs'
  cases hs'
  exact ⟨s, hs, decide_eq_true_iff.mp hp, hst⟩

/-- The first send of a response is reported later, all others fail. -/
def failingEnv : Env where
  attempt n := if n = 0 then ⟨false, .pending, .calls []⟩
    else ⟨false, .error 0, .calls [.sent ⟨1, false, false⟩]⟩
  terminates _ := none
  t1 := 500
  t2 := 4000

/-- While a response is being sent the request comes again, so the response is to be sent again.
That is still so when the transport reports success. Then the transaction user sends the response
again: the transport fails, a new one is found, and the retransmission fails with it as well. -/
def resentRun : List Op :=
  [.recvRequest false, .send (some (inviteResponse 0 ⟨180, by decide⟩)), .recvRequest false,
   .transportCallback none, .send none]

/-- The transaction goes from TERMINATED back to COMPLETED. -/
theorem steps_back :
    ∃ s, run (step failingEnv) (createUas true false (some 0)) resentRun = .ok s ∧
      s.path = [.completed, .terminated, .proceeding, .trying, .null] ∧ ¬ Ordered failingEnv s := by
  have h : checkRun (step failingEnv) (fun _ _ => true) (fun s => decide (s.path =
      [.completed, .terminated, .proceeding, .trying, .null]))
      (createUas true false (some 0)) resentRun = true := by
    decide
  rcases checkRun_sound _ _ _ _ _ h with ⟨-, s, hs, hp⟩
  have hp := decide_eq_true_iff.mp hp
  refine ⟨s, hs, hp, fun ho => ?_⟩
  have hsorted := ho.sorted
  rw [hp] at hsorted
  exact absurd hsorted (by decide)

end Sip
