import PjProject.Sip.States

set_option autoImplicit false

/-! # No transaction is stuck

A transaction that waits in CALLING, COMPLETED, CONFIRMED or TERMINATED is ended by its timeout
timer, and so is a client transaction for another method than INVITE in PROCEEDING. There are two
gaps. The timer is cancelled when a failure response to an INVITE comes, and set again after the ACK
has been sent; in CALLING it stays cancelled when the ACK cannot be made, or its server not be
resolved. And a transport that reports an error to a transaction in TERMINATED takes the timer for
itself, without effect when it fires. `timedOk` leaves these steps out.
-/

namespace Sip

open Timer Machine

variable {s s' : Tsx}

theorem Created.timed (h : Created s) : Timed s := by
  refine ⟨fun hn => ?_, fun hst => ?_⟩
  · rw [h.path.2] at hn
    exact hn.elim
  · rw [h.path.2] at hst
    cases hst

/-! ## The way to the end -/

/-- The timeout timer fires: a transaction that waits for it is terminated, and a terminated one
destroyed. -/
theorem timeoutTimer_fires (env : Env) (h : Sound s) (ht : Timed s)
    (hn : needsTimer s.role s.invite s.state) :
    ∃ s', step env s .timeoutTimer = .ok s' ∧
      (s.state = .terminated ∧ s'.state = .destroyed ∨
        s.state ≠ .terminated ∧ s'.state = .terminated) := by
  have hb : Base s { s with timeoutTimer := { s.timeoutTimer.fired with id := timerInactive } } :=
    h.base rfl
  have hnt : s.state.rank < State.terminated.rank → s.state ≠ .terminated := by
    intro hlt hst
    rw [hst] at hlt
    exact absurd hlt (Nat.lt_irrefl _)
  show ∃ s', (if s.timeoutTimer.running = true then onTimeoutTimer env s else .ok s) = .ok s' ∧ _
  rw [if_pos (ht.running hn)]
  unfold onTimeoutTimer
  dsimp only
  split
  · rename_i hid
    split
    · rename_i hlt
      have hb1 : Base s { s with
          timeoutTimer := { s.timeoutTimer.fired with id := timerInactive }
          transport := none
          statusCode := if s.statusCode < 200 then scTransportError else s.statusCode } :=
        h.transportErr _ _
      exact ⟨_, rfl, Or.inr ⟨hnt hlt, (term_setState env hb1.sound false).state⟩⟩
    · rename_i hlt
      -- A transaction that waits for the timer and has ended is terminated.
      have hst : s.state = .terminated := by
        revert hlt hn
        cases s.state with
        | terminated => exact fun _ _ => rfl
        | destroyed => exact fun hn _ => hn.elim
        | _ => exact fun _ hlt => absurd (by decide) hlt
      have hid' := ht.terminated hst
      rw [hid] at hid'
      exact absurd hid' (by decide)
  · rcases dispatch_timeout env hb.sound with ⟨s', hs', hto⟩
    refine ⟨s', hs', ?_⟩
    cases hto with
    | term hterm hlt => exact Or.inr ⟨hnt hlt, hterm.state⟩
    | destroyed hst heq =>
        have hst : s.state = .terminated := hst
        refine Or.inl ⟨hst, ?_⟩
        rw [heq]
        exact (destroyed_setState env hb.sound (by rw [hb.state, hst]) true).state
    | idle hidle _ => exact absurd hn hidle

/-- The timeout timer alone leads to the end. -/
def CanEnd (env : Env) (s : Tsx) : Prop :=
  ∃ n s', run (step env) s (List.replicate n .timeoutTimer) = .ok s' ∧ s'.state = .destroyed

theorem Timed.canEnd (env : Env) (h : Sound s) (ht : Timed s)
    (hn : needsTimer s.role s.invite s.state) : CanEnd env s := by
  rcases timeoutTimer_fires env h ht hn with ⟨s1, hs1, ⟨-, hd⟩ | ⟨-, hst1⟩⟩
  · refine ⟨1, s1, ?_, hd⟩
    show run (step env) s [.timeoutTimer] = _
    rw [run_cons_ok hs1]
    rfl
  · -- Terminated by the first timeout, the transaction is destroyed by the second one.
    rcases after_step env h .timeoutTimer with ⟨s1', hs1', ha⟩
    rw [hs1] at hs1'
    cases hs1'
    have hn1 : needsTimer s1.role s1.invite s1.state := by
      rw [hst1]
      exact trivial
    rcases timeoutTimer_fires env ha.sound (ha.timed rfl ht) hn1 with ⟨s2, hs2, ⟨-, hd⟩ | ⟨hne, -⟩⟩
    · refine ⟨2, s2, ?_, hd⟩
      show run (step env) s [.timeoutTimer, .timeoutTimer] = _
      rw [run_cons_ok hs1, run_cons_ok hs2]
      rfl
    · exact absurd hst1 hne

/-- What a transaction that is not stuck satisfies. -/
def NotStuck (env : Env) (s : Tsx) : Prop :=
  needsTimer s.role s.invite s.state → s.timeoutTimer.running = true ∧ CanEnd env s

/-- **No transaction is stuck.** In every run in which the ACK for a failure response in CALLING can
be made and its server resolved, and no transport reports an error to a terminated transaction, the
timeout timer is scheduled in every state that it has to end, and leads from there to DESTROYED. -/
theorem tsx_not_stuck (env : Env) {s0 : Tsx} (h0 : Created s0) (ops : List Op)
    (hm : Meets (step env) (fun s op => timedOk env s op = true) s0 ops) :
    ∃ s, run (step env) s0 ops = .ok s ∧ NotStuck env s := by
  have hstep : ∀ s op, Sound s ∧ Timed s → timedOk env s op = true →
      ∃ s', step env s op = .ok s' ∧ Sound s' ∧ Timed s' := by
    intro s op h hok
    rcases after_step env h.1 op with ⟨s', hs', ha⟩
    exact ⟨s', hs', ha.sound, ha.timed hok h.2⟩
  rcases run_invariant hstep ops s0 ⟨h0.sound, h0.timed⟩ hm with ⟨s, hs, h⟩
  exact ⟨s, hs, fun hn => ⟨h.2.running hn, h.2.canEnd env h.1 hn⟩⟩

/-- An INVITE. -/
def inviteRequest : Msg := ⟨0, none, true⟩

/-- An INVITE is refused, and the ACK is sent. -/
def acknowledgedRun : List Op :=
  [.send (some inviteRequest), .recvResponse busyHere (some ⟨1, none, false⟩)]

theorem tsx_not_stuck_acknowledged :
    ∃ s, run (step plainEnv) (createUac true false inviteRequest) acknowledgedRun = .ok s ∧
      s.state = .completed ∧ NotStuck plainEnv s := by
  have h : checkRun (step plainEnv) (timedOk plainEnv) (fun s => decide (s.state = .completed))
      (createUac true false inviteRequest) acknowledgedRun = true := by
    decide
  rcases checkRun_sound _ _ _ _ _ h with ⟨hm, s, hs, hp⟩
  rcases tsx_not_stuck plainEnv (Created.uac true false inviteRequest) acknowledgedRun hm with
    ⟨s', hs', hns⟩
  rw [hs] at hs'
  cases hs'
  exact ⟨s, hs, decide_eq_true_iff.mp hp, hns⟩

/-- An INVITE is refused, and the ACK cannot be made. -/
def unacknowledgedRun : List Op :=
  [.send (some inviteRequest), .recvResponse busyHere none]

/-- The transaction waits in CALLING for a timer that is not scheduled. -/
theorem stuck_in_calling :
    ∃ s, run (step plainEnv) (createUac true false inviteRequest) unacknowledgedRun = .ok s ∧
      s.state = .calling ∧ s.timeoutTimer.running = false ∧ ¬ NotStuck plainEnv s := by
  have h : checkRun (step plainEnv) (fun _ _ => true)
      (fun s => decide (s.state = .calling) && !s.timeoutTimer.running)
      (createUac true false inviteRequest) unacknowledgedRun = true := by
    decide
  rcases checkRun_sound _ _ _ _ _ h with ⟨-, s, hs, hp⟩
  rw [Bool.and_eq_true, decide_eq_true_iff, Bool.not_eq_true'] at hp
  refine ⟨s, hs, hp.1, hp.2, fun hns => ?_⟩
  have hrun : s.timeoutTimer.running = true := by
    refine (hns ?_).1
    rw [hp.1]
    exact trivial
  rw [hp.2] at hrun
  cases hrun

end Sip
