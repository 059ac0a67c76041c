import PjProject.Sip.Transaction

set_option autoImplicit false

/-! # What a send does to a transaction

`tsx_send_msg` may end the transaction before it returns: when the transport fails for good, and
when `send_msg_callback` is called in between. `tsxSendMsg_spec` says what its callers can rely on.
The transaction stays as it is or is terminated (`Stay`, `Term`); after success it stays as it is,
unless a message was still to be sent, with no transport pending, when the server is resolved
(`NoStale`): then the callback sends that message too, and what becomes of it is lost.
-/

namespace Sip

open Timer

/-! ## The invariant -/

/-- The states for a role and a method. -/
def allowed (role : Role) (invite : Bool) (st : State) : Prop :=
  match role with
  | .uac => st ≠ .trying ∧ st ≠ .confirmed
  | .uas => st ≠ .calling ∧ (st = .confirmed → invite = true)

/-- What every reachable state satisfies. A transaction that waits for `send_msg_callback` waits for
its transport and has not ended, and does not wait for `transport_callback` as well; a client
transaction with a transport has resolved its server. -/
structure Sound (s : Tsx) : Prop where
  path : ∃ l, s.path = s.state :: l
  states : ∀ st ∈ s.path, allowed s.role s.invite st
  pendingTx : s.pendingTx.isSome = true →
    s.pendingTransport = true ∧ s.state.rank < State.terminated.rank
  tpSends : s.state.rank < State.terminated.rank → s.tpSends = 0 ∨
    s.resolvedServer = true ∧ s.pendingTx = none ∨
    s.tpSends = 1 ∧ s.pendingTransport = true ∧ s.pendingTx = none
  ended : State.terminated.rank ≤ s.state.rank → s.pendingTransport = false
  pendingDestroy : s.pendingDestroy = false
  clientTransport : s.role = .uac → s.transport.isSome = true ∨ 0 < s.tpSends →
    s.resolvedServer = true
  clientSend : s.role = .uac → s.state.rank < State.terminated.rank → s.pendingSend = true →
    s.resolvedServer = true ∨ s.pendingTransport = true

/-- State and path are the same; timers and flags may differ. -/
structure Base (s s' : Tsx) : Prop where
  role : s'.role = s.role
  invite : s'.invite = s.invite
  state : s'.state = s.state
  path : s'.path = s.path
  sound : Sound s'

/-- The transaction stays in its state, and the timeout timer stays scheduled. -/
structure Stay (s s' : Tsx) : Prop where
  base : Base s s'
  timer : s.timeoutTimer.running = true → s'.timeoutTimer.running = true

/-- The transaction has been terminated. -/
structure Term (s s' : Tsx) : Prop where
  role : s'.role = s.role
  invite : s'.invite = s.invite
  state : s'.state = .terminated
  path : s'.path = .terminated :: s.path
  timer : s'.timeoutTimer = ⟨timeoutTimerId, true⟩
  sound : Sound s'

variable {s s' s'' : Tsx}

theorem Base.refl (h : Sound s) : Base s s := ⟨rfl, rfl, rfl, rfl, h⟩

theorem Base.trans (h : Base s s') (h' : Base s' s'') : Base s s'' :=
  ⟨h'.role.trans h.role, h'.invite.trans h.invite, h'.state.trans h.state, h'.path.trans h.path,
    h'.sound⟩

theorem Stay.refl (h : Sound s) : Stay s s := ⟨Base.refl h, id⟩

theorem Stay.trans (h : Stay s s') (h' : Stay s' s'') : Stay s s'' :=
  ⟨h.base.trans h'.base, fun ht => h'.timer (h.timer ht)⟩

theorem Base.term (h : Base s s') (h' : Term s' s'') : Term s s'' :=
  ⟨h'.role.trans h.role, h'.invite.trans h.invite, h'.state, by rw [h'.path, h.path], h'.timer,
    h'.sound⟩

/-! ## Timers -/

/-- A change of timers, counters and messages. -/
theorem Sound.frame (h : Sound s) (hr : s'.role = s.role) (hi : s'.invite = s.invite)
    (hst : s'.state = s.state) (hp : s'.path = s.path) (htx : s'.pendingTx = s.pendingTx)
    (hpt : s'.pendingTransport = s.pendingTransport) (hpd : s'.pendingDestroy = s.pendingDestroy)
    (ht : s'.transport = s.transport) (hn : s'.tpSends = s.tpSends)
    (hrs : s'.resolvedServer = s.resolvedServer) (hps : s'.pendingSend = s.pendingSend) :
    Sound s' := by
  constructor
  · rw [hp, hst]
    exact h.path
  · rw [hp, hr, hi]
    exact h.states
  · rw [htx, hpt, hst]
    exact h.pendingTx
  · rw [hst, hn, hrs, htx, hpt]
    exact h.tpSends
  · rw [hst, hpt]
    exact h.ended
  · rw [hpd]
    exact h.pendingDestroy
  · rw [hr, ht, hn, hrs]
    exact h.clientTransport
  · rw [hr, hst, hps, hrs, hpt]
    exact h.clientSend

/-- What `Sound` looks at. -/
def Tsx.core (s : Tsx) : Role × Bool × State × List State × Option Msg × Bool × Bool × Option Nat × Nat × Bool × Bool :=
  (s.role, s.invite, s.state, s.path, s.pendingTx, s.pendingTransport, s.pendingDestroy, s.transport,
    s.tpSends, s.resolvedServer, s.pendingSend)

theorem Sound.base (h : Sound s) (hcore : s'.core = s.core) : Base s s' := by
  simp only [Tsx.core, Prod.mk.injEq] at hcore
  obtain ⟨hr, hi, hst, hp, htx, hpt, hpd, ht, hn, hrs, hps⟩ := hcore
  exact ⟨hr, hi, hst, hp, h.frame hr hi hst hp htx hpt hpd ht hn hrs hps⟩

/-- Without a pending transport no call of `send_msg_callback` is awaited. -/
theorem Sound.pendingTx_none (h : Sound s) (hpt : s.pendingTransport = false) :
    s.pendingTx = none := by
  cases hp : s.pendingTx with
  | none => rfl
  | some m =>
      have h1 := (h.pendingTx (by rw [hp]; rfl)).1
      rw [hpt] at h1
      cases h1

theorem Sound.startRetransmit (h : Sound s) : Stay s s.startRetransmit := by
  unfold Tsx.startRetransmit
  split
  · exact ⟨h.base rfl, id⟩
  · exact ⟨h.base rfl, id⟩

theorem Sound.reschedRetransmission (env : Env) (h : Sound s) :
    Stay s (s.reschedRetransmission env) := by
  have hite : ∀ msec, Stay s (if msec = 0 then s else s.scheduleRetransmit) := by
    intro msec
    split
    · exact Stay.refl h
    · exact ⟨h.base rfl, id⟩
  exact hite _

/-! ## `tsx_set_state` -/

/-- The transaction has not ended, or does not need to resolve its server any more. -/
def CanEnter (s : Tsx) : Prop :=
  s.state.rank < State.terminated.rank ∨ s.resolvedServer = true ∧ s.pendingTx = none

theorem CanEnter.startRetransmit (h : CanEnter s) : CanEnter s.startRetransmit := by
  unfold Tsx.startRetransmit
  split
  · exact h
  · exact h

theorem Sound.enter (h : Sound s) {st : State} (ha : allowed s.role s.invite st)
    (htx : s.pendingTx.isSome = true → st.rank < State.terminated.rank)
    (hend : State.terminated.rank ≤ st.rank → s.pendingTransport = false)
    (hc : st.rank < State.terminated.rank → CanEnter s) :
    Sound (s.enter st) := by
  refine ⟨⟨s.path, rfl⟩, fun st' hst' => ?_, fun hp => ⟨(h.pendingTx hp).1, htx hp⟩, fun hlt => ?_,
    hend, h.pendingDestroy, h.clientTransport, fun hr hlt hps => ?_⟩
  · rcases List.mem_cons.mp hst' with rfl | hst'
    · exact ha
    · exact h.states st' hst'
  · rcases hc hlt with h1 | h1
    · exact h.tpSends h1
    · exact Or.inr (Or.inl h1)
  · rcases hc hlt with h1 | h1
    · exact h.clientSend hr h1 hps
    · exact Or.inl h1.1

theorem allowed_terminated (role : Role) (invite : Bool) : allowed role invite .terminated := by
  cases role
  · exact ⟨nofun, nofun⟩
  · exact ⟨nofun, nofun⟩

theorem allowed_destroyed (role : Role) (invite : Bool) : allowed role invite .destroyed := by
  cases role
  · exact ⟨nofun, nofun⟩
  · exact ⟨nofun, nofun⟩

/-- After `tsx_set_state` for TERMINATED nothing waits for the transport any more. -/
theorem term_onTerminated (h : Sound s) :
    Term s (s.enter .terminated).onTerminated := by
  have hsound : ∀ s1 : Tsx, s1.pendingTx = none → s1.pendingTransport = false → s1.role = s.role →
      s1.invite = s.invite → s1.state = .terminated → s1.path = .terminated :: s.path →
      s1.pendingDestroy = s.pendingDestroy → s1.transport = s.transport → s1.tpSends = s.tpSends →
      s1.resolvedServer = s.resolvedServer → Sound s1 := by
    intro s1 htx hpt hr hi hst hp hpd ht hn hrs
    constructor
    · exact ⟨s.path, by rw [hp, hst]⟩
    · intro st' hst'
      rw [hp] at hst'
      rw [hr, hi]
      rcases List.mem_cons.mp hst' with rfl | hst'
      · exact allowed_terminated _ _
      · exact h.states st' hst'
    · rw [htx]
      nofun
    · intro hlt
      rw [hst] at hlt
      exact absurd hlt (Nat.lt_irrefl _)
    · exact fun _ => hpt
    · exact hpd.trans h.pendingDestroy
    · rw [hr, ht, hn, hrs]
      exact h.clientTransport
    · intro _ hlt
      rw [hst] at hlt
      exact absurd hlt (Nat.lt_irrefl _)
  unfold Tsx.onTerminated
  split
  · exact ⟨rfl, rfl, rfl, rfl, rfl, hsound _ rfl rfl rfl rfl rfl rfl rfl rfl rfl rfl⟩
  · rename_i hpt
    have hpt : s.pendingTransport = false := Bool.eq_false_iff.mpr hpt
    have htx : s.pendingTx = none := h.pendingTx_none hpt
    exact ⟨rfl, rfl, rfl, rfl, rfl, hsound _ htx hpt rfl rfl rfl rfl rfl rfl rfl rfl⟩

/-- The transaction user only counts, or terminates the transaction. -/
theorem informTu_cases (env : Env) (h : Sound s) :
    Stay s (s.informTu env) ∧ (s.informTu env).timeoutTimer = s.timeoutTimer ∨
      s.state.rank < State.terminated.rank ∧ Term s (s.informTu env) := by
  have hcount : Stay s { s with notified := s.notified + 1 } :=
    ⟨h.base rfl, id⟩
  unfold Tsx.informTu
  split
  · exact Or.inl ⟨hcount, rfl⟩
  · rename_i code _
    unfold Tsx.terminate
    split
    · rename_i hlt
      have hcode : Base s { s with notified := s.notified + 1, statusCode := code } := h.base rfl
      exact Or.inr ⟨hlt.2, hcode.term (term_onTerminated hcode.sound)⟩
    · exact Or.inl ⟨hcount, rfl⟩

/-- The transaction user cannot terminate a transaction that has ended. -/
theorem informTu_of_ended (env : Env) (h : State.terminated.rank ≤ s.state.rank) :
    s.informTu env = { s with notified := s.notified + 1 } := by
  unfold Tsx.informTu
  split
  · rfl
  · unfold Tsx.terminate
    exact if_neg fun hlt => absurd hlt.2 (Nat.not_lt.mpr h)

/-- `tsx_set_state` for TERMINATED. -/
theorem term_setState (env : Env) (h : Sound s) (notify : Bool) :
    Term s (tsxSetState env s .terminated notify) := by
  unfold tsxSetState
  dsimp only
  split
  · rw [informTu_of_ended env (Nat.le_refl _)]
    have hcount : Base s { s with notified := s.notified + 1 } := h.base rfl
    exact hcount.term (term_onTerminated hcount.sound)
  · exact term_onTerminated h

/-- The transaction has entered the state `st`, and the transaction user may have terminated it
then. -/
structure Entered (s : Tsx) (st : State) (s' : Tsx) : Prop where
  role : s'.role = s.role
  invite : s'.invite = s.invite
  sound : Sound s'
  cases : (s'.state = st ∧ s'.path = st :: s.path ∧ s'.timeoutTimer = s.timeoutTimer) ∨
    (s'.state = .terminated ∧ s'.path = .terminated :: st :: s.path ∧
      s'.timeoutTimer = ⟨timeoutTimerId, true⟩)

/-- `tsx_set_state` for a state before TERMINATED. -/
theorem entered_setState (env : Env) (h : Sound s) {st : State} (notify : Bool)
    (hst : st.rank < State.terminated.rank) (ha : allowed s.role s.invite st)
    (hc : CanEnter s) :
    Entered s st (tsxSetState env s st notify) := by
  have h1 : Sound (s.enter st) := h.enter ha (fun _ => hst)
    (fun hle => absurd hst (Nat.not_lt.mpr hle)) fun _ => hc
  have heq : tsxSetState env s st notify =
      if notify then (s.enter st).informTu env else s.enter st := by
    cases st with
    | terminated => exact absurd hst (Nat.lt_irrefl _)
    | destroyed => exact absurd hst (by decide)
    | _ => rfl
  rw [heq]
  split
  · rcases informTu_cases env h1 with ⟨hs, ht⟩ | ⟨_, ht⟩
    · exact ⟨hs.base.role, hs.base.invite, hs.base.sound,
        Or.inl ⟨hs.base.state, hs.base.path, ht⟩⟩
    · exact ⟨ht.role, ht.invite, ht.sound, Or.inr ⟨ht.state, ht.path, ht.timer⟩⟩
  · exact ⟨rfl, rfl, h1, Or.inl ⟨rfl, rfl, rfl⟩⟩

/-- `tsx_set_state` for DESTROYED. -/
theorem destroyed_setState (env : Env) (h : Sound s)
    (hend : State.terminated.rank ≤ s.state.rank) (notify : Bool) :
    Base (s.enter .destroyed) (tsxSetState env s .destroyed notify) := by
  have hpt := h.ended hend
  have htx : s.pendingTx = none := h.pendingTx_none hpt
  have h1 : Sound (s.enter .destroyed) :=
    h.enter (allowed_destroyed _ _) (by rw [htx]; nofun) (fun _ => hpt)
      fun hlt => absurd hlt (by decide)
  have hsound : ∀ n, Sound (Tsx.shutdown { s.enter .destroyed with notified := n }) := by
    intro n
    refine ⟨h1.path, h1.states, h1.pendingTx, h1.tpSends, h1.ended, ?_, fun hr hs => ?_,
      fun _ hlt => absurd hlt (by decide : ¬ State.destroyed.rank < State.terminated.rank)⟩
    · show (s.pendingDestroy || s.pendingTransport) = false
      rw [h.pendingDestroy, hpt]
      rfl
    · rcases hs with hs | hs
      · cases hs
      · exact h.clientTransport hr (Or.inr hs)
  unfold tsxSetState
  dsimp only
  split
  · rw [informTu_of_ended env (by decide : State.terminated.rank ≤ State.destroyed.rank)]
    exact ⟨rfl, rfl, rfl, rfl, hsound _⟩
  · exact ⟨rfl, rfl, rfl, rfl, hsound _⟩

/-! ## Sending -/

theorem Stay.term (h : Stay s s') (h' : Term s' s'') : Term s s'' := h.base.term h'

/-- What does not touch the timeout timer of a terminated transaction. -/
theorem Term.frame (h : Term s s') (hb : Base s' s'') (ht : s''.timeoutTimer = s'.timeoutTimer) :
    Term s s'' :=
  ⟨hb.role.trans h.role, hb.invite.trans h.invite, hb.state.trans h.state, by rw [hb.path, h.path],
    ht.trans h.timer, hb.sound⟩

theorem Term.pendingTx (h : Term s s') : s'.pendingTx = none := by
  cases hp : s'.pendingTx with
  | none => rfl
  | some m =>
      have hlt := (h.sound.pendingTx (by rw [hp]; rfl)).2
      rw [h.state] at hlt
      exact absurd hlt (Nat.lt_irrefl _)

theorem setState_terminated (env : Env) (s : Tsx) :
    (tsxSetState env s .terminated true).transportErr = s.transportErr ∧
      (tsxSetState env s .terminated true).resolvedServer = s.resolvedServer := by
  unfold tsxSetState
  dsimp only
  rw [if_pos rfl, informTu_of_ended env (Nat.le_refl _)]
  unfold Tsx.onTerminated
  split
  · exact ⟨rfl, rfl⟩
  · exact ⟨rfl, rfl⟩

/-- The transport fails for good. -/
theorem term_sendElsewhere (env : Env) (h : Sound s) (hres : s.resolvedServer = true)
    (resolve : Tsx → Msg → Tsx × Nat) (m : Msg) (status : Nat) :
    Term s (sendElsewhere env resolve s m status).1 ∧
      (sendElsewhere env resolve s m status).1.resolvedServer = true ∧
      (sendElsewhere env resolve s m status).2 ≠ 0 := by
  unfold sendElsewhere
  rw [if_pos hres]
  refine ⟨?_, ?_, ?_⟩
  · have hcode : Base s { s with statusCode := scTransportError } := h.base rfl
    exact hcode.term (term_setState env hcode.sound true)
  · rw [(setState_terminated env _).2]
    exact hres
  · dsimp only
    split
    · exact Nat.one_ne_zero
    · assumption

/-- The transport of the transaction is given up. -/
theorem Sound.releaseTransport (h : Sound s) :
    Stay s { s with attempts := s.attempts + 1, transport := none, resAddr := false } := by
  refine ⟨⟨rfl, rfl, rfl, rfl, h.path, h.states, h.pendingTx, h.tpSends, h.ended, h.pendingDestroy,
    fun hr hs => ?_, h.clientSend⟩, id⟩
  rcases hs with hs | hs
  · cases hs
  · exact h.clientTransport hr (Or.inr hs)

theorem Sound.attempt (h : Sound s) : Stay s { s with attempts := s.attempts + 1 } :=
  ⟨h.base rfl, id⟩

/-- A transport has been given a message. -/
theorem Sound.attemptHand (h : Sound s) (m : Msg) :
    Stay s (Tsx.hand { s with attempts := s.attempts + 1 } m) :=
  ⟨h.base rfl, id⟩

/-- A message is being sent with the transport of the transaction. -/
theorem Sound.tpSend (h : Sound s) (hlt : s.state.rank < State.terminated.rank)
    (hpt : s.pendingTransport = false) (ht : s.transport.isSome = true) (m : Msg) :
    Stay s { Tsx.hand { s with attempts := s.attempts + 1 } m with
      pendingTransport := true
      tpSends := s.tpSends + 1 } := by
  refine ⟨⟨rfl, rfl, rfl, rfl, h.path, h.states, fun hp => ⟨rfl, (h.pendingTx hp).2⟩, fun _ => ?_,
    fun hle => absurd hlt (Nat.not_lt.mpr hle), h.pendingDestroy,
    fun hr _ => h.clientTransport hr (Or.inl ht), fun _ _ _ => Or.inr rfl⟩, id⟩
  rcases h.tpSends hlt with h1 | h1 | h1
  · refine Or.inr (Or.inr ⟨?_, rfl, h.pendingTx_none hpt⟩)
    show s.tpSends + 1 = 1
    rw [h1]
  · exact Or.inr (Or.inl h1)
  · rw [hpt] at h1
    cases h1.2.1

/-- The message waits for the transport. -/
theorem Sound.deferSend (h : Sound s) (hpt : s.pendingTransport = true) :
    Stay s { s with pendingSend := true } :=
  ⟨⟨rfl, rfl, rfl, rfl, h.path, h.states, h.pendingTx, h.tpSends, h.ended, h.pendingDestroy,
    h.clientTransport, fun _ _ _ => Or.inr hpt⟩, id⟩

/-- Whether `tsx_send_msg` turns to the resolution of the server. -/
def Tsx.resolves (env : Env) (s : Tsx) : Bool :=
  !s.pendingTransport && !(env.attempt s.attempts).isPending && !s.resolvedServer &&
    match s.transport with
    | none => true
    | some _ =>
        match (env.attempt s.attempts).tpSend with
        | .error _ => true
        | _ => false

/-- What `tsx_send_msg` does: it sends the message now or later, it terminates the transaction, or
it resolves the server. -/
inductive SendCases (env : Env) (resolve : Attempt → Tsx → Msg → Tsx × Nat) (s : Tsx) (m : Msg)
    (r : Tsx × Nat) : Prop where
  | stay (h : Stay s r.1) (ok : r.2 = 0) (pendingTx : r.1.pendingTx = s.pendingTx)
  | term (h : Term s r.1) (resolved : r.1.resolvedServer = true) (err : r.2 ≠ 0)
  | resolve (h : s.resolves env = true) (s1 : Tsx) (stay : Stay s s1)
      (pendingSend : s1.pendingSend = s.pendingSend) (lastTx : s1.lastTx = s.lastTx)
      (tpSends : s1.tpSends = s.tpSends)
      (eq : r = resolve (env.attempt s.attempts) s1 m)

theorem sendElsewhere_cases (env : Env) (resolve : Attempt → Tsx → Msg → Tsx × Nat) {s1 : Tsx}
    (h : Stay s s1) (hps : s1.pendingSend = s.pendingSend) (hl : s1.lastTx = s.lastTx)
    (hn : s1.tpSends = s.tpSends) (hrs : s1.resolvedServer = s.resolvedServer)
    (hres : s.resolvedServer = false → s.resolves env = true) (m : Msg) (status : Nat) :
    SendCases env resolve s m
      (sendElsewhere env (resolve (env.attempt s.attempts)) s1 m status) := by
  cases hrv : s.resolvedServer with
  | true =>
      have hterm := term_sendElsewhere env h.base.sound (hrs.trans hrv)
        (resolve (env.attempt s.attempts)) m status
      exact .term (h.term hterm.1) hterm.2.1 hterm.2.2
  | false =>
      refine .resolve (hres hrv) s1 h hps hl hn ?_
      unfold sendElsewhere
      rw [hrs, hrv, if_neg Bool.false_ne_true]

theorem sendMsgWith_cases (env : Env) (resolve : Attempt → Tsx → Msg → Tsx × Nat) (h : Sound s)
    (hlt : s.state.rank < State.terminated.rank) (m : Msg) :
    SendCases env resolve s m (sendMsgWith env resolve s (some m)) := by
  unfold sendMsgWith
  dsimp only
  by_cases hpt : s.pendingTransport = true
  · rw [if_pos hpt]
    exact .stay (h.deferSend hpt) rfl rfl
  · rw [if_neg hpt]
    have hpt : s.pendingTransport = false := Bool.eq_false_iff.mpr hpt
    by_cases hp : (env.attempt s.attempts).isPending = true
    · rw [if_pos hp]
      exact .stay (h.attemptHand m) rfl rfl
    · rw [if_neg hp]
      have hp : (env.attempt s.attempts).isPending = false := Bool.eq_false_iff.mpr hp
      split
      · rename_i ht
        refine sendElsewhere_cases env resolve h.attempt rfl rfl rfl rfl (fun hrv => ?_) m 0
        unfold Tsx.resolves
        rw [hpt, hp, hrv, ht]
        rfl
      · rename_i tp ht
        split
        · exact .stay (h.attemptHand m) rfl rfl
        · exact .stay (h.tpSend hlt hpt (by rw [ht]; rfl) m) rfl rfl
        · rename_i e hs
          refine sendElsewhere_cases env resolve h.releaseTransport rfl rfl rfl rfl (fun hrv => ?_)
            m (e + 1)
          unfold Tsx.resolves
          rw [hpt, hp, hrv, ht, hs]
          rfl

/-! ## `send_msg_callback` -/

/-- No message is left to be sent that `send_msg_callback` would send while `tsx_send_msg` resolves
the server. -/
def NoStale (s : Tsx) : Prop :=
  ¬ (s.pendingSend = true ∧ s.pendingTransport = false ∧ s.resolvedServer = false ∧
    s.lastTx.isSome = true)

theorem sendMsgResolved_cases (env : Env) (h : Sound s)
    (hlt : s.state.rank < State.terminated.rank) (hres : s.resolvedServer = true)
    (tdata : Option Msg) :
    let s' := (sendMsgResolved env s tdata).1
    (Stay s s' ∧ s'.pendingTx = s.pendingTx) ∨
      (Term s s' ∧ s'.resolvedServer = true ∧ tdata.isSome = true) := by
  cases tdata with
  | none => exact Or.inl ⟨Stay.refl h, rfl⟩
  | some m =>
      cases sendMsgWith_cases env (fun _ s _ => (s, 0)) h hlt m with
      | stay hs _ htx => exact Or.inl ⟨hs, htx⟩
      | term ht hrs _ => exact Or.inr ⟨ht, hrs, rfl⟩
      | resolve hr _ _ _ _ _ _ =>
          unfold Tsx.resolves at hr
          rw [hres] at hr
          simp at hr

theorem reschedRetransmission_timer (env : Env) (s : Tsx) :
    (s.reschedRetransmission env).timeoutTimer = s.timeoutTimer ∧
      (s.reschedRetransmission env).pendingTx = s.pendingTx ∧
      (s.reschedRetransmission env).resolvedServer = s.resolvedServer := by
  have hite : ∀ msec, (if msec = 0 then s else s.scheduleRetransmit).timeoutTimer = s.timeoutTimer ∧
      (if msec = 0 then s else s.scheduleRetransmit).pendingTx = s.pendingTx ∧
      (if msec = 0 then s else s.scheduleRetransmit).resolvedServer = s.resolvedServer := by
    intro msec
    split
    · exact ⟨rfl, rfl, rfl⟩
    · exact ⟨rfl, rfl, rfl⟩
  exact hite _

/-- The end of `afterSent` sets the retransmit timer only. -/
theorem afterSent_resched (env : Env) (h : Sound s) :
    let s' := if s.pendingResched then
        if s.isReliable then { s with pendingResched := false }
        else Tsx.reschedRetransmission env { s with pendingResched := false }
      else s
    Stay s s' ∧ s'.timeoutTimer = s.timeoutTimer ∧ s'.pendingTx = s.pendingTx ∧
      s'.resolvedServer = s.resolvedServer := by
  have h1 : Stay s { s with pendingResched := false } :=
    ⟨h.base rfl, id⟩
  dsimp only
  split
  · split
    · exact ⟨h1, rfl, rfl, rfl⟩
    · exact ⟨h1.trans (h1.base.sound.reschedRetransmission env),
        reschedRetransmission_timer env _⟩
  · exact ⟨Stay.refl h, rfl, rfl, rfl⟩

/-- The message has been sent, and the one that waits is sent now. -/
theorem afterSent_cases (env : Env) (h : Sound s) (hlt : s.state.rank < State.terminated.rank)
    (hres : s.resolvedServer = true) :
    (Stay s (afterSent env s) ∧ (afterSent env s).pendingTx = s.pendingTx) ∨
      (Term s (afterSent env s) ∧ (afterSent env s).resolvedServer = true ∧
        s.pendingSend = true ∧ s.lastTx.isSome = true) := by
  have hfirst : let s1 := if s.pendingSend then
        (sendMsgResolved env { s with pendingSend := false } s.lastTx).1 else s
      (Stay s s1 ∧ s1.pendingTx = s.pendingTx) ∨
        (Term s s1 ∧ s1.resolvedServer = true ∧ s.pendingSend = true ∧
          s.lastTx.isSome = true) := by
    dsimp only
    split
    · rename_i hps
      have h0 : Stay s { s with pendingSend := false } :=
        ⟨⟨rfl, rfl, rfl, rfl, h.path, h.states, h.pendingTx, h.tpSends, h.ended, h.pendingDestroy,
          h.clientTransport, fun _ _ => nofun⟩, id⟩
      rcases sendMsgResolved_cases env h0.base.sound hlt hres s.lastTx with
        ⟨hs, htx⟩ | ⟨ht, hrs, hl⟩
      · exact Or.inl ⟨h0.trans hs, htx⟩
      · exact Or.inr ⟨h0.term ht, hrs, hps, hl⟩
    · exact Or.inl ⟨Stay.refl h, rfl⟩
  unfold afterSent
  dsimp only at hfirst ⊢
  generalize (if s.pendingSend then
    (sendMsgResolved env { s with pendingSend := false } s.lastTx).1 else s) = s1 at hfirst ⊢
  rcases hfirst with ⟨hs, htx⟩ | ⟨ht, hrs, hps, hl⟩
  · have hr := afterSent_resched env hs.base.sound
    exact Or.inl ⟨hs.trans hr.1, hr.2.2.1.trans htx⟩
  · have hr := afterSent_resched env ht.sound
    exact Or.inr ⟨ht.frame hr.1.base hr.2.1, hr.2.2.2.trans hrs, hps, hl⟩

/-- What `send_msg_callback` does: the transaction goes on, waits for the next address, or is
terminated. -/
inductive CbCases (s s' : Tsx) : Prop where
  | stay (h : Stay s s') (pendingTx : s'.pendingTx = none)
  | next (h : Stay s s') (pendingSend : s'.pendingSend = s.pendingSend)
      (lastTx : s'.lastTx = s.lastTx)
  | term (h : Term s s') (resolved : s'.resolvedServer = true)
      (err : s'.transportErr ≠ 0 ∨ s.pendingSend = true ∧ s.lastTx.isSome = true)

theorem sendFailed_cases (env : Env) (h : Sound s) (hlt : s.state.rank < State.terminated.rank)
    (htx : s.pendingTx = none) (e : Nat) (noServer : Bool) :
    CbCases s (sendFailed env s e noServer) := by
  have hne : s.state ≠ .terminated ∧ s.state ≠ .destroyed := by
    constructor
    · intro hst
      rw [hst] at hlt
      exact absurd hlt (Nat.lt_irrefl _)
    · intro hst
      rw [hst] at hlt
      exact absurd hlt (by decide)
  have h1 : Base s { s with
      transportErr := e + 1
      pendingTransport := false
      resolvedServer := true
      statusCode := if noServer then scBadGateway else scTransportError } := by
    refine ⟨rfl, rfl, rfl, rfl, h.path, h.states, ?_, fun _ => Or.inr (Or.inl ⟨rfl, htx⟩),
      fun _ => rfl, h.pendingDestroy, fun _ _ => rfl, fun _ _ _ => Or.inl rfl⟩
    dsimp only
    rw [htx]
    nofun
  unfold sendFailed
  dsimp only
  rw [if_pos hne]
  refine .term (h1.term (term_setState env h1.sound true)) (setState_terminated env _).2 (Or.inl ?_)
  rw [(setState_terminated env _).1]
  exact Nat.succ_ne_zero e

/-- The message has been sent: no transport is pending, and a client transaction may have one. -/
theorem Sound.resolved (h : Sound s) {s1 : Tsx} (hr : s1.role = s.role) (hi : s1.invite = s.invite)
    (hst : s1.state = s.state) (hp : s1.path = s.path) (htx : s1.pendingTx = none)
    (hpd : s1.pendingDestroy = s.pendingDestroy) :
    Sound { s1 with pendingTransport := false, resolvedServer := true } := by
  refine ⟨?_, ?_, ?_, fun _ => Or.inr (Or.inl ⟨rfl, htx⟩), fun _ => rfl,
    hpd.trans h.pendingDestroy, fun _ _ => rfl, fun _ _ _ => Or.inl rfl⟩
  · dsimp only
    rw [hp, hst]
    exact h.path
  · dsimp only
    rw [hp, hr, hi]
    exact h.states
  · dsimp only
    rw [htx]
    nofun

theorem sendMsgCallback_cases (env : Env) (h : Sound s)
    (hlt : s.state.rank < State.terminated.rank) (cb : SendCb) :
    CbCases s (sendMsgCallback env s cb) := by
  unfold sendMsgCallback
  split
  · rename_i htx
    exact .stay (Stay.refl h) htx
  · rename_i m hm
    have hpt : s.pendingTransport = true := (h.pendingTx (by rw [hm]; rfl)).1
    -- A message waits for an address, so no send to a transport is outstanding.
    have htps : s.tpSends = 0 := by
      rcases h.tpSends hlt with h1 | h1 | h1
      · exact h1
      · rw [hm] at h1
        cases h1.2
      · rw [hm] at h1
        cases h1.2.2
    dsimp only
    split
    · rename_i tp
      have h1 : ∀ s1 : Tsx, s1.role = s.role → s1.invite = s.invite → s1.state = s.state →
          s1.path = s.path → s1.pendingTx = none → s1.pendingDestroy = s.pendingDestroy →
          (s.timeoutTimer.running = true → s1.timeoutTimer.running = true) →
          Stay s { s1 with pendingTransport := false, resolvedServer := true } :=
        fun s1 hr hi hst hp htx hpd ht =>
          ⟨⟨hr, hi, hst, hp, h.resolved hr hi hst hp htx hpd⟩, ht⟩
      have h2 : ∀ s1 : Tsx, Stay s { s1 with pendingTransport := false, resolvedServer := true } →
          s1.pendingTx = none → s1.pendingSend = s.pendingSend → s1.lastTx = s.lastTx →
          CbCases s (if s1.pendingDestroy then
            tsxSetState env { s1 with pendingTransport := false, resolvedServer := true } .destroyed true
          else afterSent env { s1 with pendingTransport := false, resolvedServer := true }) := by
        intro s1 hs1 htx hps hl
        have hpd : s1.pendingDestroy = false := hs1.base.sound.pendingDestroy
        rw [if_neg (by rw [hpd]; exact Bool.false_ne_true)]
        have hlt1 : s1.state.rank < State.terminated.rank := by
          have hst : s1.state = s.state := hs1.base.state
          rw [hst]
          exact hlt
        rcases afterSent_cases env hs1.base.sound hlt1 rfl with
          ⟨hs2, htx2⟩ | ⟨ht2, hrs2, hps2, hl2⟩
        · exact .stay (hs1.trans hs2) (htx2.trans htx)
        · refine .term (hs1.term ht2) hrs2 (Or.inr ⟨hps.symm.trans hps2, ?_⟩)
          rw [← hl]
          exact hl2
      split
      · exact h2 (Tsx.hand { s with pendingTx := none } m) (h1 _ rfl rfl rfl rfl rfl rfl id) rfl rfl rfl
      · unfold Tsx.updateTransport
        dsimp only
        split
        · refine h2 { Tsx.postTransportErr
            { Tsx.hand { s with pendingTx := none } m with transport := some tp.id }
              scTransportError with isReliable := tp.reliable } ?_ rfl rfl rfl
          exact h1 _ rfl rfl rfl rfl rfl rfl fun _ => rfl
        · refine h2 { Tsx.hand { s with pendingTx := none } m with
            transport := some tp.id
            isReliable := tp.reliable } ?_ rfl rfl rfl
          exact h1 _ rfl rfl rfl rfl rfl rfl id
    · rename_i e noServer tp cont
      have h1 : ∀ t : Option Nat, t = s.transport ∨ t = none →
          Stay s { s with pendingTx := none, transport := t } := by
        intro t ht
        refine ⟨⟨rfl, rfl, rfl, rfl, h.path, h.states, nofun, fun _ => Or.inl htps, h.ended,
          h.pendingDestroy, fun hr hs => ?_, h.clientSend⟩, id⟩
        rcases ht with rfl | rfl
        · exact h.clientTransport hr hs
        · rcases hs with hs | hs
          · cases hs
          · exact h.clientTransport hr (Or.inr hs)
      have h2 : ∀ t : Option Nat, t = s.transport ∨ t = none →
          CbCases s (if !cont || s.pendingDestroy then
            sendFailed env { s with pendingTx := none, transport := t } e noServer
          else
            { (if s.timeoutTimer.id = timerInactive then
                { s with pendingTx := none, transport := t, retransmitCount := 0 }
              else Tsx.resetTimeout
                { s with pendingTx := none, transport := t, retransmitCount := 0 } timeoutTimerId) with
              pendingTx := some m }) := by
        intro t ht
        have hs1 := h1 t ht
        split
        · cases sendFailed_cases env hs1.base.sound hlt rfl e noServer with
          | stay hs htx => exact .stay (hs1.trans hs) htx
          | next hs hps hl => exact .next (hs1.trans hs) hps hl
          | term ht hrs err => exact .term (hs1.term ht) hrs err
        · have hsound : ∀ (timer : Entry), Sound { s with
              pendingTx := some m
              transport := t
              retransmitCount := 0
              timeoutTimer := timer } := fun timer =>
            ⟨h.path, h.states, fun _ => ⟨hpt, hlt⟩, fun _ => Or.inl htps, h.ended,
              h.pendingDestroy, hs1.base.sound.clientTransport, h.clientSend⟩
          split
          · exact .next ⟨⟨rfl, rfl, rfl, rfl, hsound _⟩, id⟩ rfl rfl
          · exact .next ⟨⟨rfl, rfl, rfl, rfl, hsound _⟩, fun _ => rfl⟩ rfl rfl
      split
      · exact h2 none (Or.inr rfl)
      · exact h2 s.transport (Or.inl rfl)

theorem foldl_sendMsgCallback_none (env : Env) (l : List SendCb) (htx : s.pendingTx = none) :
    l.foldl (sendMsgCallback env) s = s := by
  induction l with
  | nil => rfl
  | cons cb l ih =>
      have hcb : sendMsgCallback env s cb = s := by
        unfold sendMsgCallback
        rw [htx]
      rw [List.foldl_cons, hcb]
      exact ih

/-- The calls that `send_msg_callback` gets before the resolution returns. -/
theorem foldl_sendMsgCallback_cases (env : Env) (l : List SendCb) :
    ∀ s, Sound s → s.state.rank < State.terminated.rank →
      let s' := l.foldl (sendMsgCallback env) s
      Stay s s' ∨ (Term s s' ∧ s'.resolvedServer = true ∧
        (s'.transportErr ≠ 0 ∨ s.pendingSend = true ∧ s.lastTx.isSome = true)) := by
  induction l with
  | nil => exact fun s h _ => Or.inl (Stay.refl h)
  | cons cb l ih =>
      intro s h hlt
      dsimp only
      rw [List.foldl_cons]
      cases sendMsgCallback_cases env h hlt cb with
      | stay hs htx =>
          rw [foldl_sendMsgCallback_none env l htx]
          exact Or.inl hs
      | next hs hps hl =>
          have hlt1 : (sendMsgCallback env s cb).state.rank < State.terminated.rank := by
            rw [hs.base.state]
            exact hlt
          rcases ih _ hs.base.sound hlt1 with h1 | ⟨h1, hrs, herr⟩
          · exact Or.inl (hs.trans h1)
          · rw [hps, hl] at herr
            exact Or.inr ⟨hs.term h1, hrs, herr⟩
      | term ht hrs err =>
          rw [foldl_sendMsgCallback_none env l ht.pendingTx]
          exact Or.inr ⟨ht, hrs, err⟩

/-! ## `tsx_send_msg` -/

/-- Whether the resolution of the server fails at once. -/
def Tsx.resolutionErrs (env : Env) (s : Tsx) : Bool :=
  s.resolves env &&
    match (env.attempt s.attempts).resolution with
    | .error _ => true
    | .calls _ => false

theorem resolution_of_error {a : Attempt} {s : Tsx} {m : Msg} {e : Nat}
    (h : a.resolutionFor s m = .error e) : a.resolution = .error e := by
  unfold Attempt.resolutionFor at h
  split at h
  · rename_i e' he
    split at h
    · cases h
    · rw [he, h]
  · cases h

/-- What the callers of `tsx_send_msg` can rely on. -/
structure Sent (env : Env) (s : Tsx) (r : Tsx × Nat) : Prop where
  cases : Stay s r.1 ∨ Term s r.1 ∧ r.1.resolvedServer = true
  ok : r.2 = 0 → NoStale s → Stay s r.1
  err : r.2 ≠ 0 → Term s r.1 ∨ s.resolutionErrs env = true

/-- A transaction that has to resolve its server is not sending. -/
theorem Sound.tpSends_of_resolves {env : Env} (h : Sound s) (hlt : s.state.rank < State.terminated.rank)
    (hres : s.resolves env = true) : s.tpSends = 0 := by
  unfold Tsx.resolves at hres
  simp only [Bool.and_eq_true, Bool.not_eq_true'] at hres
  rcases h.tpSends hlt with h1 | h1 | h1
  · exact h1
  · rw [hres.1.2] at h1
    cases h1.1
  · rw [hres.1.1.1] at h1
    cases h1.2.1

/-- The message is being resolved. -/
theorem Sound.resolving (h : Sound s) (hlt : s.state.rank < State.terminated.rank)
    (hn : s.tpSends = 0) (m : Msg) : Sound { s with pendingTx := some m, pendingTransport := true } :=
  ⟨h.path, h.states, fun _ => ⟨rfl, hlt⟩, fun _ => Or.inl hn,
    fun hle => absurd hlt (Nat.not_lt.mpr hle), h.pendingDestroy, h.clientTransport,
    fun _ _ _ => Or.inr rfl⟩

theorem tsxSendMsg_spec (env : Env) (h : Sound s) (hlt : s.state.rank < State.terminated.rank)
    (m : Msg) : Sent env s (tsxSendMsg env s (some m)) := by
  unfold tsxSendMsg
  cases sendMsgWith_cases env (resolveServer env) h hlt m with
  | stay hs hok _ => exact ⟨Or.inl hs, fun _ _ => hs, fun hne => absurd hok hne⟩
  | term ht hrs herr => exact ⟨Or.inr ⟨ht, hrs⟩, fun hok => absurd hok herr, fun _ => Or.inl ht⟩
  | resolve hr s1 hs1 hps hl hn heq =>
      have hlt1 : s1.state.rank < State.terminated.rank := by
        rw [hs1.base.state]
        exact hlt
      have hr' := hr
      unfold Tsx.resolves at hr'
      simp only [Bool.and_eq_true, Bool.not_eq_true'] at hr'
      have htps : s1.tpSends = 0 := hn.trans (h.tpSends_of_resolves hlt hr)
      rw [heq]
      unfold resolveServer
      dsimp only
      cases ha : (env.attempt s.attempts).resolutionFor
          { s1 with pendingTx := some m, pendingTransport := true } m with
      | error e =>
          have hs2 : Stay s1 { s1 with pendingTx := none, pendingTransport := true } := by
            have hsd := hs1.base.sound
            exact ⟨⟨rfl, rfl, rfl, rfl, hsd.path, hsd.states, nofun, fun _ => Or.inl htps,
              fun hle => absurd hlt1 (Nat.not_lt.mpr hle), hsd.pendingDestroy, hsd.clientTransport,
              fun _ _ _ => Or.inr rfl⟩, id⟩
          refine ⟨Or.inl (hs1.trans hs2), fun hok => absurd hok (Nat.succ_ne_zero e),
            fun _ => Or.inr ?_⟩
          unfold Tsx.resolutionErrs
          rw [hr, resolution_of_error ha]
          rfl
      | calls l =>
          have hs2 : Stay s1 { s1 with pendingTx := some m, pendingTransport := true } :=
            ⟨⟨rfl, rfl, rfl, rfl, hs1.base.sound.resolving hlt1 htps m⟩, id⟩
          have hnostale : NoStale s → ¬ (s1.pendingSend = true ∧ s1.lastTx.isSome = true) := by
            rintro hno ⟨hp, hlast⟩
            rw [hps] at hp
            rw [hl] at hlast
            exact hno ⟨hp, hr'.1.1.1, hr'.1.2, hlast⟩
          rcases foldl_sendMsgCallback_cases env l _ hs2.base.sound hlt1 with
            h3 | ⟨h3, hrs, herr⟩
          · have h4 := hs1.trans (hs2.trans h3)
            refine ⟨Or.inl h4, fun _ _ => h4, fun hne => ?_⟩
            -- Without an end of the transaction the status is success.
            have hst : (l.foldl (sendMsgCallback env)
                { s1 with pendingTx := some m, pendingTransport := true }).state ≠ .terminated := by
              rw [h4.base.state]
              intro hst
              rw [hst] at hlt
              exact absurd hlt (Nat.lt_irrefl _)
            dsimp only at hne
            rw [if_neg hst] at hne
            exact absurd rfl hne
          · have h4 := hs1.term (hs2.term h3)
            refine ⟨Or.inr ⟨h4, hrs⟩, fun hok hno => ?_, fun _ => Or.inl h4⟩
            dsimp only at hok
            rw [if_pos h4.state] at hok
            rcases herr with herr | herr
            · exact absurd hok herr
            · exact absurd herr (hnostale hno)

theorem tsxRetransmit_cases (env : Env) (h : Sound s) (hlt : s.state.rank < State.terminated.rank)
    (resched : Bool) :
    Stay s (tsxRetransmit env s resched).1 ∨ Term s (tsxRetransmit env s resched).1 := by
  unfold tsxRetransmit
  split
  · exact Or.inl (Stay.refl h)
  · split
    · exact Or.inl (Stay.refl h)
    · rename_i hl
      dsimp only
      have h1 : Stay s { s with retransmitCount := s.retransmitCount + 1 } :=
        ⟨h.base rfl, id⟩
      have h2 : Stay s (if resched then
          if s.pendingTransport then
            { s with retransmitCount := s.retransmitCount + 1, pendingResched := true }
          else Tsx.reschedRetransmission env { s with retransmitCount := s.retransmitCount + 1 }
        else { s with retransmitCount := s.retransmitCount + 1 }) := by
        split
        · split
          · exact ⟨h.base rfl, id⟩
          · exact h1.trans (h1.base.sound.reschedRetransmission env)
        · exact h1
      generalize (if resched then
          if s.pendingTransport then
            { s with retransmitCount := s.retransmitCount + 1, pendingResched := true }
          else Tsx.reschedRetransmission env { s with retransmitCount := s.retransmitCount + 1 }
        else { s with retransmitCount := s.retransmitCount + 1 }) = s2 at h2 ⊢
      cases hm : s2.lastTx with
      | none => exact Or.inl h2
      | some m =>
          have hlt2 : s2.state.rank < State.terminated.rank := by
            rw [h2.base.state]
            exact hlt
          rcases (tsxSendMsg_spec env h2.base.sound hlt2 m).cases with h3 | h3
          · exact Or.inl (h2.trans h3)
          · exact Or.inr (h2.term h3.1)

end Sip
