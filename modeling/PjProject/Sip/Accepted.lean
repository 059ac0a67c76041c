import PjProject.Sip.Handover

set_option autoImplicit false

/-! # What a handler does to the messages of a transaction

For every event but a message of the transaction user: the messages that wait stay as they are
(`Flow`), and so do the last message and the final responses that have been reported (`Quiet`), as long
as the transaction does not enter a state in which it answers with the last message.
-/

namespace Sip

open Timer Machine

variable {p : Prop} {s s1 s' s'' : Tsx} {st : State}

/-! ## What is kept -/

/-- A state in which nothing is answered with the last message. -/
def State.idle : State → Bool
  | .trying | .confirmed | .terminated | .destroyed => true
  | _ => false

/-- The last message and the reports are the same. -/
structure Quiet (s s' : Tsx) : Prop where
  invite : s'.invite = s.invite
  last : s'.lastTx = s.lastTx ∨ s'.state = .destroyed ∧ s'.lastTx = none
  finals : s'.finals = s.finals
  state : s'.state = s.state ∨ s'.state.idle = true

theorem Quiet.refl (s : Tsx) : Quiet s s := ⟨rfl, Or.inl rfl, rfl, Or.inl rfl⟩

theorem Quiet.lastTx (h : Quiet s s') (hne : s'.state ≠ .destroyed) : s'.lastTx = s.lastTx :=
  h.last.resolve_right fun hd => hne hd.1

/-- What happens before a handler changes the state. -/
theorem Quiet.after (hl : s1.lastTx = s.lastTx) (hf : s1.finals = s.finals)
    (hst : s1.state = s.state) (hi : s1.invite = s.invite) (h : Quiet s1 s') : Quiet s s' := by
  refine ⟨h.invite.trans hi, ?_, h.finals.trans hf, ?_⟩
  · rw [← hl]
    exact h.last
  · rw [← hst]
    exact h.state

theorem SetTo.quiet (h : SetTo s st s') (hidle : st.idle = true) : Quiet s s' := by
  refine ⟨h.same.invite, Or.inl h.same.lastTx, h.same.finals, Or.inr ?_⟩
  rcases h.cases with ⟨hst, _⟩ | ⟨hst, _⟩
  · rw [hst]
    exact hidle
  · rw [hst]
    rfl

theorem SendSpec.flow {env : Env} {m : Msg} {r : Tsx × Nat} (h : SendSpec env s m r) (ha : AddrOk s)
    (hno : p → s.requestErrs env m = false) : Flow p s r.1 := by
  refine ⟨h.grow, fun hp => h.flagged ha (hno hp), fun hpt => Or.inl ?_⟩
  rw [h.waits hpt]
  exact ⟨rfl, rfl, rfl, fun _ => rfl, fun _ => rfl⟩

/-- A message that is sent leaves the state, or the transaction is terminated. -/
theorem quiet_sendMsg (env : Env) (h : Sound s) (hlt : s.state.rank < State.terminated.rank)
    (m : Msg) : Quiet s (tsxSendMsg env s (some m)).1 := by
  have honly := (send_spec env h hlt m).only
  have hcases := (tsxSendMsg_spec env h hlt m).cases
  generalize tsxSendMsg env s (some m) = r at honly hcases ⊢
  rcases hcases with h1 | ⟨h1, _⟩
  · exact ⟨h1.base.invite, Or.inl honly.lastTx, honly.finals, Or.inl h1.base.state⟩
  · refine ⟨h1.invite, Or.inl honly.lastTx, honly.finals, Or.inr ?_⟩
    rw [h1.state]
    rfl

/-- All but the timers, their counter and `TSX_HAS_PENDING_RESCHED` is the same. -/
structure Same (s s' : Tsx) : Prop where
  untouched : Untouched s s'
  state : s'.state = s.state
  path : s'.path = s.path
  status : s'.statusCode = s.statusCode
  pendingTransport : s'.pendingTransport = s.pendingTransport
  pendingTx : s'.pendingTx = s.pendingTx
  pendingDestroy : s'.pendingDestroy = s.pendingDestroy

theorem Untouched.refl (s : Tsx) : Untouched s s :=
  ⟨rfl, rfl, rfl, rfl, rfl, rfl, rfl, rfl, rfl, rfl, rfl⟩

theorem Same.refl (s : Tsx) : Same s s := ⟨Untouched.refl s, rfl, rfl, rfl, rfl, rfl, rfl⟩

theorem same_timers (s : Tsx) (resched : Bool) (count : Nat) (retransmit timeout : Entry) :
    Same s { s with
      pendingResched := resched
      retransmitCount := count
      retransmitTimer := retransmit
      timeoutTimer := timeout } :=
  ⟨⟨rfl, rfl, rfl, rfl, rfl, rfl, rfl, rfl, rfl, rfl, rfl⟩, rfl, rfl, rfl, rfl, rfl, rfl⟩

theorem Same.trans (h : Same s s') (h' : Same s' s'') : Same s s'' :=
  ⟨h.untouched.trans h'.untouched, h'.state.trans h.state, h'.path.trans h.path,
    h'.status.trans h.status, h'.pendingTransport.trans h.pendingTransport,
    h'.pendingTx.trans h.pendingTx, h'.pendingDestroy.trans h.pendingDestroy⟩

theorem Same.flow (h : Same s s') : Flow p s s' :=
  Flow.frame h.untouched.role h.state h.path h.untouched.handed h.pendingTransport h.pendingTx
    h.untouched.tpSends h.untouched.resolvedServer h.untouched.transport h.untouched.resAddr
    h.untouched.pendingSend (fun _ => h.untouched.lastTx) (by rw [h.status]; exact id)

theorem Same.grow (h : Same s s') : Grow s s' := (h.flow (p := True)).toGrow

theorem Same.sound (h : Same s s') (hs : Sound s) : Sound s' :=
  hs.frame h.untouched.role h.untouched.invite h.state h.path h.pendingTx h.pendingTransport
    h.pendingDestroy h.untouched.transport h.untouched.tpSends h.untouched.resolvedServer
    h.untouched.pendingSend

theorem Same.quiet (h : Same s s1) (hq : Quiet s1 s') : Quiet s s' :=
  hq.after h.untouched.lastTx h.untouched.finals h.state h.untouched.invite

theorem Same.requestErrs (h : Same s s') (env : Env) (m : Msg) :
    s'.requestErrs env m = s.requestErrs env m := by
  unfold Tsx.requestErrs Tsx.resolutionErrs Tsx.resolves
  rw [h.pendingTransport, h.untouched.attempts, h.untouched.resolvedServer, h.untouched.transport,
    h.untouched.role]

theorem Same.canEnter (h : Same s s') (hc : CanEnter s) : CanEnter s' := by
  unfold CanEnter at hc ⊢
  rw [h.state, h.untouched.resolvedServer, h.pendingTx]
  exact hc

theorem same_startRetransmit (s : Tsx) : Same s s.startRetransmit := by
  unfold Tsx.startRetransmit
  split
  · exact same_timers s _ _ _ _
  · exact same_timers s _ _ _ _

theorem same_resched (env : Env) (s : Tsx) : Same s (s.reschedRetransmission env) := by
  have hite : ∀ msec, Same s (if msec = 0 then s else s.scheduleRetransmit) := by
    intro msec
    split
    · exact Same.refl s
    · exact same_timers s _ _ _ _
  exact hite _

/-! ## Retransmissions -/

/-- What `tsx_retransmit` sets before it sends the last message. -/
def Tsx.retransmits (env : Env) (s : Tsx) (resched : Bool) : Tsx :=
  let s := { s with retransmitCount := s.retransmitCount + 1 }
  if resched then
    if s.pendingTransport then { s with pendingResched := true } else s.reschedRetransmission env
  else s

theorem same_retransmits (env : Env) (s : Tsx) (resched : Bool) :
    Same s (s.retransmits env resched) := by
  have hcount : Same s { s with retransmitCount := s.retransmitCount + 1 } :=
    same_timers s _ _ _ _
  unfold Tsx.retransmits
  dsimp only
  split
  · split
    · exact same_timers s _ _ _ _
    · exact hcount.trans (same_resched env _)
  · exact hcount

/-- `tsx_retransmit` sends the last message. -/
theorem tsxRetransmit_eq (env : Env) {m : Msg} (hl : s.lastTx = some m) {resched : Bool}
    (hr : (resched && s.retransmitTimer.running) = false) :
    tsxRetransmit env s resched = tsxSendMsg env (s.retransmits env resched) (some m) := by
  have hlast : (s.retransmits env resched).lastTx = some m :=
    (same_retransmits env s resched).untouched.lastTx.trans hl
  unfold tsxRetransmit
  rw [hr, if_neg Bool.false_ne_true, if_neg (by rw [hl]; nofun), ← hlast]
  rfl

theorem tsxRetransmit_none (env : Env) (hl : s.lastTx = none) (resched : Bool) :
    (tsxRetransmit env s resched).1 = s := by
  unfold tsxRetransmit
  rw [if_pos hl]
  split
  · rfl
  · rfl

/-- A retransmission of the last message. -/
theorem flow_retransmit (env : Env) (h : Sound s) (hlt : s.state.rank < State.terminated.rank)
    (ha : AddrOk s) (hno : ∀ m, s.lastTx = some m → p → s.requestErrs env m = false) (resched : Bool) :
    Flow p s (tsxRetransmit env s resched).1 ∧ Quiet s (tsxRetransmit env s resched).1 := by
  cases hl : s.lastTx with
  | none =>
      rw [tsxRetransmit_none env hl]
      exact ⟨Flow.refl s, Quiet.refl s⟩
  | some m =>
      by_cases hr : (resched && s.retransmitTimer.running) = true
      · unfold tsxRetransmit
        rw [if_pos hr]
        exact ⟨Flow.refl s, Quiet.refl s⟩
      · rw [tsxRetransmit_eq env hl (Bool.eq_false_iff.mpr hr)]
        have hsame := same_retransmits env s resched
        have hlt1 : (s.retransmits env resched).state.rank < State.terminated.rank := by
          rw [hsame.state]
          exact hlt
        have hspec := send_spec env (hsame.sound h) hlt1 m
        exact ⟨hsame.flow.trans (hspec.flow (hsame.grow.addr ha)
          fun hp => (hsame.requestErrs env m).trans (hno m hl hp)),
          hsame.quiet (quiet_sendMsg env (hsame.sound h) hlt1 m)⟩

/-! ## Events -/

/-- Both what waits and what has been reported are kept. -/
def Keeps (p : Prop) (s s' : Tsx) : Prop := Flow p s s' ∧ Quiet s s'

theorem Keeps.refl (s : Tsx) : Keeps p s s := ⟨Flow.refl s, Quiet.refl s⟩

theorem Same.keeps (h : Same s s1) (hk : Keeps p s1 s') : Keeps p s s' :=
  ⟨h.flow.trans hk.1, h.quiet hk.2⟩

/-- `tsx_set_state` for a state in which nothing is answered. -/
theorem keeps_setState (env : Env) (s : Tsx) (hst : st ≠ .destroyed) (hidle : st.idle = true)
    (notify : Bool) (hc : st.rank < State.terminated.rank → CanEnter s) :
    Keeps p s (tsxSetState env s st notify) :=
  ⟨(setTo_setState env s hst notify).flow hc, (setTo_setState env s hst notify).quiet hidle⟩

/-- The status is set, and the transaction is terminated. -/
theorem keeps_terminate (env : Env) (s : Tsx) {code : Nat} (hcode : 100 ≤ code) (notify : Bool) :
    Keeps p s (tsxSetState env { s with statusCode := code } .terminated notify) := by
  have hflow : Flow p s { s with statusCode := code } :=
    Flow.frame rfl rfl rfl rfl rfl rfl rfl rfl rfl rfl rfl (fun _ => rfl) fun _ => hcode
  have hkeep := keeps_setState (p := p) env { s with statusCode := code } (by decide : State.terminated ≠ .destroyed)
    rfl notify fun hlt => absurd hlt (Nat.lt_irrefl _)
  refine ⟨hflow.trans hkeep.1, Quiet.after ?_ ?_ ?_ ?_ hkeep.2⟩
  · rfl
  · rfl
  · rfl
  · rfl

/-- A transaction that has ended is destroyed. -/
theorem keeps_destroy (env : Env) (hpt : s.pendingTransport = false) (notify : Bool) :
    Keeps p s (tsxSetState env s .destroyed notify) := by
  have hshut : ∀ n : Nat, Keeps p s (Tsx.shutdown { s.enter .destroyed with notified := n }) := by
    intro n
    refine ⟨⟨⟨rfl, ⟨[], rfl⟩, ⟨[.destroyed], rfl⟩, id, fun _ _ hlt => ?_⟩, fun _ _ hpt' => ?_,
      fun hpt' => ?_⟩, ⟨rfl, Or.inr ⟨rfl, rfl⟩, rfl, Or.inr rfl⟩⟩
    · exact absurd hlt (by decide : ¬ State.destroyed.rank < State.terminated.rank)
    · have hpt' : s.pendingTransport = true := hpt'
      rw [hpt] at hpt'
      cases hpt'
    · rw [hpt] at hpt'
      cases hpt'
  unfold tsxSetState
  dsimp only
  split
  · rw [informTu_of_ended env (by decide : State.terminated.rank ≤ State.destroyed.rank)]
    exact hshut _
  · exact hshut _

theorem keeps_terminated (env : Env) (h : Sound s) (hst : s.state = .terminated) (event : Event) :
    Keeps p s (tsxOnStateTerminated env s event).1 := by
  have hpt : s.pendingTransport = false := h.ended (by rw [hst])
  cases event with
  | retransmit => exact keeps_destroy env hpt true
  | timeout => exact keeps_destroy env hpt true
  | _ => exact Keeps.refl s

theorem keeps_confirmed (env : Env) (s : Tsx) (event : Event) :
    Keeps p s (tsxOnStateConfirmed env s event).1 := by
  cases event with
  | timeout =>
      exact keeps_setState env s (by decide) rfl true fun hlt => absurd hlt (Nat.lt_irrefl _)
  | _ => exact Keeps.refl s

theorem keeps_completedUas (env : Env) (h : Sound s) (hst : s.state = .completed) (ha : AddrOk s)
    (hno : ∀ m, s.lastTx = some m → p → s.requestErrs env m = false) (event : Event) :
    Keeps p s (tsxOnStateCompletedUas env s event).1 := by
  have hlt : s.state.rank < State.terminated.rank := by
    rw [hst]
    decide
  unfold tsxOnStateCompletedUas
  split
  · exact flow_retransmit env h hlt ha hno false
  · split
    · have hsame : Same s (Tsx.resetTimeout { s.cancelRetransmit with pendingResched := false }
          timeoutTimerId) := same_timers s _ _ _ _
      exact hsame.keeps (keeps_setState env _ (by decide : State.confirmed ≠ .destroyed) rfl true
        fun _ => hsame.canEnter (Or.inl hlt))
    · exact Keeps.refl s
  · exact Keeps.refl s
  · exact flow_retransmit env h hlt ha hno true
  · dsimp only
    split
    · exact keeps_terminate env s (by decide) true
    · exact keeps_setState env s (by decide) rfl true fun hlt => absurd hlt (Nat.lt_irrefl _)
  · exact Keeps.refl s

theorem keeps_completedUac (env : Env) (h : Sound s) (hst : s.state = .completed) (ha : AddrOk s)
    (event : Event)
    (hno : ∀ code ack m, event = .rxResponse code ack → s.invite = true → 200 ≤ code.val →
      s.lastTx = some m → p → s.requestErrs env m = false) :
    Keeps p s (tsxOnStateCompletedUac env s event).1 := by
  have hlt : s.state.rank < State.terminated.rank := by
    rw [hst]
    decide
  unfold tsxOnStateCompletedUac
  split
  · exact keeps_setState env s (by decide) rfl true fun hlt => absurd hlt (Nat.lt_irrefl _)
  · exact Keeps.refl s
  · rename_i code ack
    split
    · rename_i hgo
      rcases Bool.and_eq_true_iff.mp hgo with ⟨hi, hcode⟩
      exact flow_retransmit env h hlt ha
        (fun m hl => hno code ack m rfl hi (of_decide_eq_true hcode) hl) false
    · exact Keeps.refl s
  · exact Keeps.refl s
  · exact Keeps.refl s

/-- In PROCEEDING a server transaction answers a request with the last response. -/
theorem keeps_proceedingUas (env : Env) (h : Sound s) (hlt : s.state.rank < State.terminated.rank)
    (ha : AddrOk s) (hno : ∀ m, s.lastTx = some m → p → s.requestErrs env m = false) (event : Event)
    (htx : ∀ m, event ≠ .tx m) : Keeps p s (tsxOnStateProceedingUas env s event).1 := by
  unfold tsxOnStateProceedingUas
  split
  · rename_i m
    exact absurd rfl (htx m)
  · exact flow_retransmit env h hlt ha hno true
  · exact keeps_terminate env s (by decide) true
  · split
    · exact Keeps.refl s
    · split
      · rename_i hpt
        refine ⟨⟨⟨rfl, ⟨[], rfl⟩, ⟨[], rfl⟩, id, id⟩, fun _ => id, fun _ => Or.inl ?_⟩,
          ⟨rfl, Or.inl rfl, rfl, Or.inl rfl⟩⟩
        exact ⟨rfl, rfl, rfl, fun _ => rfl, fun _ => rfl⟩
      · cases hl : s.lastTx with
        | none => exact Keeps.refl s
        | some m => exact ⟨(send_spec env h hlt m).flow ha (hno m hl), quiet_sendMsg env h hlt m⟩

/-- An event that is no message of the transaction user, for a server transaction. -/
theorem keeps_uas (env : Env) (h : Sound s) (hr : s.role = .uas) (ha : AddrOk s)
    (hno : ∀ m, s.lastTx = some m → p → s.requestErrs env m = false) (event : Event)
    (htx : s.state = .trying ∨ s.state = .proceeding → ∀ m, event ≠ .tx m)
    (hd : dispatch env s event = .ok s') : Keeps p s s' := by
  unfold dispatch at hd
  rw [hr] at hd
  cases hst : s.state with
  | null =>
      rw [hst] at hd
      cases hd
      show Keeps p s (tsxOnStateNull env s event).1
      unfold tsxOnStateNull
      rw [hr]
      refine keeps_setState env s (by decide : State.trying ≠ .destroyed) rfl true fun _ => Or.inl ?_
      rw [hst]
      decide
  | calling =>
      rw [hst] at hd
      cases hd
  | trying =>
      rw [hst] at hd
      cases hd
      show Keeps p s (tsxOnStateTrying env s event).1
      cases event with
      | tx m => exact absurd rfl (htx (Or.inl hst) m)
      | _ => exact Keeps.refl s
  | proceeding =>
      rw [hst] at hd
      cases hd
      exact keeps_proceedingUas env h (by rw [hst]; decide) ha hno event (htx (Or.inr hst))
  | completed =>
      rw [hst] at hd
      cases hd
      exact keeps_completedUas env h hst ha hno event
  | confirmed =>
      rw [hst] at hd
      cases hd
      exact keeps_confirmed env s event
  | terminated =>
      rw [hst] at hd
      cases hd
      exact keeps_terminated env h hst event
  | destroyed =>
      rw [hst] at hd
      cases hd
      exact Keeps.refl s

/-! ## Client transactions -/

/-- A provisional response has been reported. -/
def Provisional (s s' : Tsx) : Prop :=
  s'.lastTx = s.lastTx ∧ s'.finals = s.finals ∧ (s'.state = .proceeding ∨ s'.state.idle = true)

/-- A final response has been reported; the last message of an INVITE transaction that waits for
retransmissions of it is its ACK. -/
def Reported (s s' : Tsx) : Prop :=
  ∃ code ack, s'.finals = (code, ack) :: s.finals ∧ (s'.state.idle = true ∨ s'.state = .completed ∧
    (s.invite = true → 300 ≤ code.val ∧ ack.isSome = true ∧ s'.lastTx = ack))

/-- What a response comes to. -/
structure Response (p : Prop) (s s' : Tsx) : Prop where
  flow : Flow p s s'
  invite : s'.invite = s.invite
  cases : Quiet s s' ∨ Provisional s s' ∨ Reported s s'

/-- What happens before the response is looked at. -/
theorem Response.after (h : Flow p s s1) (hl : s1.lastTx = s.lastTx) (hf : s1.finals = s.finals)
    (hst : s1.state = s.state) (hi : s1.invite = s.invite) (hr : Response p s1 s') : Response p s s' := by
  refine ⟨h.trans hr.flow, hr.invite.trans hi, ?_⟩
  rcases hr.cases with hq | hp | ⟨code, ack, hf', hst'⟩
  · exact Or.inl (Quiet.after hl hf hst hi hq)
  · exact Or.inr (Or.inl ⟨hp.1.trans hl, hp.2.1.trans hf, hp.2.2⟩)
  · refine Or.inr (Or.inr ⟨code, ack, by rw [hf', hf], ?_⟩)
    rw [← hi]
    exact hst'

theorem flow_report (s : Tsx) (code : Code) (ack : Option Msg) : Flow p s (s.report code ack) :=
  Flow.frame rfl rfl rfl rfl rfl rfl rfl rfl rfl rfl rfl (fun _ => rfl) id

/-- A final response completes a client transaction; the ACK is kept for its retransmissions. -/
theorem response_completeUac (env : Env) (hr : s.role = .uac) (hc : CanEnter s) (code : Code)
    (ack : Option Msg) (hack : s.invite = true → 300 ≤ code.val ∧ ack.isSome = true) :
    Response p s (completeUac env s code ack) := by
  have hset := setTo_setState env (s.report code ack) (by decide : State.completed ≠ .destroyed) true
  have hflow : Flow p s (tsxSetState env (s.report code ack) .completed true) :=
    (flow_report s code ack).trans (hset.flow fun _ => hc)
  have hstate : (tsxSetState env (s.report code ack) .completed true).state = .completed ∨
      (tsxSetState env (s.report code ack) .completed true).state.idle = true := by
    rcases hset.cases with ⟨hst, _⟩ | ⟨hst, _⟩
    · exact Or.inl hst
    · refine Or.inr ?_
      rw [hst]
      rfl
  have hinv : (tsxSetState env (s.report code ack) .completed true).invite = s.invite :=
    hset.same.invite
  have hrole : (tsxSetState env (s.report code ack) .completed true).role = .uac :=
    hset.same.role.trans hr
  have hfin : (tsxSetState env (s.report code ack) .completed true).finals =
      (code, ack) :: s.finals := hset.same.finals
  unfold completeUac
  dsimp only
  generalize tsxSetState env (s.report code ack) .completed true = s2 at hflow hstate hinv hrole hfin ⊢
  split
  · have hlast : Flow p s2 (Tsx.resetTimeout { s2 with lastTx := ack } timeoutTimerId) :=
      Flow.frame rfl rfl rfl rfl rfl rfl rfl rfl rfl rfl rfl (fun hu => by rw [hrole] at hu; cases hu)
        id
    refine ⟨hflow.trans hlast, hinv, Or.inr (Or.inr ⟨code, ack, hfin, ?_⟩)⟩
    rcases hstate with hst | hst
    · exact Or.inr ⟨hst, fun hi => ⟨(hack hi).1, (hack hi).2, rfl⟩⟩
    · exact Or.inl hst
  · rename_i hno
    have htimer : Flow p s2 (s2.resetTimeout timeoutTimerId) := (same_timers s2 _ _ _ _).flow
    refine ⟨hflow.trans htimer, hinv, Or.inr (Or.inr ⟨code, ack, hfin, ?_⟩)⟩
    rcases hstate with hst | hst
    · exact Or.inr ⟨hst, fun hi => absurd (hinv.trans hi) hno⟩
    · exact Or.inl hst

/-- **A response** that is received in CALLING or PROCEEDING. -/
theorem response_proceedingUac (env : Env) (h : Sound s) (ha : AddrOk s) (hr : s.role = .uac)
    (hlt : s.state.rank < State.terminated.rank) (code : Code) (ack : Option Msg)
    (hno : ∀ m, ack = some m → s.invite = true → 300 ≤ code.val → p →
      s.requestErrs env m = false) :
    Response p s (proceedingUacResponse env s code ack).1 := by
  have hcode : Flow p s { s with statusCode := code.val } :=
    Flow.frame rfl rfl rfl rfl rfl rfl rfl rfl rfl rfl rfl (fun _ => rfl) fun _ => code.property.1
  unfold proceedingUacResponse
  dsimp only
  split
  -- A provisional response.
  · have hset := setTo_setState env { s with statusCode := code.val }
      (by decide : State.proceeding ≠ .destroyed) true
    refine ⟨hcode.trans (hset.flow fun _ => Or.inl hlt), hset.same.invite,
      Or.inr (Or.inl ⟨hset.same.lastTx, hset.same.finals, ?_⟩)⟩
    rcases hset.cases with ⟨hst, _⟩ | ⟨hst, _⟩
    · exact Or.inl hst
    · refine Or.inr ?_
      rw [hst]
      rfl
  · split
    -- A 2xx response, which ends a transaction of INVITE.
    · have hrep : Flow p s (Tsx.report (Tsx.cancelTimeout { s with statusCode := code.val }) code none) :=
        hcode.trans ((same_timers _ _ _ _ _).flow.trans (flow_report _ code none))
      split
      · have hset := setTo_setState env
          (Tsx.report (Tsx.cancelTimeout { s with statusCode := code.val }) code none)
          (by decide : State.terminated ≠ .destroyed) true
        refine ⟨hrep.trans (hset.flow fun hlt => absurd hlt (Nat.lt_irrefl _)), hset.same.invite,
          Or.inr (Or.inr ⟨code, none, hset.same.finals, Or.inl ?_⟩)⟩
        rcases hset.cases with ⟨hst, _⟩ | ⟨hst, _⟩
        · rw [hst]
          rfl
        · rw [hst]
          rfl
      · rename_i hi
        have hset := setTo_setState env (Tsx.cancelRetransmit (Tsx.scheduleTimeout
          (Tsx.report (Tsx.cancelTimeout { s with statusCode := code.val }) code none) timeoutTimerId))
          (by decide : State.completed ≠ .destroyed) true
        refine ⟨hrep.trans ((same_timers _ _ _ _ _).flow.trans (hset.flow fun _ => Or.inl hlt)),
          hset.same.invite, Or.inr (Or.inr ⟨code, none, hset.same.finals, ?_⟩)⟩
        rcases hset.cases with ⟨hst, _⟩ | ⟨hst, _⟩
        · exact Or.inr ⟨hst, fun hi' => absurd hi' hi⟩
        · refine Or.inl ?_
          rw [hst]
          rfl
    -- A failure, which INVITE acknowledges.
    · rename_i h1 h2
      have h300 : 300 ≤ code.val := by
        have := code.property
        omega
      have hstop : Flow p s (Tsx.cancelTimeout (Tsx.cancelRetransmit { s with statusCode := code.val })) :=
        hcode.trans (same_timers _ _ _ _ _).flow
      have hb : Base s (Tsx.cancelTimeout (Tsx.cancelRetransmit { s with statusCode := code.val })) :=
        h.base rfl
      split
      · rename_i hi
        split
        · exact ⟨hstop, rfl, Or.inl ⟨rfl, Or.inl rfl, rfl, Or.inl rfl⟩⟩
        · rename_i m
          have hspec := send_spec env hb.sound hlt m
          have hquiet := quiet_sendMsg env hb.sound hlt m
          have hnostale := hb.sound.noStale hr hlt
          have hsent := tsxSendMsg_spec env hb.sound hlt m
          have hflow := hspec.flow (hstop.addr ha) (hno m rfl hi h300)
          generalize tsxSendMsg env (Tsx.cancelTimeout (Tsx.cancelRetransmit
            { s with statusCode := code.val })) (some m) = r at hquiet hflow hsent ⊢
          split
          · refine ⟨hstop.trans hflow, hquiet.invite, Or.inl (Quiet.after ?_ ?_ ?_ ?_ hquiet)⟩
            · rfl
            · rfl
            · rfl
            · rfl
          · rename_i hok
            have hstay := hsent.ok (not_not.mp hok) hnostale
            have hc : CanEnter r.1 := by
              refine Or.inl ?_
              rw [hstay.base.state]
              exact hlt
            have hne : r.1.state ≠ .destroyed := by
              rw [hstay.base.state]
              intro heq
              have heq : s.state = .destroyed := heq
              rw [heq] at hlt
              exact absurd hlt (by decide)
            exact Response.after (hstop.trans hflow) (hquiet.lastTx hne) hquiet.finals
              hstay.base.state hquiet.invite (response_completeUac env (hflow.role.trans hr) hc code
                (some m) fun _ => ⟨h300, rfl⟩)
      · rename_i hi
        refine Response.after hstop ?_ ?_ ?_ ?_ ?_
        · rfl
        · rfl
        · rfl
        · rfl
        · exact response_completeUac (s := Tsx.cancelTimeout (Tsx.cancelRetransmit
            { s with statusCode := code.val })) env hr (Or.inl hlt) code ack fun hi' => absurd hi' hi

theorem same_stopForResponse (s : Tsx) (code : Code) :
    Same s { s.stopForResponse code with pendingResched := false } := by
  unfold Tsx.stopForResponse
  dsimp only
  split
  · split
    · exact same_timers s _ _ _ _
    · exact same_timers s _ _ _ _
  · split
    · exact same_timers s _ _ _ _
    · split
      · exact same_timers s _ _ _ _
      · exact same_timers s _ _ _ _

/-- The request of a client transaction. -/
theorem flow_nullUac (env : Env) (h : Sound s) (ha : AddrOk s) (hr : s.role = .uac)
    (hst : s.state = .null) (m : Msg) (hno : p → s.requestErrs env m = false) :
    let r := tsxOnStateNull env s (.tx m)
    Flow p s r.1 ∧ r.1.invite = s.invite ∧ r.1.lastTx = some m ∧ r.1.finals = s.finals ∧
      (r.1.state = .null ∨ r.1.state = .calling ∨ r.1.state.idle = true) ∧
      (p → r.1.state ≠ .null) ∧ (s.pendingTransport = false → r.2 = 0 → Placed r.1 m) := by
  have hlt : s.state.rank < State.terminated.rank := by
    rw [hst]
    decide
  have hlast : Flow p s { s with lastTx := some m } :=
    Flow.frame rfl rfl rfl rfl rfl rfl rfl rfl rfl rfl rfl (fun hu => by rw [hr] at hu; cases hu) id
  have h1 : Sound { s with lastTx := some m } :=
    h.frame rfl rfl rfl rfl rfl rfl rfl rfl rfl rfl rfl
  have hspec := send_spec env h1 hlt m
  have hsent := tsxSendMsg_spec env h1 hlt m
  have hflow := hspec.flow (p := p) (hlast.addr ha) hno
  unfold tsxOnStateNull
  split
  · rename_i hu
    rw [hr] at hu
    cases hu
  dsimp only
  generalize tsxSendMsg env { s with lastTx := some m } (some m) = r at hspec hsent hflow ⊢
  split
  · rename_i hne
    -- The message is not sent.
    refine ⟨hlast.trans hflow, ?_, hspec.only.lastTx, hspec.only.finals, ?_, fun hp => ?_,
      fun _ hok => absurd hok hne⟩
    · rcases hsent.cases with h2 | ⟨h2, _⟩
      · exact h2.base.invite
      · exact h2.invite
    · rcases hsent.cases with h2 | ⟨h2, _⟩
      · exact Or.inl (h2.base.state.trans hst)
      · refine Or.inr (Or.inr ?_)
        rw [h2.state]
        rfl
    · rw [(hspec.err (hlast.addr ha) (hno hp) hne).state]
      nofun
  · rename_i hok
    -- It is sent or deferred.
    have hstay := hsent.ok (not_not.mp hok) (h1.noStale hr hlt)
    have hset : ∀ s2, Same r.1 s2 → Flow p s (tsxSetState env s2 .calling true) ∧
        (tsxSetState env s2 .calling true).invite = s.invite ∧
        (tsxSetState env s2 .calling true).lastTx = some m ∧
        (tsxSetState env s2 .calling true).finals = s.finals ∧
        ((tsxSetState env s2 .calling true).state = .null ∨
          (tsxSetState env s2 .calling true).state = .calling ∨
          (tsxSetState env s2 .calling true).state.idle = true) ∧
        (p → (tsxSetState env s2 .calling true).state ≠ .null) ∧
        (s.pendingTransport = false → 0 = 0 → Placed (tsxSetState env s2 .calling true) m) := by
      intro s2 hsame
      have hto := setTo_setState env s2 (by decide : State.calling ≠ .destroyed) true
      have hc : CanEnter s2 := by
        refine hsame.canEnter (Or.inl ?_)
        rw [hstay.base.state]
        exact hlt
      have hfl := (hsame.flow (p := p)).trans (hto.flow fun _ => hc)
      refine ⟨(hlast.trans hflow).trans hfl, ?_, ?_, ?_, ?_, fun _ => ?_, fun hpt _ => ?_⟩
      · rw [hto.same.invite, hsame.untouched.invite]
        exact hstay.base.invite
      · rw [hto.same.lastTx, hsame.untouched.lastTx]
        exact hspec.only.lastTx
      · rw [hto.same.finals, hsame.untouched.finals]
        exact hspec.only.finals
      · rcases hto.cases with ⟨hst', _⟩ | ⟨hst', _⟩
        · exact Or.inr (Or.inl hst')
        · refine Or.inr (Or.inr ?_)
          rw [hst']
          rfl
      · rcases hto.cases with ⟨hst', _⟩ | ⟨hst', _⟩
        · rw [hst']
          nofun
        · rw [hst']
          nofun
      · rcases hspec.placed hpt (not_not.mp hok) with hmem | hterm | htx
        · exact Or.inl (hfl.mem_handed hmem)
        · exact Or.inr (Or.inl (hfl.terminated hterm))
        · rcases hto.cases with ⟨_, _, htx', _⟩ | ⟨_, ⟨new, hp⟩, _⟩
          · exact Or.inr (Or.inr (htx'.trans (hsame.pendingTx.trans htx)))
          · refine Or.inr (Or.inl ?_)
            rw [hp]
            exact List.mem_cons_self
    split
    · exact hset _ (same_timers r.1 _ _ _ _)
    · have hcount : Same r.1 { r.1.resetTimeout timeoutTimerId with retransmitCount := 0 } :=
        same_timers r.1 _ _ _ _
      exact hset _ (hcount.trans (same_startRetransmit _))

/-! ## Messages of the transaction user -/

/-- The response `m` has been given to `tsx_send_msg`, and the transaction goes on with it. -/
structure Answer (s s' : Tsx) (m : Msg) : Prop where
  grow : Grow s s'
  flagged : Flagged s → Flagged s'
  invite : s'.invite = s.invite
  finals : s'.finals = s.finals
  last : s'.lastTx = some m ∨ s'.lastTx = s.lastTx
  state : s'.state = .terminated ∨
    (s'.state = .proceeding ∨ s'.state = .completed) ∧ s'.lastTx = some m
  waits : .terminated ∈ s'.path ∨ s'.pendingTx = s.pendingTx ∧
    s'.pendingTransport = s.pendingTransport ∧ s'.pendingSend = s.pendingSend ∧ s'.lastTx = some m

theorem grow_lastTx (s : Tsx) (tdata : Option Msg) : Grow s { s with lastTx := tdata } :=
  ⟨rfl, ⟨[], rfl⟩, ⟨[], rfl⟩, id, id⟩

theorem Same.setLast (h : Same s s1) (tdata : Option Msg) :
    Same { s with lastTx := tdata } { s1 with lastTx := tdata } :=
  ⟨⟨h.untouched.role, h.untouched.invite, rfl, h.untouched.finals, h.untouched.handed,
    h.untouched.pendingSend, h.untouched.tpSends, h.untouched.transport, h.untouched.resAddr,
    h.untouched.resolvedServer, h.untouched.attempts⟩, h.state, h.path, h.status,
    h.pendingTransport, h.pendingTx, h.pendingDestroy⟩

/-- The last response is saved and the state is set. -/
theorem SetTo.answer {m : Msg} (hsame : Same { s with lastTx := some m } s1) (h : SetTo s1 st s')
    (hst : st = .proceeding ∨ st = .completed) (hc : CanEnter s) : Answer s s' m := by
  have hc1 : CanEnter s1 := hsame.canEnter hc
  have hflow := (hsame.flow (p := True)).trans (h.flow fun _ => hc1)
  have hlast : s'.lastTx = some m := h.same.lastTx.trans hsame.untouched.lastTx
  refine ⟨(grow_lastTx s (some m)).trans hflow.toGrow, hflow.flagged trivial,
    h.same.invite.trans hsame.untouched.invite, h.same.finals.trans hsame.untouched.finals,
    Or.inl hlast, ?_, ?_⟩
  · rcases h.cases with ⟨hst', _⟩ | ⟨hst', _⟩
    · rw [hst']
      exact Or.inr ⟨hst, hlast⟩
    · exact Or.inl hst'
  · rcases h.cases with ⟨_, _, htx, hpt⟩ | ⟨_, ⟨new, hp⟩, _⟩
    · exact Or.inr ⟨htx.trans hsame.pendingTx, hpt.trans hsame.pendingTransport,
        h.same.pendingSend.trans hsame.untouched.pendingSend, hlast⟩
    · refine Or.inl ?_
      rw [hp]
      exact List.mem_cons_self

/-- What happens to the timers after the state is set. -/
theorem Answer.same {m : Msg} (h : Answer s s1 m) (hsame : Same s1 s') : Answer s s' m := by
  refine ⟨h.grow.trans hsame.grow, fun hf => (hsame.flow (p := True)).flagged trivial (h.flagged hf),
    hsame.untouched.invite.trans h.invite, hsame.untouched.finals.trans h.finals, ?_, ?_, ?_⟩
  · rw [hsame.untouched.lastTx]
    exact h.last
  · rw [hsame.state, hsame.untouched.lastTx]
    exact h.state
  · rw [hsame.path, hsame.pendingTx, hsame.pendingTransport, hsame.untouched.pendingSend,
      hsame.untouched.lastTx]
    exact h.waits

theorem answer_provisional (env : Env) (hc : CanEnter s) (m : Msg) :
    Answer s (provisionalSent env s m) m := by
  have hans : Answer s (tsxSetState env { s with lastTx := some m } .proceeding true) m :=
    (setTo_setState env { s with lastTx := some m } (by decide) true).answer (Same.refl _)
      (Or.inl rfl) hc
  unfold provisionalSent
  dsimp only
  generalize tsxSetState env { s with lastTx := some m } .proceeding true = s2 at hans ⊢
  split
  · have hcount : Same s2 { s2.cancelRetransmit with retransmitCount := 0 } := same_timers s2 _ _ _ _
    exact hans.same (hcount.trans (same_startRetransmit _))
  · exact hans

theorem answer_success (env : Env) (hc : CanEnter s) (m : Msg) : Answer s (successSent env s m) m := by
  have hcancel : Same s s.cancelRetransmit := same_timers s _ _ _ _
  have hset : ∀ s2, Same s s2 → Answer s (tsxSetState env
      (Tsx.resetTimeout { s2 with lastTx := some m } timeoutTimerId) .completed true) m := by
    intro s2 hsame
    have hlast : Same { s with lastTx := some m }
        (Tsx.resetTimeout { s2 with lastTx := some m } timeoutTimerId) :=
      (hsame.setLast (some m)).trans (same_timers _ _ _ _ _)
    exact (setTo_setState env _ (by decide) true).answer hlast (Or.inr rfl) hc
  unfold successSent
  dsimp only
  split
  · have hto := setTo_setState env s.cancelRetransmit (by decide : State.terminated ≠ .destroyed) true
    have hflow := (hcancel.flow (p := True)).trans (hto.flow fun hlt => absurd hlt (Nat.lt_irrefl _))
    refine ⟨hflow.toGrow, hflow.flagged trivial, hto.same.invite, hto.same.finals, Or.inr hto.same.lastTx,
      Or.inl ?_, Or.inl ?_⟩
    · rcases hto.cases with ⟨hst, _⟩ | ⟨hst, _⟩
      · exact hst
      · exact hst
    · rcases hto.cases with ⟨_, hp, _⟩ | ⟨_, ⟨new, hp⟩, _⟩
      · rw [hp]
        exact List.mem_cons_self
      · rw [hp]
        exact List.mem_cons_self
  · split
    · have hcount : Same s { s.cancelRetransmit with retransmitCount := 0 } := same_timers s _ _ _ _
      exact hset _ (hcount.trans (same_startRetransmit _))
    · exact hset _ hcancel

theorem answer_failure (env : Env) (hc : CanEnter s) (m : Msg) : Answer s (failureSent env s m) m := by
  have hlast : Same { s with lastTx := some m }
      (Tsx.resetTimeout { s.cancelRetransmit with lastTx := some m } timeoutTimerId) :=
    same_timers { s with lastTx := some m } _ _ _ _
  unfold failureSent
  dsimp only
  split
  · have hcount : Same { s with lastTx := some m } { Tsx.resetTimeout
        { s.cancelRetransmit with lastTx := some m } timeoutTimerId with retransmitCount := 0 } :=
      same_timers { s with lastTx := some m } _ _ _ _
    exact (setTo_setState env _ (by decide) true).answer
      (hcount.trans (same_startRetransmit _)) (Or.inr rfl) hc
  · exact (setTo_setState env _ (by decide) true).answer hlast (Or.inr rfl) hc

/-- What becomes of a message that the transaction user gives to a server transaction in TRYING or
PROCEEDING. -/
structure Taken (s : Tsx) (m : Msg) (r : Tsx × Nat) : Prop where
  grow : Grow s r.1
  flagged : Flagged s → Flagged r.1
  invite : r.1.invite = s.invite
  finals : r.1.finals = s.finals
  last : r.1.lastTx = some m ∧ m.code.isSome = true ∨ r.1.lastTx = s.lastTx ∨ r.1.lastTx = none
  response : r.2 = 0 → m.code.isSome = true
  refused : r.2 ≠ 0 → r.1 = s ∨ r.1.state = .terminated
  state : r.2 = 0 → r.1.state = .terminated ∨
    (r.1.state = .proceeding ∨ r.1.state = .completed) ∧ r.1.lastTx = some m
  placed : r.2 = 0 → Placed r.1 m ∨
    r.1.pendingSend = true ∧ r.1.pendingTransport = true ∧ r.1.lastTx = some m

/-- The response has been taken by `tsx_send_msg`, and the transaction goes on. -/
theorem Answer.taken {m : Msg} {s2 : Tsx} (hg : Grow s s1) (hf : Flagged s → Flagged s2)
    (hi : s2.invite = s.invite) (hfin : s2.finals = s.finals)
    (hl : s2.lastTx = s.lastTx ∨ s2.lastTx = none) (hg2 : Grow s1 s2) (hcode : m.code.isSome = true)
    (hp : Placed s2 m ∨ s2.pendingSend = true ∧ s2.pendingTransport = true)
    (h : Answer s2 s' m) : Taken s m (s', 0) := by
  refine ⟨(hg.trans hg2).trans h.grow, fun hf' => h.flagged (hf hf'), h.invite.trans hi,
    h.finals.trans hfin, ?_, fun _ => hcode, fun hne => absurd rfl hne, fun _ => h.state,
    fun _ => ?_⟩
  · rcases h.last with hlast | hlast
    · exact Or.inl ⟨hlast, hcode⟩
    · rw [← hlast] at hl
      exact Or.inr hl
  · rcases hp with (hmem | hterm | htx) | ⟨hps, hpt⟩
    · exact Or.inl (Or.inl (h.grow.mem_handed hmem))
    · exact Or.inl (Or.inr (Or.inl (h.grow.terminated hterm)))
    · rcases h.waits with hterm | ⟨htx', _⟩
      · exact Or.inl (Or.inr (Or.inl hterm))
      · exact Or.inl (Or.inr (Or.inr (htx'.trans htx)))
    · rcases h.waits with hterm | ⟨_, hpt', hps', hlast⟩
      · exact Or.inl (Or.inr (Or.inl hterm))
      · exact Or.inr ⟨hps'.trans hps, hpt'.trans hpt, hlast⟩

/-- **A response of the transaction user** in TRYING or PROCEEDING. -/
theorem taken_proceedingUas (env : Env) (h : Sound s) (ha : AddrOk s) (hr : s.role = .uas)
    (hlt : s.state.rank < State.terminated.rank) (m : Msg) : Taken s m (proceedingUasTx env s m) := by
  unfold proceedingUasTx
  split
  · exact ⟨Grow.refl s, id, rfl, rfl, Or.inr (Or.inl rfl), fun hok => absurd hok Nat.one_ne_zero,
      fun _ => Or.inl rfl, fun hok => absurd hok Nat.one_ne_zero, fun hok => absurd hok Nat.one_ne_zero⟩
  · rename_i code hcode
    dsimp only
    -- The last response is dropped before the new one is sent.
    have h1 : ∀ s1, s1 = (if s.lastTx = some m then { s with statusCode := code.val }
        else { s with statusCode := code.val, lastTx := none }) →
        Base s s1 ∧ Grow s s1 ∧ (Flagged s → Flagged s1) ∧ s1.finals = s.finals ∧
          (s1.lastTx = s.lastTx ∨ s1.lastTx = none) ∧ 100 ≤ s1.statusCode := by
      intro s1 hs1
      split at hs1
      · subst hs1
        exact ⟨h.base rfl,
          ⟨rfl, ⟨[], rfl⟩, ⟨[], rfl⟩, fun _ => code.property.1, id⟩, id, rfl, Or.inl rfl,
          code.property.1⟩
      · subst hs1
        exact ⟨h.base rfl,
          ⟨rfl, ⟨[], rfl⟩, ⟨[], rfl⟩, fun _ => code.property.1, id⟩, id, rfl, Or.inr rfl,
          code.property.1⟩
    rcases h1 _ rfl with ⟨hb1, hg1, hf1, hfin1, hl1, hc1⟩
    generalize (if s.lastTx = some m then { s with statusCode := code.val }
      else { s with statusCode := code.val, lastTx := none }) = s1 at hb1 hg1 hf1 hfin1 hl1 hc1 ⊢
    have hlt1 : s1.state.rank < State.terminated.rank := by
      rw [hb1.state]
      exact hlt
    have hno : s1.requestErrs env m = false := by
      unfold Tsx.requestErrs
      rw [hb1.role, hr, hcode]
      exact Bool.and_false _
    have hspec := send_spec env hb1.sound hlt1 m
    have hsent := tsxSendMsg_spec env hb1.sound hlt1 m
    have hfl := hspec.flagged (hg1.addr ha) hno
    generalize tsxSendMsg env s1 (some m) = r at hspec hsent hfl ⊢
    have hl2 : r.1.lastTx = s.lastTx ∨ r.1.lastTx = none := by
      rw [hspec.only.lastTx]
      exact hl1
    have hfin2 : r.1.finals = s.finals := hspec.only.finals.trans hfin1
    have hinv : r.1.invite = s.invite := by
      rcases hsent.cases with h2 | h2
      · exact h2.base.invite.trans hb1.invite
      · exact h2.1.invite.trans hb1.invite
    have hflag : Flagged s → Flagged r.1 := fun hf => hfl (hf1 hf)
    split
    · rename_i hne
      exact ⟨hg1.trans hspec.grow, hflag, hinv, hfin2, Or.inr hl2, fun hok => absurd hok hne,
        fun _ => Or.inr (hspec.err (hg1.addr ha) hno hne).state, fun hok => absurd hok hne,
        fun hok => absurd hok hne⟩
    · rename_i hok
      have hok : r.2 = 0 := not_not.mp hok
      have hc : CanEnter r.1 := by
        rcases hsent.cases with h2 | h2
        · exact h2.base.canEnter hlt1
        · exact Or.inr ⟨h2.2, h2.1.pendingTx⟩
      have hp : Placed r.1 m ∨ r.1.pendingSend = true ∧ r.1.pendingTransport = true := by
        cases hpt : s1.pendingTransport with
        | false => exact Or.inl (hspec.placed hpt hok)
        | true =>
            rw [hspec.waits hpt]
            exact Or.inr ⟨rfl, hpt⟩
      have hcode' : m.code.isSome = true := by
        rw [hcode]
        rfl
      have hstatus := hspec.grow.status hc1
      split
      · exact (answer_provisional env hc m).taken hg1 hflag hinv hfin2 hl2 hspec.grow hcode' hp
      · split
        · exact (answer_success env hc m).taken hg1 hflag hinv hfin2 hl2 hspec.grow hcode' hp
        · split
          · exact (answer_failure env hc m).taken hg1 hflag hinv hfin2 hl2 hspec.grow hcode' hp
          · omega

/-- TRYING goes the same way: a response that is taken leaves TRYING. -/
theorem trying_eq (env : Env) (h : Sound s) (ha : AddrOk s) (hr : s.role = .uas)
    (hlt : s.state.rank < State.terminated.rank) (m : Msg) :
    tsxOnStateTrying env s (.tx m) = proceedingUasTx env s m := by
  have htaken := taken_proceedingUas env h ha hr hlt m
  show (if (proceedingUasTx env s m).2 = 0 ∧ (proceedingUasTx env s m).1.state = .trying then
    (tsxSetState env (proceedingUasTx env s m).1 .proceeding true, 0) else proceedingUasTx env s m) = _
  refine if_neg fun hgo => ?_
  rcases htaken.state hgo.1 with hst | ⟨hst | hst, _⟩
  · rw [hgo.2] at hst
    cases hst
  · rw [hgo.2] at hst
    cases hst
  · rw [hgo.2] at hst
    cases hst

/-! ## What a step can do -/

/-- The status of `pjsip_tsx_send_msg`. -/
def sendStatus (env : Env) (s : Tsx) (m : Msg) : Nat :=
  match stateHandler env s.role s.state with
  | none => 1
  | some handler => (handler s (.tx m)).2

/-- The message for which `pjsip_tsx_send_msg` returns success. -/
def accepts (env : Env) (s : Tsx) : Op → Option Msg
  | .send m =>
      match m.or s.lastTx with
      | none => none
      | some m => if sendStatus env s m = 0 then some m else none
  | _ => none

/-- The message that a client transaction gives to `tsx_send_msg`. -/
def requestOf (s : Tsx) : Op → Option Msg
  | .send m => if s.state = .null then m.or s.lastTx else none
  | .recvResponse code ack =>
      match s.state with
      | .calling | .proceeding => if s.invite && decide (300 ≤ code.val) then ack else none
      | .completed => if s.invite && decide (200 ≤ code.val) then s.lastTx else none
      | _ => none
  | .retransmitTimer =>
      if s.retransmitTimer.running &&
          (decide (s.state = .calling) || decide (s.state = .proceeding)) then s.lastTx
      else none
  | _ => none

theorem requestOf_failure (hst : s.state = .calling ∨ s.state = .proceeding) (hi : s.invite = true)
    {code : Code} (hcode : 300 ≤ code.val) (ack : Option Msg) :
    requestOf s (.recvResponse code ack) = ack := by
  rcases hst with hst | hst
  · simp [requestOf, hst, hi, hcode]
  · simp [requestOf, hst, hi, hcode]

theorem requestOf_again (hst : s.state = .completed) (hi : s.invite = true) {code : Code}
    (hcode : 200 ≤ code.val) (ack : Option Msg) :
    requestOf s (.recvResponse code ack) = s.lastTx := by
  simp [requestOf, hst, hi, hcode]

/-- `pjsip_endpt_send_request_stateless` does not fail at once for a message of a client transaction. -/
def requestOk (env : Env) (s : Tsx) (op : Op) : Bool :=
  decide (s.role = .uas) || (requestOf s op).isNone || !s.resolutionErrs env

/-- The last message of a server transaction is a response. -/
def LastResponse (s : Tsx) : Prop := s.role = .uas → ∀ m, s.lastTx = some m → m.code.isSome = true

/-- **What a step can do** to the messages of a transaction. -/
inductive Moves (env : Env) (p : Prop) (s : Tsx) (op : Op) (s' : Tsx) : Prop where
  | keeps (h : Keeps p s s')
      (acc : accepts env s op = none ∨ s.role = .uas ∧
        (s.state = .null ∨ s.state = .completed ∧ s' = s ∧ accepts env s op = s.lastTx))
  | taken (m : Msg) (r : Tsx × Nat) (role : s.role = .uas) (h : Taken s m r) (eq : r.1 = s')
      (acc : accepts env s op = if r.2 = 0 then some m else none)
  | request (m : Msg) (role : s.role = .uac) (state : s.state = .null) (flow : Flow p s s')
      (invite : s'.invite = s.invite) (lastTx : s'.lastTx = some m) (finals : s'.finals = s.finals)
      (next : s'.state = .null ∨ s'.state = .calling ∨ s'.state.idle = true)
      (goes : p → s'.state ≠ .null)
      (acc : accepts env s op = none ∨ accepts env s op = some m ∧
        (s.pendingTransport = false → Placed s' m))
  | response (role : s.role = .uac) (state : s.state = .calling ∨ s.state = .proceeding)
      (h : Response p s s') (acc : accepts env s op = none)
  | called (m : Msg) (pendingTx : s.pendingTx = some m) (h : Called s s' m) (quiet : Quiet s s')
      (acc : accepts env s op = none)
  | transport (busy : s.tpSends ≠ 0) (pendingTx : s.pendingTx = none) (err : Option Nat)
      (op_eq : op = .transportCallback err)
      (same : Same { s with pendingTransport := false, tpSends := s.tpSends - 1 } s')
      (acc : accepts env s op = none)

theorem requestErrs_uas (env : Env) (hr : s.role = .uas) {m : Msg} (hm : m.code.isSome = true) :
    s.requestErrs env m = false := by
  unfold Tsx.requestErrs
  rw [hr]
  cases hc : m.code with
  | none =>
      rw [hc] at hm
      cases hm
  | some code => exact Bool.and_false _

theorem requestErrs_uac (env : Env) {op : Op} {m : Msg} (hr : s.role = .uac)
    (hok : requestOk env s op = true) (hop : requestOf s op = some m) :
    s.requestErrs env m = false := by
  unfold requestOk at hok
  rw [hr, hop] at hok
  have hno : s.resolutionErrs env = false := by simpa using hok
  unfold Tsx.requestErrs
  rw [hno]
  rfl

theorem accepts_of_not_send (env : Env) {op : Op} (h : ∀ m, op ≠ .send m) :
    accepts env s op = none := by
  cases op with
  | send m => exact absurd rfl (h m)
  | _ => rfl

/-- A timer or a request that a client transaction gets. -/
theorem keeps_uac (env : Env) (h : Sound s) (hr : s.role = .uac) (ha : AddrOk s) (event : Event)
    (hev : event = .retransmit ∨ event = .timeout ∨ ∃ ack, event = .rxRequest ack)
    (hno : event = .retransmit → s.state = .calling ∨ s.state = .proceeding →
      ∀ m, s.lastTx = some m → p → s.requestErrs env m = false)
    (hd : dispatch env s event = .ok s') : Keeps p s s' := by
  unfold dispatch at hd
  rw [hr] at hd
  cases hst : s.state with
  | null =>
      rw [hst] at hd
      cases hd
      show Keeps p s (tsxOnStateNull env s event).1
      unfold tsxOnStateNull
      split
      · rename_i hu
        rw [hr] at hu
        cases hu
      · rcases hev with rfl | rfl | ⟨ack, rfl⟩
        · exact Keeps.refl s
        · exact Keeps.refl s
        · exact Keeps.refl s
  | calling =>
      rw [hst] at hd
      cases hd
      have hlt : s.state.rank < State.terminated.rank := by
        rw [hst]
        decide
      rcases hev with rfl | rfl | ⟨ack, rfl⟩
      · exact flow_retransmit env h hlt ha (hno rfl (Or.inl hst)) true
      · have hstop : Same s { s.cancelRetransmit with pendingResched := false } :=
          same_timers s _ _ _ _
        exact hstop.keeps (keeps_terminate env _ (by decide) true)
      · exact Keeps.refl s
  | trying =>
      rw [hst] at hd
      cases hd
  | proceeding =>
      rw [hst] at hd
      cases hd
      have hlt : s.state.rank < State.terminated.rank := by
        rw [hst]
        decide
      rcases hev with rfl | rfl | ⟨ack, rfl⟩
      · exact flow_retransmit env h hlt ha (hno rfl (Or.inr hst)) true
      · exact keeps_terminate env s (by decide) true
      · exact Keeps.refl s
  | completed =>
      rw [hst] at hd
      cases hd
      refine keeps_completedUac env h hst ha event fun code ack m he => ?_
      rcases hev with rfl | rfl | ⟨ack, rfl⟩
      · cases he
      · cases he
      · cases he
  | confirmed =>
      rw [hst] at hd
      cases hd
      exact keeps_confirmed env s event
  | terminated =>
      rw [hst] at hd
      cases hd
      exact keeps_terminated env h hst event
  | destroyed =>
      rw [hst] at hd
      cases hd
      exact Keeps.refl s

/-- A response that is received. -/
theorem moves_recvResponse (env : Env) (h : Sound s) (ha : AddrOk s) (hresp : LastResponse s)
    (code : Code) (ack : Option Msg) (hok : p → requestOk env s (.recvResponse code ack) = true)
    (hd : dispatch env s (.rxResponse code ack) = .ok s') :
    Moves env p s (.recvResponse code ack) s' := by
  cases hr : s.role with
  | uas =>
      exact .keeps (keeps_uas env h hr ha (fun m hm _ => requestErrs_uas env hr (hresp hr m hm)) _
        (fun _ _ he => by cases he) hd) (Or.inl rfl)
  | uac =>
      have hno : ∀ m, requestOf s (.recvResponse code ack) = some m → p →
          s.requestErrs env m = false := fun m hm hp => requestErrs_uac env hr (hok hp) hm
      unfold dispatch at hd
      rw [hr] at hd
      cases hst : s.state with
      | null =>
          rw [hst] at hd
          cases hd
          refine .keeps ?_ (Or.inl rfl)
          show Keeps p s (tsxOnStateNull env s (.rxResponse code ack)).1
          unfold tsxOnStateNull
          split
          · rename_i hu
            rw [hr] at hu
            cases hu
          · exact Keeps.refl s
      | calling =>
          rw [hst] at hd
          cases hd
          have hlt : s.state.rank < State.terminated.rank := by
            rw [hst]
            decide
          have hstop := same_stopForResponse s code
          refine .response hr (Or.inl hst) (Response.after hstop.flow hstop.untouched.lastTx
            hstop.untouched.finals hstop.state hstop.untouched.invite ?_) rfl
          refine response_proceedingUac env (hstop.sound h) (hstop.grow.addr ha)
            (hstop.untouched.role.trans hr) (by rw [hstop.state]; exact hlt) code ack
            fun m hm hi h300 hp => (hstop.requestErrs env m).trans (hno m ?_ hp)
          rw [requestOf_failure (Or.inl hst) (hstop.untouched.invite.symm.trans hi) h300]
          exact hm
      | trying =>
          rw [hst] at hd
          cases hd
      | proceeding =>
          rw [hst] at hd
          cases hd
          refine .response hr (Or.inr hst) (response_proceedingUac env h ha hr (by rw [hst]; decide)
            code ack fun m hm hi h300 hp => hno m ?_ hp) rfl
          rw [requestOf_failure (Or.inr hst) hi h300]
          exact hm
      | completed =>
          rw [hst] at hd
          cases hd
          refine .keeps (keeps_completedUac env h hst ha _ fun code' ack' m he hi h200 hl hp =>
            hno m ?_ hp) (Or.inl rfl)
          cases he
          rw [requestOf_again hst hi h200]
          exact hl
      | confirmed =>
          rw [hst] at hd
          cases hd
          exact .keeps (keeps_confirmed env s _) (Or.inl rfl)
      | terminated =>
          rw [hst] at hd
          cases hd
          exact .keeps (keeps_terminated env h hst _) (Or.inl rfl)
      | destroyed =>
          rw [hst] at hd
          cases hd
          exact .keeps (Keeps.refl s) (Or.inl rfl)

/-- A message of the transaction user. -/
theorem moves_send (env : Env) (h : Sound s) (ha : AddrOk s) (hresp : LastResponse s)
    (m0 : Option Msg) {m : Msg} (hm : m0.or s.lastTx = some m)
    (hok : p → requestOk env s (.send m0) = true) (hd : dispatch env s (.tx m) = .ok s') :
    Moves env p s (.send m0) s' := by
  have hacc : accepts env s (.send m0) = if sendStatus env s m = 0 then some m else none := by
    show (match m0.or s.lastTx with
      | none => none
      | some m => if sendStatus env s m = 0 then some m else none) = _
    rw [hm]
  have hrefused : ∀ r : Tsx × Nat, sendStatus env s m = r.2 → r.2 = 1 →
      accepts env s (.send m0) = none := by
    intro r hr hr1
    rw [hacc, hr, hr1]
    rfl
  cases hr : s.role with
  | uas =>
      have hkeep : ¬ (s.state = .trying ∨ s.state = .proceeding) → Keeps p s s' := fun hst =>
        keeps_uas env h hr ha (fun m hm _ => requestErrs_uas env hr (hresp hr m hm)) (.tx m)
          (fun hst' => absurd hst' hst) hd
      -- Trying hands the message to proceeding, so the two are one case.
      have htaken : s.state = .trying ∨ s.state = .proceeding → Moves env p s (.send m0) s' := by
        intro hst
        have hlt : s.state.rank < State.terminated.rank := by
          rcases hst with hst | hst
          · rw [hst]
            decide
          · rw [hst]
            decide
        have ht := taken_proceedingUas env h ha hr hlt m
        have heq : dispatch env s (.tx m) = .ok (proceedingUasTx env s m).1 ∧
            sendStatus env s m = (proceedingUasTx env s m).2 := by
          unfold dispatch sendStatus
          rw [hr]
          rcases hst with hst | hst
          · rw [hst, ← trying_eq env h ha hr hlt m]
            exact ⟨rfl, rfl⟩
          · rw [hst]
            exact ⟨rfl, rfl⟩
        rw [heq.1] at hd
        cases hd
        exact .taken m _ hr ht rfl (by rw [hacc, heq.2])
      cases hst : s.state with
      | trying => exact htaken (Or.inl hst)
      | proceeding => exact htaken (Or.inr hst)
      | null =>
          refine .keeps (hkeep ?_) (Or.inr ⟨hr, Or.inl hst⟩)
          rw [hst]
          exact fun h => h.elim nofun nofun
      | calling =>
          unfold dispatch at hd
          rw [hr, hst] at hd
          cases hd
      | completed =>
          have hs : s' = s := by
            unfold dispatch at hd
            rw [hr, hst] at hd
            cases hd
            rfl
          have hstatus : sendStatus env s m = if s.lastTx = some m then 0 else 1 := by
            unfold sendStatus
            rw [hr, hst]
            rfl
          rw [hs]
          refine .keeps (Keeps.refl s) ?_
          rw [hacc, hstatus]
          -- Completed drops what it is given, and refuses all but the last response.
          by_cases hl : s.lastTx = some m
          · rw [if_pos hl, hl]
            exact Or.inr ⟨hr, Or.inr ⟨hst, rfl, rfl⟩⟩
          · rw [if_neg hl]
            exact Or.inl rfl
      | confirmed | terminated | destroyed =>
          refine .keeps (hkeep ?_) (Or.inl (hrefused (s, 1) ?_ rfl))
          · rw [hst]
            exact fun h => h.elim nofun nofun
          · unfold sendStatus
            rw [hr, hst]
            rfl
  | uac =>
      have hnone : s.state ≠ .null → ∀ f, stateHandler env s.role s.state = some f →
          f s (.tx m) = (s, 1) → Moves env p s (.send m0) s' := by
        intro _ f hf hfs
        have hstatus : sendStatus env s m = 1 := by
          unfold sendStatus
          rw [hf]
          show (f s (.tx m)).2 = 1
          rw [hfs]
        rw [dispatch_of_handler hf, hfs] at hd
        cases hd
        exact .keeps (Keeps.refl s) (Or.inl (hrefused (s, 1) hstatus rfl))
      cases hst : s.state with
      | null =>
          have hno : p → s.requestErrs env m = false := by
            intro hp
            refine requestErrs_uac env hr (hok hp) ?_
            simp [requestOf, hst, hm]
          have hnull := flow_nullUac env h ha hr hst m hno
          have heq : dispatch env s (.tx m) = .ok (tsxOnStateNull env s (.tx m)).1 ∧
              sendStatus env s m = (tsxOnStateNull env s (.tx m)).2 := by
            unfold dispatch sendStatus
            rw [hr, hst]
            exact ⟨rfl, rfl⟩
          rw [heq.1] at hd
          cases hd
          rcases hnull with ⟨hflow, hinv, hl, hf, hnext, hgoes, hp⟩
          refine .request m hr hst hflow hinv hl hf hnext hgoes ?_
          rw [hacc, heq.2]
          by_cases h0 : (tsxOnStateNull env s (.tx m)).2 = 0
          · rw [if_pos h0]
            exact Or.inr ⟨rfl, fun hpt => hp hpt h0⟩
          · rw [if_neg h0]
            exact Or.inl rfl
      | trying =>
          unfold dispatch at hd
          rw [hr, hst] at hd
          cases hd
      | calling | proceeding | completed | confirmed | terminated | destroyed =>
          exact hnone (by rw [hst]; nofun) _ (by rw [hr, hst]; rfl) rfl

/-- The callbacks. -/
theorem moves_sendCallback (env : Env) (h : Sound s) (cb : SendCb) :
    Moves env p s (.sendCallback cb) (sendMsgCallback env s cb) := by
  cases hm : s.pendingTx with
  | none =>
      have heq : sendMsgCallback env s cb = s := by
        unfold sendMsgCallback
        rw [hm]
      rw [heq]
      exact .keeps (Keeps.refl s) (Or.inl rfl)
  | some m =>
      have hcalled := called_sendMsgCallback env h hm cb
      refine .called m hm hcalled ?_ rfl
      have hlt := (h.pendingTx (by rw [hm]; rfl)).2
      have hterm : Term s (sendMsgCallback env s cb) → Quiet s (sendMsgCallback env s cb) := by
        intro ht
        refine ⟨ht.invite, Or.inl hcalled.only.lastTx, hcalled.only.finals, Or.inr ?_⟩
        rw [ht.state]
        rfl
      have hstay : Stay s (sendMsgCallback env s cb) → Quiet s (sendMsgCallback env s cb) := fun hs =>
        ⟨hs.base.invite, Or.inl hcalled.only.lastTx, hcalled.only.finals, Or.inl hs.base.state⟩
      cases sendMsgCallback_cases env h hlt cb with
      | stay hs _ => exact hstay hs
      | next hs _ _ => exact hstay hs
      | term ht _ _ => exact hterm ht

theorem moves_transportCallback (env : Env) (h : Sound s) (err : Option Nat)
    (hs : step env s (.transportCallback err) = .ok s') :
    Moves env p s (.transportCallback err) s' := by
  unfold step at hs
  dsimp only at hs
  split at hs
  · cases hs
    exact .keeps (Keeps.refl s) (Or.inl rfl)
  · rename_i hn
    have htx : s.pendingTx = none := by
      have hb := (h.transportCallback hn).sound
      exact hb.pendingTx_none rfl
    cases err with
    | none =>
        cases hs
        exact .transport hn htx none rfl (Same.refl _) rfl
    | some e =>
        cases hs
        refine .transport hn htx (some e) rfl ?_ rfl
        exact ⟨⟨rfl, rfl, rfl, rfl, rfl, rfl, rfl, rfl, rfl, rfl, rfl⟩, rfl, rfl, rfl, rfl, rfl, rfl⟩

/-- A transport has failed: it is released, and the transaction is terminated. -/
theorem keeps_transportErr (env : Env) (s : Tsx) (timer : Entry) :
    Keeps p s (tsxSetState env { s with
      timeoutTimer := timer
      transport := none
      statusCode := if s.statusCode < 200 then scTransportError else s.statusCode } .terminated
      false) := by
  have hset := setTo_setState env { s with
    timeoutTimer := timer
    transport := none
    statusCode := if s.statusCode < 200 then scTransportError else s.statusCode }
    (by decide : State.terminated ≠ .destroyed) false
  have hstatus : 100 ≤ if s.statusCode < 200 then scTransportError else s.statusCode := by
    split
    · exact (by decide : 100 ≤ scTransportError)
    · omega
  have hpath : .terminated ∈ (tsxSetState env { s with
      timeoutTimer := timer
      transport := none
      statusCode := if s.statusCode < 200 then scTransportError else s.statusCode } .terminated
      false).path := by
    rcases hset.cases with ⟨_, hp, _⟩ | ⟨_, ⟨new, hp⟩, _⟩
    · rw [hp]
      exact List.mem_cons_self
    · rw [hp]
      exact List.mem_cons_self
  generalize tsxSetState env { s with
    timeoutTimer := timer
    transport := none
    statusCode := if s.statusCode < 200 then scTransportError else s.statusCode } .terminated
    false = s' at hset hpath ⊢
  have hstate : s'.state = .terminated := by
    rcases hset.cases with ⟨hst, _⟩ | ⟨hst, _⟩
    · exact hst
    · exact hst
  refine ⟨⟨⟨hset.same.role, ⟨[], hset.same.handed⟩, ?_, fun _ => ?_, fun _ _ hlt => ?_⟩, fun _ hf => ?_,
    fun _ => Or.inr hpath⟩, ⟨hset.same.invite, Or.inl hset.same.lastTx, hset.same.finals, Or.inr ?_⟩⟩
  · rcases hset.cases with ⟨_, hp, _⟩ | ⟨_, ⟨new, hp⟩, _⟩
    · exact ⟨[.terminated], hp⟩
    · exact ⟨.terminated :: new, hp⟩
  · rcases hset.status with hst | hst
    · omega
    · rw [hst]
      exact hstatus
  · rw [hstate] at hlt
    exact absurd hlt (Nat.lt_irrefl _)
  · unfold Flagged at hf ⊢
    rcases hset.cases with ⟨_, _, htx, hpt⟩ | ⟨_, _, hpt⟩
    · rw [htx, hpt, hset.same.tpSends]
      exact hf
    · rw [hpt]
      nofun
  · rw [hstate]
    rfl

/-- The timeout timer fires. -/
theorem keeps_onTimeoutTimer (env : Env) (h : Sound s) (ha : AddrOk s) (hresp : LastResponse s)
    (hs : onTimeoutTimer env s = .ok s') : Keeps p s s' := by
  have hfired : Same s { s with timeoutTimer := { s.timeoutTimer.fired with id := timerInactive } } :=
    same_timers s _ _ _ _
  unfold onTimeoutTimer at hs
  dsimp only at hs
  split at hs
  · split at hs
    · cases hs
      exact keeps_transportErr env s { s.timeoutTimer.fired with id := timerInactive }
    · cases hs
      exact hfired.keeps (Keeps.refl _)
  · cases hr : s.role with
    | uas =>
        exact hfired.keeps (keeps_uas env (hfired.sound h) hr (hfired.grow.addr ha)
          (fun m hm _ => requestErrs_uas env hr (hresp hr m hm)) .timeout (fun _ _ => nofun) hs)
    | uac =>
        exact hfired.keeps (keeps_uac env (hfired.sound h) hr (hfired.grow.addr ha) .timeout
          (Or.inr (Or.inl rfl)) nofun hs)

theorem keeps_terminateCall (s : Tsx) (code : Nat) : Keeps p s (s.terminate code) := by
  rcases terminate_cases s code with heq | ⟨hend, hcode⟩
  · rw [heq]
    exact Keeps.refl s
  · refine ⟨⟨⟨hend.same.role, ⟨[], hend.same.handed⟩, ⟨[.terminated], hend.path⟩, fun _ => by omega,
      fun _ _ hlt => ?_⟩, fun _ _ hpt => ?_, fun _ => Or.inr ?_⟩,
      ⟨hend.same.invite, Or.inl hend.same.lastTx, hend.same.finals, Or.inr ?_⟩⟩
    · rw [hend.state] at hlt
      exact absurd hlt (Nat.lt_irrefl _)
    · rw [hend.pendingTransport] at hpt
      cases hpt
    · rw [hend.path]
      exact List.mem_cons_self
    · rw [hend.state]
      rfl

/-- **What a step can do**, as long as no request fails at once. -/
theorem moves_step (env : Env) (h : Sound s) (ha : AddrOk s) (hresp : LastResponse s) (op : Op)
    (hok : p → requestOk env s op = true) (hs : step env s op = .ok s') : Moves env p s op s' := by
  have hsame : Same s s' → (∀ m, op ≠ .send m) → Moves env p s op s' := fun h1 hop =>
    .keeps (h1.keeps (Keeps.refl s')) (Or.inl (accepts_of_not_send env hop))
  cases op with
  | send m0 =>
      unfold step at hs
      dsimp only at hs
      split at hs
      · rename_i hm
        cases hs
        refine .keeps (Keeps.refl s) (Or.inl ?_)
        show (match m0.or s.lastTx with
          | none => none
          | some m => if sendStatus env s m = 0 then some m else none) = none
        rw [hm]
      · rename_i m hm
        exact moves_send env h ha hresp m0 hm hok hs
  | recvRequest ack =>
      refine .keeps ?_ (Or.inl rfl)
      cases hr : s.role with
      | uas =>
          exact keeps_uas env h hr ha (fun m hm _ => requestErrs_uas env hr (hresp hr m hm)) _
            (fun _ _ he => by cases he) hs
      | uac => exact keeps_uac env h hr ha _ (Or.inr (Or.inr ⟨ack, rfl⟩)) nofun hs
  | recvResponse code ack => exact moves_recvResponse env h ha hresp code ack hok hs
  | retransmitTimer =>
      unfold step at hs
      dsimp only at hs
      split at hs
      · rename_i hrun
        refine .keeps ?_ (Or.inl rfl)
        have hfired : Same s { s with
            retransmitTimer := { s.retransmitTimer.fired with id := timerInactive } } :=
          same_timers s _ _ _ _
        cases hr : s.role with
        | uas =>
            exact hfired.keeps (keeps_uas env (hfired.sound h) hr (hfired.grow.addr ha)
              (fun m hm _ => requestErrs_uas env hr (hresp hr m hm)) _ (fun _ _ he => by cases he) hs)
        | uac =>
            refine hfired.keeps (keeps_uac env (hfired.sound h) hr (hfired.grow.addr ha) _
              (Or.inl rfl) (fun _ hst m hm hp => ?_) hs)
            refine (hfired.requestErrs env m).trans (requestErrs_uac env hr (hok hp) ?_)
            have hst : s.state = .calling ∨ s.state = .proceeding := hst
            have hm : s.lastTx = some m := hm
            rcases hst with hst | hst
            · simp [requestOf, hrun, hst, hm]
            · simp [requestOf, hrun, hst, hm]
      · cases hs
        exact .keeps (Keeps.refl s) (Or.inl rfl)
  | timeoutTimer =>
      unfold step at hs
      dsimp only at hs
      split at hs
      · exact .keeps (keeps_onTimeoutTimer env h ha hresp hs) (Or.inl rfl)
      · cases hs
        exact .keeps (Keeps.refl s) (Or.inl rfl)
  | transportCallback err => exact moves_transportCallback env h err hs
  | disconnected status =>
      unfold step at hs
      dsimp only at hs
      split at hs
      · cases hs
        exact .keeps (Keeps.refl s) (Or.inl rfl)
      · cases hs
        exact hsame ⟨⟨rfl, rfl, rfl, rfl, rfl, rfl, rfl, rfl, rfl, rfl, rfl⟩, rfl, rfl, rfl, rfl, rfl,
          rfl⟩ nofun
  | sendCallback cb =>
      cases hs
      exact moves_sendCallback env h cb
  | terminate code =>
      cases hs
      exact .keeps (keeps_terminateCall s code) (Or.inl rfl)
  | setTimeout =>
      unfold step at hs
      dsimp only at hs
      split at hs
      · split at hs
        · cases hs
          exact hsame (Same.refl s) nofun
        · cases hs
          exact hsame (same_timers s _ _ _ _) nofun
      · cases hs
        exact hsame (Same.refl s) nofun
  | stopRetransmit =>
      unfold step at hs
      dsimp only at hs
      split at hs
      · cases hs
        exact hsame (same_timers s _ _ _ _) nofun
      · cases hs
        exact hsame (Same.refl s) nofun
  | setHandle200resp handle =>
      cases hs
      exact hsame ⟨⟨rfl, rfl, rfl, rfl, rfl, rfl, rfl, rfl, rfl, rfl, rfl⟩, rfl, rfl, rfl, rfl, rfl,
        rfl⟩ nofun

theorem Moves.grow {env : Env} {op : Op} (h : Moves env p s op s') : Grow s s' := by
  cases h with
  | keeps hk _ => exact hk.1.toGrow
  | taken m r _ ht heq _ =>
      rw [← heq]
      exact ht.grow
  | request m _ _ hflow _ _ _ _ _ _ => exact hflow.toGrow
  | response _ _ hr _ => exact hr.flow.toGrow
  | called m _ hc _ _ => exact hc.grow
  | transport _ _ err _ hsame _ =>
      have hclear : Grow s { s with pendingTransport := false, tpSends := s.tpSends - 1 } :=
        ⟨rfl, ⟨[], rfl⟩, ⟨[], rfl⟩, id, id⟩
      exact hclear.trans hsame.grow

theorem Moves.flagged {env : Env} {op : Op} (h : Moves env p s op s') (hp : p) (hf : Flagged s) :
    Flagged s' := by
  cases h with
  | keeps hk _ => exact hk.1.flagged hp hf
  | taken m r _ ht heq _ =>
      rw [← heq]
      exact ht.flagged hf
  | request m _ _ hflow _ _ _ _ _ _ => exact hflow.flagged hp hf
  | response _ _ hr _ => exact hr.flow.flagged hp hf
  | called m _ hc _ _ => exact hc.flagged
  | transport _ _ err _ hsame _ =>
      intro hpt
      rw [hsame.pendingTransport] at hpt
      cases hpt

theorem Quiet.lastResponse (h : Quiet s s') (hr : s'.role = s.role) (hl : LastResponse s) :
    LastResponse s' := by
  intro hu m hm
  rcases h.last with hlast | ⟨_, hlast⟩
  · exact hl (hr.symm.trans hu) m (hlast.symm.trans hm)
  · rw [hlast] at hm
    cases hm

theorem Moves.lastResponse {env : Env} {op : Op} (h : Moves env p s op s') (hl : LastResponse s) :
    LastResponse s' := by
  have hrole := h.grow.role
  have huac : s.role = .uac → LastResponse s' := by
    intro hr hu
    rw [hrole, hr] at hu
    cases hu
  cases h with
  | keeps hk _ => exact hk.2.lastResponse hrole hl
  | taken m r hr ht heq _ =>
      subst heq
      intro _ a ha
      rcases ht.last with ⟨hlast, hcode⟩ | hlast | hlast
      · rw [hlast] at ha
        cases ha
        exact hcode
      · exact hl hr a (hlast.symm.trans ha)
      · rw [hlast] at ha
        cases ha
  | request m hr _ _ _ _ _ _ _ _ => exact huac hr
  | response hr _ _ _ => exact huac hr
  | called m _ _ hq _ => exact hq.lastResponse hrole hl
  | transport _ _ err _ hsame _ =>
      intro hu a ha
      exact hl (hrole.symm.trans hu) a (hsame.untouched.lastTx.symm.trans ha)

/-! ## Created transactions -/

theorem Created.addrOk (h : Created s) : AddrOk s := by
  cases h with
  | uac => exact nofun
  | uas invite isReliable transport =>
      intro _ _ _ ht
      rcases ht with ht | ht
      · have ht : transport = none := ht
        rw [ht]
        rfl
      · cases ht

theorem Created.lastResponse (h : Created s) : LastResponse s := by
  cases h with
  | uac => exact nofun
  | uas => exact fun _ _ => nofun

theorem Created.flagged (h : Created s) : Flagged s := by
  cases h with
  | uac => exact nofun
  | uas => exact nofun

end Sip
