import PjProject.Sip.States

set_option autoImplicit false

/-! # Messages on their way to a transport

What the functions of a transaction do to a message that is to be sent. While a transport is pending
nothing is sent: `tsx_send_msg` only sets `TSX_HAS_PENDING_SEND`, and every handler leaves the messages
that wait as they are or ends with the transaction terminated (`Flow.waits`). A message that
`tsx_send_msg` has taken is with a transport or is being resolved (`Placed`).

`TSX_HAS_PENDING_TRANSPORT` stands for a callback that is awaited (`Flagged`). The exception is a
request for which `pjsip_endpt_send_request_stateless` fails at once; a response has no such error,
since a server transaction without a transport has none in `res_addr` either (`AddrOk`).
-/

namespace Sip

open Timer

variable {p : Prop} {s s1 s' s'' : Tsx} {st : State}

/-! ## What is kept -/

/-- The flag for a pending transport stands for a callback. -/
def Flagged (s : Tsx) : Prop :=
  s.pendingTransport = true → s.pendingTx.isSome = true ∨ 0 < s.tpSends

/-- A server transaction that has to resolve its server has no transport in `res_addr`. -/
def AddrOk (s : Tsx) : Prop :=
  s.role = .uas → s.state.rank < State.terminated.rank → s.resolvedServer = false →
    s.transport = none ∨ s.pendingTx.isSome = true → s.resAddr = false

/-- The messages that wait for the transport are the same. -/
structure Waits (s s' : Tsx) : Prop where
  pendingTx : s'.pendingTx = s.pendingTx
  pendingTransport : s'.pendingTransport = s.pendingTransport
  tpSends : s'.tpSends = s.tpSends
  pendingSend : s.pendingSend = true → s'.pendingSend = true
  lastTx : s.role = .uas → s'.lastTx = s.lastTx

/-- What every step keeps. -/
structure Grow (s s' : Tsx) : Prop where
  role : s'.role = s.role
  handed : ∃ new, s'.handed = new ++ s.handed
  path : ∃ new, s'.path = new ++ s.path
  status : 100 ≤ s.statusCode → 100 ≤ s'.statusCode
  addr : AddrOk s → AddrOk s'

/-- What a part of a handler does to the messages on their way. -/
structure Flow (p : Prop) (s s' : Tsx) : Prop extends Grow s s' where
  flagged : p → Flagged s → Flagged s'
  waits : s.pendingTransport = true → Waits s s' ∨ .terminated ∈ s'.path

theorem Waits.refl (s : Tsx) : Waits s s := ⟨rfl, rfl, rfl, id, fun _ => rfl⟩

theorem Waits.trans (h : Waits s s') (h' : Waits s' s'') (hr : s'.role = s.role) : Waits s s'' :=
  ⟨h'.pendingTx.trans h.pendingTx, h'.pendingTransport.trans h.pendingTransport,
    h'.tpSends.trans h.tpSends, fun hp => h'.pendingSend (h.pendingSend hp),
    fun hu => (h'.lastTx (hr.trans hu)).trans (h.lastTx hu)⟩

theorem Grow.refl (s : Tsx) : Grow s s := ⟨rfl, ⟨[], rfl⟩, ⟨[], rfl⟩, id, id⟩

theorem Grow.trans (h : Grow s s') (h' : Grow s' s'') : Grow s s'' := by
  rcases h.handed with ⟨new, hnew⟩
  rcases h'.handed with ⟨new', hnew'⟩
  rcases h.path with ⟨l, hl⟩
  rcases h'.path with ⟨l', hl'⟩
  refine ⟨h'.role.trans h.role, ⟨new' ++ new, ?_⟩, ⟨l' ++ l, ?_⟩, fun hs => h'.status (h.status hs),
    fun ha => h'.addr (h.addr ha)⟩
  · rw [hnew', hnew, List.append_assoc]
  · rw [hl', hl, List.append_assoc]

theorem Grow.terminated (h : Grow s s') (ht : .terminated ∈ s.path) : .terminated ∈ s'.path := by
  rcases h.path with ⟨l, hl⟩
  rw [hl]
  exact List.mem_append_right _ ht

theorem Grow.mem_handed {m : Msg} (h : Grow s s') (hm : m ∈ s.handed) : m ∈ s'.handed := by
  rcases h.handed with ⟨l, hl⟩
  rw [hl]
  exact List.mem_append_right _ hm

theorem Flow.refl (s : Tsx) : Flow p s s := ⟨Grow.refl s, fun _ => id, fun _ => Or.inl (Waits.refl s)⟩

theorem Flow.trans (h : Flow p s s') (h' : Flow p s' s'') : Flow p s s'' := by
  refine ⟨h.toGrow.trans h'.toGrow, fun hp hf => h'.flagged hp (h.flagged hp hf), fun hpt => ?_⟩
  rcases h.waits hpt with hw | hterm
  · rcases h'.waits (hw.pendingTransport.trans hpt) with hw' | hterm
    · exact Or.inl (hw.trans hw' h.role)
    · exact Or.inr hterm
  · exact Or.inr (h'.terminated hterm)

/-- Changes of timers, counters and of flags that no message depends on. -/
theorem Flow.frame (hr : s'.role = s.role) (hst : s'.state = s.state) (hp : s'.path = s.path)
    (hh : s'.handed = s.handed) (hpt : s'.pendingTransport = s.pendingTransport)
    (htx : s'.pendingTx = s.pendingTx) (hn : s'.tpSends = s.tpSends)
    (hrs : s'.resolvedServer = s.resolvedServer) (ht : s'.transport = s.transport)
    (ha : s'.resAddr = s.resAddr) (hps : s'.pendingSend = s.pendingSend)
    (hl : s.role = .uas → s'.lastTx = s.lastTx)
    (hc : 100 ≤ s.statusCode → 100 ≤ s'.statusCode) : Flow p s s' := by
  refine ⟨⟨hr, ⟨[], hh⟩, ⟨[], hp⟩, hc, fun haddr => ?_⟩, fun _ hf => ?_, fun _ => Or.inl ⟨htx, hpt, hn,
    fun h => hps.trans h, hl⟩⟩
  · unfold AddrOk at haddr ⊢
    rw [hr, hst, hrs, ht, htx, ha]
    exact haddr
  · unfold Flagged at hf ⊢
    rw [hpt, htx, hn]
    exact hf

/-! ## `tsx_set_state` -/

/-- What `tsx_set_state` does not change. -/
structure Untouched (s s' : Tsx) : Prop where
  role : s'.role = s.role
  invite : s'.invite = s.invite
  lastTx : s'.lastTx = s.lastTx
  finals : s'.finals = s.finals
  handed : s'.handed = s.handed
  pendingSend : s'.pendingSend = s.pendingSend
  tpSends : s'.tpSends = s.tpSends
  transport : s'.transport = s.transport
  resAddr : s'.resAddr = s.resAddr
  resolvedServer : s'.resolvedServer = s.resolvedServer
  attempts : s'.attempts = s.attempts

/-- `tsx_set_state` for the state `st`: the transaction is in that state, or it has been terminated by
the transaction user or by the call itself. -/
structure SetTo (s : Tsx) (st : State) (s' : Tsx) : Prop where
  same : Untouched s s'
  status : 200 ≤ s'.statusCode ∨ s'.statusCode = s.statusCode
  pendingTx : s'.pendingTx = none ∨ s'.pendingTx = s.pendingTx
  cases : (s'.state = st ∧ s'.path = st :: s.path ∧ s'.pendingTx = s.pendingTx ∧
      s'.pendingTransport = s.pendingTransport) ∨
    (s'.state = .terminated ∧ (∃ new, s'.path = .terminated :: new ++ s.path) ∧
      s'.pendingTransport = false)

/-- The transaction has been terminated: no transport is pending. -/
structure Ended (s s' : Tsx) : Prop where
  same : Untouched s s'
  state : s'.state = .terminated
  path : s'.path = .terminated :: s.path
  pendingTransport : s'.pendingTransport = false
  pendingTx : s'.pendingTx = none ∨ s'.pendingTx = s.pendingTx

theorem ended_onTerminated (s : Tsx) : Ended s (s.enter .terminated).onTerminated ∧
    (s.enter .terminated).onTerminated.statusCode = s.statusCode := by
  unfold Tsx.onTerminated
  split
  · exact ⟨⟨⟨rfl, rfl, rfl, rfl, rfl, rfl, rfl, rfl, rfl, rfl, rfl⟩, rfl, rfl, rfl, Or.inl rfl⟩, rfl⟩
  · rename_i hpt
    exact ⟨⟨⟨rfl, rfl, rfl, rfl, rfl, rfl, rfl, rfl, rfl, rfl, rfl⟩, rfl, rfl,
      Bool.eq_false_iff.mpr hpt, Or.inr rfl⟩, rfl⟩

/-- `pjsip_tsx_terminate` does nothing, or terminates the transaction. -/
theorem terminate_cases (s : Tsx) (code : Nat) :
    s.terminate code = s ∨ Ended s (s.terminate code) ∧ 200 ≤ (s.terminate code).statusCode := by
  unfold Tsx.terminate
  split
  · rename_i hc
    have h := ended_onTerminated { s with statusCode := code }
    refine Or.inr ⟨⟨⟨?_, ?_, ?_, ?_, ?_, ?_, ?_, ?_, ?_, ?_, ?_⟩, h.1.state, h.1.path,
      h.1.pendingTransport, h.1.pendingTx⟩, ?_⟩
    · exact h.1.same.role
    · exact h.1.same.invite
    · exact h.1.same.lastTx
    · exact h.1.same.finals
    · exact h.1.same.handed
    · exact h.1.same.pendingSend
    · exact h.1.same.tpSends
    · exact h.1.same.transport
    · exact h.1.same.resAddr
    · exact h.1.same.resolvedServer
    · exact h.1.same.attempts
    · rw [h.2]
      exact hc.1
  · exact Or.inl rfl

theorem Untouched.trans (h : Untouched s s') (h' : Untouched s' s'') : Untouched s s'' :=
  ⟨h'.role.trans h.role, h'.invite.trans h.invite, h'.lastTx.trans h.lastTx,
    h'.finals.trans h.finals, h'.handed.trans h.handed, h'.pendingSend.trans h.pendingSend,
    h'.tpSends.trans h.tpSends, h'.transport.trans h.transport, h'.resAddr.trans h.resAddr,
    h'.resolvedServer.trans h.resolvedServer, h'.attempts.trans h.attempts⟩

/-- `tsx_set_state` for any state but DESTROYED. -/
theorem setTo_setState (env : Env) (s : Tsx) (hst : st ≠ .destroyed) (notify : Bool) :
    SetTo s st (tsxSetState env s st notify) := by
  have hent : SetTo s st (s.enter st) :=
    ⟨⟨rfl, rfl, rfl, rfl, rfl, rfl, rfl, rfl, rfl, rfl, rfl⟩, Or.inr rfl, Or.inr rfl,
      Or.inl ⟨rfl, rfl, rfl, rfl⟩⟩
  have htold : ∀ s1, s1 = (if notify then (s.enter st).informTu env else s.enter st) →
      SetTo s st s1 := by
    intro s1 hs1
    cases notify with
    | false =>
        rw [hs1]
        exact hent
    | true =>
        rw [hs1]
        show SetTo s st ((s.enter st).informTu env)
        unfold Tsx.informTu
        split
        · exact ⟨⟨rfl, rfl, rfl, rfl, rfl, rfl, rfl, rfl, rfl, rfl, rfl⟩, Or.inr rfl, Or.inr rfl,
            Or.inl ⟨rfl, rfl, rfl, rfl⟩⟩
        · rename_i code _
          have hcount : Untouched s { s.enter st with notified := (s.enter st).notified + 1 } :=
            ⟨rfl, rfl, rfl, rfl, rfl, rfl, rfl, rfl, rfl, rfl, rfl⟩
          rcases terminate_cases { s.enter st with notified := (s.enter st).notified + 1 } code with
            heq | ⟨hend, hcode⟩
          · rw [heq]
            exact ⟨hcount, Or.inr rfl, Or.inr rfl, Or.inl ⟨rfl, rfl, rfl, rfl⟩⟩
          · exact ⟨hcount.trans hend.same, Or.inl hcode, hend.pendingTx,
              Or.inr ⟨hend.state, ⟨[st], hend.path⟩, hend.pendingTransport⟩⟩
  unfold tsxSetState
  dsimp only
  have h1 := htold _ rfl
  generalize (if notify then (s.enter st).informTu env else s.enter st) = s1 at h1 ⊢
  cases st with
  | destroyed => exact absurd rfl hst
  | terminated =>
      have hsame : Untouched s1 s1.onTerminated ∧ s1.onTerminated.statusCode = s1.statusCode ∧
          s1.onTerminated.state = s1.state ∧ s1.onTerminated.path = s1.path ∧
          s1.onTerminated.pendingTransport = false ∧
          (s1.onTerminated.pendingTx = none ∨ s1.onTerminated.pendingTx = s1.pendingTx) := by
        unfold Tsx.onTerminated
        split
        · exact ⟨⟨rfl, rfl, rfl, rfl, rfl, rfl, rfl, rfl, rfl, rfl, rfl⟩, rfl, rfl, rfl, rfl, Or.inl rfl⟩
        · rename_i hpt
          exact ⟨⟨rfl, rfl, rfl, rfl, rfl, rfl, rfl, rfl, rfl, rfl, rfl⟩, rfl, rfl, rfl,
            Bool.eq_false_iff.mpr hpt, Or.inr rfl⟩
      rcases hsame with ⟨hu, hcode, hstate, hpath, hpt, htx⟩
      refine ⟨h1.same.trans hu, ?_, ?_, Or.inr ⟨?_, ?_, hpt⟩⟩
      · rw [hcode]
        exact h1.status
      · rcases htx with htx | htx
        · exact Or.inl htx
        · rw [htx]
          exact h1.pendingTx
      · rw [hstate]
        rcases h1.cases with h2 | h2
        · exact h2.1
        · exact h2.1
      · rw [hpath]
        rcases h1.cases with h2 | h2
        · exact ⟨[], h2.2.1⟩
        · exact h2.2.1
  | _ => exact h1

theorem SetTo.flow (h : SetTo s st s') (hc : st.rank < State.terminated.rank → CanEnter s) :
    Flow p s s' := by
  have hpath : ∃ new, s'.path = new ++ s.path := by
    rcases h.cases with ⟨_, hp, _⟩ | ⟨_, ⟨new, hp⟩, _⟩
    · exact ⟨[st], hp⟩
    · exact ⟨.terminated :: new, hp⟩
  refine ⟨⟨h.same.role, ⟨[], h.same.handed⟩, hpath, fun hs => ?_, fun ha => ?_⟩, fun _ hf => ?_,
    fun hpt => ?_⟩
  · rcases h.status with hst | hst
    · omega
    · rw [hst]
      exact hs
  · unfold AddrOk at ha ⊢
    rcases h.cases with ⟨hst, _, htx, _⟩ | ⟨hst, _⟩
    · rw [hst, h.same.role, h.same.resolvedServer, h.same.transport, htx, h.same.resAddr]
      intro hr hlt hrs
      rcases hc hlt with h1 | h1
      · exact ha hr h1 hrs
      · rw [hrs] at h1
        cases h1.1
    · rw [hst]
      exact fun _ hlt => absurd hlt (Nat.lt_irrefl _)
  · unfold Flagged at hf ⊢
    rcases h.cases with ⟨_, _, htx, hpt⟩ | ⟨_, _, hpt⟩
    · rw [htx, hpt, h.same.tpSends]
      exact hf
    · rw [hpt]
      nofun
  · rcases h.cases with ⟨_, _, htx, hpt'⟩ | ⟨_, ⟨new, hp⟩, _⟩
    · exact Or.inl ⟨htx, hpt', h.same.tpSends, fun hps => h.same.pendingSend.trans hps,
        fun _ => h.same.lastTx⟩
    · refine Or.inr ?_
      rw [hp]
      exact List.mem_cons_self

/-! ## Sending a message -/

/-- A transport has the message, its server is being resolved, or the transaction has been terminated. -/
def Placed (s : Tsx) (m : Msg) : Prop :=
  m ∈ s.handed ∨ .terminated ∈ s.path ∨ s.pendingTx = some m

/-- A transport is given nothing but the message `m` and the last one. -/
structure Only (s s' : Tsx) (m : Msg) : Prop where
  lastTx : s'.lastTx = s.lastTx
  finals : s'.finals = s.finals
  handed : ∃ new, s'.handed = new ++ s.handed ∧ ∀ x ∈ new, x = m ∨ s.lastTx = some x

theorem Only.trans {m : Msg} (h : Only s s' m) (h' : Only s' s'' m) : Only s s'' m := by
  rcases h.handed with ⟨new, hnew, hx⟩
  rcases h'.handed with ⟨new', hnew', hx'⟩
  refine ⟨h'.lastTx.trans h.lastTx, h'.finals.trans h.finals, new' ++ new, ?_, fun x hmem => ?_⟩
  · rw [hnew', hnew, List.append_assoc]
  · rcases List.mem_append.mp hmem with hmem | hmem
    · rw [← h.lastTx]
      exact hx' x hmem
    · exact hx x hmem

theorem Only.frame {m : Msg} (hl : s'.lastTx = s.lastTx) (hf : s'.finals = s.finals)
    (hh : s'.handed = s.handed) : Only s s' m := ⟨hl, hf, [], hh, nofun⟩

/-- What `tsx_send_msg` does with the message, apart from the resolution of the server. -/
inductive Sending (env : Env) (resolve : Attempt → Tsx → Msg → Tsx × Nat) (s : Tsx) (m : Msg)
    (r : Tsx × Nat) : Prop where
  | deferred (pending : s.pendingTransport = true) (eq : r = ({ s with pendingSend := true }, 0))
  | handed (idle : s.pendingTransport = false) (flow : Flow True s r.1) (ok : r.2 = 0)
      (handed : r.1.handed = m :: s.handed) (lastTx : r.1.lastTx = s.lastTx)
      (finals : r.1.finals = s.finals)
  | failed (idle : s.pendingTransport = false) (flow : Flow True s r.1) (err : r.2 ≠ 0)
      (same : r.1.handed = s.handed) (lastTx : r.1.lastTx = s.lastTx)
      (finals : r.1.finals = s.finals) (state : r.1.state = .terminated)
      (terminated : .terminated ∈ r.1.path)
  | resolve (resolves : s.resolves env = true) (s1 : Tsx) (flow : Flow True s s1) (base : Base s s1)
      (handed : s1.handed = s.handed) (lastTx : s1.lastTx = s.lastTx) (finals : s1.finals = s.finals)
      (transport : s1.transport = none)
      (server : s1.resolvedServer = s.resolvedServer) (tpSends : s1.tpSends = s.tpSends)
      (eq : r = resolve (env.attempt s.attempts) s1 m)

theorem sending_elsewhere (env : Env) (resolve : Attempt → Tsx → Msg → Tsx × Nat)
    (hpt : s.pendingTransport = false) (h : Flow True s s1) (hb : Base s s1)
    (hh : s1.handed = s.handed) (hl : s1.lastTx = s.lastTx) (hf : s1.finals = s.finals)
    (ht : s1.transport = none) (hn : s1.tpSends = s.tpSends) (hrs : s1.resolvedServer = s.resolvedServer)
    (hres : s.resolvedServer = false → s.resolves env = true) (m : Msg) (status : Nat) :
    Sending env resolve s m
      (sendElsewhere env (resolve (env.attempt s.attempts)) s1 m status) := by
  unfold sendElsewhere
  split
  · have hset : SetTo { s1 with statusCode := scTransportError } .terminated
        (tsxSetState env { s1 with statusCode := scTransportError } .terminated true) :=
      setTo_setState env _ (by decide) true
    have hcode : Flow True s1 { s1 with statusCode := scTransportError } :=
      Flow.frame rfl rfl rfl rfl rfl rfl rfl rfl rfl rfl rfl (fun _ => rfl)
        fun _ => (by decide : 100 ≤ scTransportError)
    refine .failed hpt ((h.trans hcode).trans (hset.flow fun hlt => absurd hlt (Nat.lt_irrefl _))) ?_
      (hset.same.handed.trans hh) (hset.same.lastTx.trans hl) (hset.same.finals.trans hf) ?_ ?_
    · dsimp only
      split
      · exact Nat.one_ne_zero
      · assumption
    · rcases hset.cases with ⟨hst, _⟩ | ⟨hst, _⟩
      · exact hst
      · exact hst
    · rcases hset.cases with ⟨_, hp, _⟩ | ⟨_, ⟨new, hp⟩, _⟩
      · rw [hp]
        exact List.mem_cons_self
      · rw [hp]
        exact List.mem_cons_self
  · rename_i hno
    exact .resolve (hres (hrs.symm.trans (Bool.eq_false_iff.mpr hno))) s1 h hb hh hl hf ht hrs hn rfl

theorem sending_sendMsgWith (env : Env) (resolve : Attempt → Tsx → Msg → Tsx × Nat) (h : Sound s)
    (m : Msg) :
    Sending env resolve s m (sendMsgWith env resolve s (some m)) := by
  have hhand : s.pendingTransport = false →
      Flow True s (Tsx.hand { s with attempts := s.attempts + 1 } m) := by
    intro hpt
    refine ⟨⟨rfl, ⟨[m], rfl⟩, ⟨[], rfl⟩, id, id⟩, fun _ => id, fun hpt' => ?_⟩
    rw [hpt] at hpt'
    cases hpt'
  unfold sendMsgWith
  dsimp only
  by_cases hpt : s.pendingTransport = true
  · rw [if_pos hpt]
    exact .deferred hpt rfl
  · rw [if_neg hpt]
    have hpt : s.pendingTransport = false := Bool.eq_false_iff.mpr hpt
    by_cases hp : (env.attempt s.attempts).isPending = true
    · rw [if_pos hp]
      exact .handed hpt (hhand hpt) rfl rfl rfl rfl
    · rw [if_neg hp]
      have hp : (env.attempt s.attempts).isPending = false := Bool.eq_false_iff.mpr hp
      split
      · rename_i ht
        have hflow : Flow True s { s with attempts := s.attempts + 1 } :=
          Flow.frame rfl rfl rfl rfl rfl rfl rfl rfl rfl rfl rfl (fun _ => rfl) id
        refine sending_elsewhere env resolve hpt hflow h.attempt.base rfl rfl rfl ht rfl rfl
          (fun hrv => ?_) m 0
        unfold Tsx.resolves
        rw [hpt, hp, hrv, ht]
        rfl
      · rename_i tp ht
        split
        · exact .handed hpt (hhand hpt) rfl rfl rfl rfl
        · refine .handed hpt ⟨⟨rfl, ⟨[m], rfl⟩, ⟨[], rfl⟩, id, id⟩, fun _ _ _ => Or.inr ?_,
            fun hpt' => ?_⟩ rfl rfl rfl rfl
          · exact Nat.succ_pos s.tpSends
          · rw [hpt] at hpt'
            cases hpt'
        · rename_i e hs
          have hflow : Flow True s
              { s with attempts := s.attempts + 1, transport := none, resAddr := false } :=
            ⟨⟨rfl, ⟨[], rfl⟩, ⟨[], rfl⟩, id, fun _ _ _ _ _ => rfl⟩, fun _ => id,
              fun _ => Or.inl ⟨rfl, rfl, rfl, id, fun _ => rfl⟩⟩
          refine sending_elsewhere env resolve hpt hflow h.releaseTransport.base rfl rfl rfl rfl rfl rfl
            (fun hrv => ?_) m (e + 1)
          unfold Tsx.resolves
          rw [hpt, hp, hrv, ht, hs]
          rfl

/-! ## `send_msg_callback` -/

/-- What `send_msg_callback` does for the message `m`: it is sent, with the one that waits behind it, or
the transaction is terminated, or another address is tried. -/
structure Called (s s' : Tsx) (m : Msg) : Prop where
  grow : Grow s s'
  only : Only s s' m
  flagged : Flagged s'
  placed : Placed s' m
  pendingTx : s'.pendingTx = none ∨ s'.pendingTx = some m
  waiting : s.pendingSend = true → s.pendingTransport = true → ∀ a, s.lastTx = some a →
    Placed s' a ∨ s'.pendingTx = some m ∧ s'.pendingSend = true ∧ s'.pendingTransport = true

/-- The retransmit timer and `TSX_HAS_PENDING_RESCHED`. -/
theorem flow_resched (env : Env) (s : Tsx) (m : Msg) :
    let s' := if s.pendingResched then
        if s.isReliable then { s with pendingResched := false }
        else Tsx.reschedRetransmission env { s with pendingResched := false }
      else s
    Flow True s s' ∧ Only s s' m ∧ s'.state = s.state ∧ s'.pendingTx = s.pendingTx := by
  have hresched : ∀ s0 : Tsx, Flow True s0 (s0.reschedRetransmission env) ∧
      Only s0 (s0.reschedRetransmission env) m ∧
      (s0.reschedRetransmission env).state = s0.state ∧
      (s0.reschedRetransmission env).pendingTx = s0.pendingTx := by
    intro s0
    have hite : ∀ msec, let s1 := if msec = 0 then s0 else s0.scheduleRetransmit
        Flow True s0 s1 ∧ Only s0 s1 m ∧ s1.state = s0.state ∧ s1.pendingTx = s0.pendingTx := by
      intro msec
      dsimp only
      split
      · exact ⟨Flow.refl s0, Only.frame rfl rfl rfl, rfl, rfl⟩
      · exact ⟨Flow.frame rfl rfl rfl rfl rfl rfl rfl rfl rfl rfl rfl (fun _ => rfl) id,
          Only.frame rfl rfl rfl, rfl, rfl⟩
    exact hite _
  have hclear : Flow True s { s with pendingResched := false } :=
    Flow.frame rfl rfl rfl rfl rfl rfl rfl rfl rfl rfl rfl (fun _ => rfl) id
  have honly : Only s { s with pendingResched := false } m := Only.frame rfl rfl rfl
  dsimp only
  split
  · split
    · exact ⟨hclear, honly, rfl, rfl⟩
    · rcases hresched { s with pendingResched := false } with ⟨h1, h2, h3, h4⟩
      exact ⟨hclear.trans h1, honly.trans h2, h3, h4⟩
  · exact ⟨Flow.refl s, Only.frame rfl rfl rfl, rfl, rfl⟩

/-- The last message is sent when the server is resolved. -/
theorem resolved_places (env : Env) (h : Sound s) (hpt : s.pendingTransport = false)
    (hrs : s.resolvedServer = true) (tdata : Option Msg) (hlast : s.lastTx = tdata) (m : Msg) :
    let s' := (sendMsgResolved env s tdata).1
    Grow s s' ∧ Only s s' m ∧ Flagged s' ∧
      ∀ a, tdata = some a → a ∈ s'.handed ∨ .terminated ∈ s'.path := by
  have hno : Flagged s := by
    intro hpt'
    rw [hpt] at hpt'
    cases hpt'
  cases tdata with
  | none => exact ⟨Grow.refl s, Only.frame rfl rfl rfl, hno, nofun⟩
  | some a =>
      show let s' := (sendMsgWith env (fun _ s _ => (s, 0)) s (some a)).1
        Grow s s' ∧ Only s s' m ∧ Flagged s' ∧
          ∀ b, some a = some b → b ∈ s'.handed ∨ .terminated ∈ s'.path
      dsimp only
      cases sending_sendMsgWith env (fun _ s _ => (s, 0)) h a with
      | deferred hp _ =>
          rw [hpt] at hp
          cases hp
      | handed _ hflow _ hh hl hf =>
          refine ⟨hflow.toGrow, ⟨hl, hf, [a], hh, fun x hx => ?_⟩, hflow.flagged trivial hno,
            fun b hb => Or.inl ?_⟩
          · rw [List.mem_singleton.mp hx]
            exact Or.inr hlast
          · cases hb
            rw [hh]
            exact List.mem_cons_self
      | failed _ hflow _ hsame hl hf _ hterm =>
          exact ⟨hflow.toGrow, Only.frame hl hf hsame, hflow.flagged trivial hno, fun _ _ => Or.inr hterm⟩
      | resolve hres _ _ _ _ _ _ _ _ _ =>
          unfold Tsx.resolves at hres
          rw [hrs] at hres
          simp at hres

/-- The server is resolved: what waits is sent. -/
theorem afterSent_places (env : Env) (h : Sound s) (hpt : s.pendingTransport = false)
    (hrs : s.resolvedServer = true) (m : Msg) :
    Grow s (afterSent env s) ∧ Only s (afterSent env s) m ∧ Flagged (afterSent env s) ∧
      (s.pendingSend = true → ∀ a, s.lastTx = some a →
        a ∈ (afterSent env s).handed ∨ .terminated ∈ (afterSent env s).path) := by
  have hfirst : let s1 := if s.pendingSend then
        (sendMsgResolved env { s with pendingSend := false } s.lastTx).1 else s
      Grow s s1 ∧ Only s s1 m ∧ Flagged s1 ∧ (s.pendingSend = true → ∀ a, s.lastTx = some a →
        a ∈ s1.handed ∨ .terminated ∈ s1.path) := by
    dsimp only
    split
    · have h0 : Sound { s with pendingSend := false } :=
        ⟨h.path, h.states, h.pendingTx, h.tpSends, h.ended, h.pendingDestroy,
          h.clientTransport, fun _ _ => nofun⟩
      have hclear : Grow s { s with pendingSend := false } := ⟨rfl, ⟨[], rfl⟩, ⟨[], rfl⟩, id, id⟩
      have honly : Only s { s with pendingSend := false } m := Only.frame rfl rfl rfl
      rcases resolved_places env h0 hpt hrs s.lastTx rfl m with ⟨hg, ho, hf, hsent⟩
      exact ⟨hclear.trans hg, honly.trans ho, hf, fun _ => hsent⟩
    · rename_i hps
      refine ⟨Grow.refl s, Only.frame rfl rfl rfl, fun hpt' => ?_, fun hps' => absurd hps' hps⟩
      rw [hpt] at hpt'
      cases hpt'
  unfold afterSent
  dsimp only at hfirst ⊢
  generalize (if s.pendingSend then
    (sendMsgResolved env { s with pendingSend := false } s.lastTx).1 else s) = s1 at hfirst ⊢
  rcases hfirst with ⟨hgrow, honly, hflag, hsent⟩
  rcases flow_resched env s1 m with ⟨hflow, honly', _, _⟩
  refine ⟨hgrow.trans hflow.toGrow, honly.trans honly', hflow.flagged trivial hflag, fun hps a hl => ?_⟩
  rcases hsent hps a hl with hmem | hterm
  · exact Or.inl (hflow.mem_handed hmem)
  · exact Or.inr (hflow.terminated hterm)

/-- The message has been sent with the transport `tp`. -/
theorem called_sent (env : Env) (h : Sound s) (hlt : s.state.rank < State.terminated.rank) {m : Msg}
    (hm : s.pendingTx = some m) (tp : Tp) : Called s (sendMsgCallback env s (.sent tp)) m := by
  have hsent : ∀ s1 : Tsx, s1.role = s.role → s1.invite = s.invite → s1.state = s.state →
      s1.path = s.path → s1.pendingTx = none → s1.pendingDestroy = s.pendingDestroy →
      s1.handed = m :: s.handed → s1.lastTx = s.lastTx → s1.finals = s.finals →
      s1.pendingSend = s.pendingSend → s1.statusCode = s.statusCode →
      Called s (afterSent env { s1 with pendingTransport := false, resolvedServer := true }) m := by
    intro s1 hr hi hst hp htx hpd hh hl hf hps hc
    have hs2 := h.resolved hr hi hst hp htx hpd
    rcases afterSent_places env hs2 rfl rfl m with ⟨hg, ho, hflag, hwait⟩
    have hg1 : Grow s { s1 with pendingTransport := false, resolvedServer := true } := by
      refine ⟨hr, ⟨[m], hh⟩, ⟨[], hp⟩, ?_, fun _ _ _ hno => ?_⟩
      · dsimp only
        rw [hc]
        exact id
      · cases hno
    have ho1 : Only s { s1 with pendingTransport := false, resolvedServer := true } m :=
      ⟨hl, hf, [m], hh, fun x hx => Or.inl (List.mem_singleton.mp hx)⟩
    have hlt2 : s1.state.rank < State.terminated.rank := by
      rw [hst]
      exact hlt
    refine ⟨hg1.trans hg, ho1.trans ho, hflag, Or.inl (hg.mem_handed ?_), Or.inl ?_,
      fun hps' _ a ha => ?_⟩
    · show m ∈ s1.handed
      rw [hh]
      exact List.mem_cons_self
    · rcases afterSent_cases env hs2 hlt2 rfl with ⟨_, htx'⟩ | ⟨hterm, _⟩
      · exact htx'.trans htx
      · exact hterm.pendingTx
    · rcases hwait (hps.trans hps') a (hl.trans ha) with hmem | hterm
      · exact Or.inl (Or.inl hmem)
      · exact Or.inl (Or.inr (Or.inl hterm))
  unfold sendMsgCallback
  rw [hm]
  dsimp only
  have hpd : s.pendingDestroy = false := h.pendingDestroy
  split
  · rw [if_neg (by show ¬ s.pendingDestroy = true; rw [hpd]; exact Bool.false_ne_true)]
    exact hsent (Tsx.hand { s with pendingTx := none } m) rfl rfl rfl rfl rfl rfl rfl rfl rfl rfl rfl
  · unfold Tsx.updateTransport
    dsimp only
    split
    · rw [if_neg (by show ¬ s.pendingDestroy = true; rw [hpd]; exact Bool.false_ne_true)]
      exact hsent { Tsx.postTransportErr
        { Tsx.hand { s with pendingTx := none } m with transport := some tp.id } scTransportError with
          isReliable := tp.reliable } rfl rfl rfl rfl rfl rfl rfl rfl rfl rfl rfl
    · rw [if_neg (by show ¬ s.pendingDestroy = true; rw [hpd]; exact Bool.false_ne_true)]
      exact hsent { Tsx.hand { s with pendingTx := none } m with
        transport := some tp.id
        isReliable := tp.reliable } rfl rfl rfl rfl rfl rfl rfl rfl rfl rfl rfl

/-- The message cannot be sent to this address. -/
theorem called_failed (env : Env) (h : Sound s) (hlt : s.state.rank < State.terminated.rank) {m : Msg}
    (hm : s.pendingTx = some m) (e : Nat) (noServer : Bool) (tp : Option Nat) (cont : Bool) :
    Called s (sendMsgCallback env s (.failed e noServer tp cont)) m := by
  have hpt : s.pendingTransport = true := (h.pendingTx (by rw [hm]; rfl)).1
  have hne : s.state ≠ .terminated ∧ s.state ≠ .destroyed := by
    constructor
    · intro hst
      rw [hst] at hlt
      exact absurd hlt (Nat.lt_irrefl _)
    · intro hst
      rw [hst] at hlt
      exact absurd hlt (by decide)
  -- Whether the transport is given up or not, the transaction is terminated or the message goes on.
  have hgo : ∀ t : Option Nat, Called s (if !cont || s.pendingDestroy then
        sendFailed env { s with pendingTx := none, transport := t } e noServer
      else
        { (if s.timeoutTimer.id = timerInactive then
            { s with pendingTx := none, transport := t, retransmitCount := 0 }
          else Tsx.resetTimeout
            { s with pendingTx := none, transport := t, retransmitCount := 0 } timeoutTimerId) with
          pendingTx := some m }) m := by
    intro t
    split
    · unfold sendFailed
      dsimp only
      rw [if_pos hne]
      have hset := setTo_setState env { s with
        pendingTx := none
        transport := t
        transportErr := e + 1
        pendingTransport := false
        resolvedServer := true
        statusCode := if noServer then scBadGateway else scTransportError }
        (by decide : State.terminated ≠ .destroyed) true
      have hflow := hset.flow (p := True) fun hlt => absurd hlt (Nat.lt_irrefl _)
      have hg : Grow s { s with
          pendingTx := none
          transport := t
          transportErr := e + 1
          pendingTransport := false
          resolvedServer := true
          statusCode := if noServer then scBadGateway else scTransportError } := by
        refine ⟨rfl, ⟨[], rfl⟩, ⟨[], rfl⟩, fun _ => ?_, fun _ _ _ hno => ?_⟩
        · dsimp only
          split
          · exact (by decide : 100 ≤ scBadGateway)
          · exact (by decide : 100 ≤ scTransportError)
        · cases hno
      have hterm : .terminated ∈ (tsxSetState env { s with
          pendingTx := none
          transport := t
          transportErr := e + 1
          pendingTransport := false
          resolvedServer := true
          statusCode := if noServer then scBadGateway else scTransportError } .terminated true).path := by
        rcases hset.cases with ⟨_, hp, _⟩ | ⟨_, ⟨new, hp⟩, _⟩
        · rw [hp]
          exact List.mem_cons_self
        · rw [hp]
          exact List.mem_cons_self
      refine ⟨hg.trans hflow.toGrow, Only.frame hset.same.lastTx hset.same.finals hset.same.handed,
        hflow.flagged trivial nofun, Or.inr (Or.inl hterm), Or.inl ?_,
        fun _ _ _ _ => Or.inl (Or.inr (Or.inl hterm))⟩
      rcases hset.pendingTx with htx | htx
      · exact htx
      · exact htx
    · have haddr : ∀ s1 : Tsx, s1.resolvedServer = s.resolvedServer → s1.role = s.role →
          s1.state = s.state → s1.resAddr = s.resAddr → AddrOk s → AddrOk s1 := by
        intro s1 hrs hr hst ha hok hr' hlt' hrs' _
        rw [ha]
        exact hok (hr.symm.trans hr') (by rw [← hst]; exact hlt') (hrs.symm.trans hrs')
          (Or.inr (by rw [hm]; rfl))
      split
      · exact ⟨⟨rfl, ⟨[], rfl⟩, ⟨[], rfl⟩, id, haddr _ rfl rfl rfl rfl⟩, Only.frame rfl rfl rfl,
          fun _ => Or.inl rfl, Or.inr (Or.inr rfl), Or.inr rfl, fun hps hpt' _ _ => Or.inr ⟨rfl, hps, hpt'⟩⟩
      · exact ⟨⟨rfl, ⟨[], rfl⟩, ⟨[], rfl⟩, id, haddr _ rfl rfl rfl rfl⟩, Only.frame rfl rfl rfl,
          fun _ => Or.inl rfl, Or.inr (Or.inr rfl), Or.inr rfl, fun hps hpt' _ _ => Or.inr ⟨rfl, hps, hpt'⟩⟩
  unfold sendMsgCallback
  rw [hm]
  dsimp only
  split
  · exact hgo none
  · exact hgo s.transport

/-- **`send_msg_callback`** for the message that is being sent. -/
theorem called_sendMsgCallback (env : Env) (h : Sound s) {m : Msg} (hm : s.pendingTx = some m)
    (cb : SendCb) : Called s (sendMsgCallback env s cb) m := by
  have hlt := (h.pendingTx (by rw [hm]; rfl)).2
  cases cb with
  | sent tp => exact called_sent env h hlt hm tp
  | failed e noServer tp cont => exact called_failed env h hlt hm e noServer tp cont

/-- The calls of `send_msg_callback` before the resolution returns. -/
theorem foldl_places (env : Env) {m : Msg} (l : List SendCb) :
    ∀ s, Sound s → s.pendingTx = some m →
      let s' := l.foldl (sendMsgCallback env) s
      Grow s s' ∧ Only s s' m ∧ Flagged s' ∧ Placed s' m := by
  induction l with
  | nil =>
      intro s _ hm
      refine ⟨Grow.refl s, Only.frame rfl rfl rfl, fun _ => Or.inl ?_, Or.inr (Or.inr hm)⟩
      show s.pendingTx.isSome = true
      rw [hm]
      rfl
  | cons cb l ih =>
      intro s h hm
      have hcalled := called_sendMsgCallback env h hm cb
      dsimp only
      rw [List.foldl_cons]
      rcases hcalled.pendingTx with htx | htx
      · rw [foldl_sendMsgCallback_none env l htx]
        exact ⟨hcalled.grow, hcalled.only, hcalled.flagged, hcalled.placed⟩
      · have hlt := (h.pendingTx (by rw [hm]; rfl)).2
        have hsound : Sound (sendMsgCallback env s cb) := by
          cases sendMsgCallback_cases env h hlt cb with
          | stay hs _ => exact hs.base.sound
          | next hs _ _ => exact hs.base.sound
          | term ht _ _ => exact ht.sound
        rcases ih _ hsound htx with ⟨hg, ho, hf, hp⟩
        exact ⟨hcalled.grow.trans hg, hcalled.only.trans ho, hf, hp⟩

/-! ## `tsx_send_msg` -/

/-- `pjsip_endpt_send_request_stateless` fails at once. -/
def Tsx.requestErrs (env : Env) (s : Tsx) (m : Msg) : Bool :=
  s.resolutionErrs env && (decide (s.role = .uac) || m.code.isNone)

/-- **`tsx_send_msg`**: the message waits for the transport, or what becomes of it is known. -/
structure SendSpec (env : Env) (s : Tsx) (m : Msg) (r : Tsx × Nat) : Prop where
  grow : Grow s r.1
  only : Only s r.1 m
  waits : s.pendingTransport = true → r = ({ s with pendingSend := true }, 0)
  flagged : AddrOk s → s.requestErrs env m = false → Flagged s → Flagged r.1
  placed : s.pendingTransport = false → r.2 = 0 → Placed r.1 m
  err : AddrOk s → s.requestErrs env m = false → r.2 ≠ 0 → Term s r.1

/-- A response has no error of its own. -/
theorem resolutionFor_ok (env : Env) (hres : s.resolves env = true) {m : Msg} {s0 : Tsx} {e : Nat}
    (hno : s.requestErrs env m = false) (haddr : s.role = .uas → s0.resAddr = false) :
    (env.attempt s.attempts).resolutionFor s0 m ≠ .error e := by
  intro herr
  have hr := resolution_of_error herr
  unfold Tsx.requestErrs Tsx.resolutionErrs at hno
  rw [hres, hr] at hno
  unfold Attempt.resolutionFor at herr
  rw [hr] at herr
  cases hrole : s.role with
  | uac =>
      rw [hrole] at hno
      cases hno
  | uas =>
      rw [hrole] at hno
      dsimp only at herr hno
      rw [haddr hrole] at herr
      cases hcode : m.code with
      | none =>
          rw [hcode] at hno
          cases hno
      | some code =>
          rw [hcode] at herr
          cases herr

theorem send_spec (env : Env) (h : Sound s) (hlt : s.state.rank < State.terminated.rank) (m : Msg) :
    SendSpec env s m (tsxSendMsg env s (some m)) := by
  have hsent := tsxSendMsg_spec env h hlt m
  have hterm : (tsxSendMsg env s (some m)).1.state = .terminated →
      Term s (tsxSendMsg env s (some m)).1 := by
    intro hst
    rcases hsent.cases with h1 | h1
    · rw [h1.base.state] at hst
      rw [hst] at hlt
      exact absurd hlt (Nat.lt_irrefl _)
    · exact h1.1
  have hcases : Sending env (resolveServer env) s m (tsxSendMsg env s (some m)) :=
    sending_sendMsgWith env (resolveServer env) h m
  generalize tsxSendMsg env s (some m) = r at hcases hterm hsent ⊢
  have hbusy : s.pendingTransport = false → s.pendingTransport = true → r = ({ s with pendingSend := true }, 0) := by
    intro hpt hpt'
    rw [hpt] at hpt'
    cases hpt'
  cases hcases with
  | deferred hpt heq =>
      rw [heq]
      refine ⟨⟨rfl, ⟨[], rfl⟩, ⟨[], rfl⟩, id, id⟩, Only.frame rfl rfl rfl, fun _ => rfl,
        fun _ _ => id, fun hno => ?_, fun _ _ hne => absurd rfl hne⟩
      rw [hpt] at hno
      cases hno
  | handed hpt hflow hok hh hl hf =>
      refine ⟨hflow.toGrow, ⟨hl, hf, [m], hh, fun x hx => Or.inl (List.mem_singleton.mp hx)⟩,
        hbusy hpt, fun _ _ => hflow.flagged trivial, fun _ _ => Or.inl ?_, fun _ _ hne => absurd hok hne⟩
      rw [hh]
      exact List.mem_cons_self
  | failed hpt hflow herr hsame hl hf hst hmem =>
      exact ⟨hflow.toGrow, Only.frame hl hf hsame, hbusy hpt, fun _ _ => hflow.flagged trivial,
        fun _ hok => absurd hok herr, fun _ _ _ => hterm hst⟩
  | resolve hres s1 hflow hbase hh hl hf ht hrs hn heq =>
      -- Nothing is pending and no server is resolved: the sending starts from `s1`.
      have hres' := hres
      unfold Tsx.resolves at hres'
      simp only [Bool.and_eq_true, Bool.not_eq_true'] at hres'
      have hpt := hres'.1.1.1
      have hlt1 : s1.state.rank < State.terminated.rank := by
        rw [hbase.state]
        exact hlt
      have haddr1 : AddrOk s → s.role = .uas → s1.resAddr = false := by
        intro ha hr
        exact hflow.addr ha (hflow.role.trans hr) hlt1 (hrs.trans hres'.1.2) (Or.inl ht)
      have htps : s1.tpSends = 0 := hn.trans (h.tpSends_of_resolves hlt hres)
      have hg0 : Grow s1 { s1 with pendingTx := some m, pendingTransport := true } :=
        ⟨rfl, ⟨[], rfl⟩, ⟨[], rfl⟩, id, fun ha hr hlt' hrs' _ => ha hr hlt' hrs' (Or.inl ht)⟩
      have ho : Only s { s1 with pendingTx := some m, pendingTransport := true } m := Only.frame hl hf hh
      unfold resolveServer at heq
      dsimp only at heq
      cases hfor : (env.attempt s.attempts).resolutionFor
          { s1 with pendingTx := some m, pendingTransport := true } m with
      | error e =>
          have hex : AddrOk s → s.requestErrs env m = false → False := fun ha hno =>
            resolutionFor_ok env hres hno (fun hr => haddr1 ha hr) hfor
          rw [hfor] at heq
          rw [heq]
          refine ⟨hflow.toGrow.trans ⟨rfl, ⟨[], rfl⟩, ⟨[], rfl⟩, id,
            fun ha hr hlt' hrs' _ => ha hr hlt' hrs' (Or.inl ht)⟩, Only.frame hl hf hh, ?_,
            fun ha hno => absurd (hex ha hno) id, fun _ hok => absurd hok (Nat.succ_ne_zero e),
            fun ha hno => absurd (hex ha hno) id⟩
          intro hpt'
          rw [hpt] at hpt'
          cases hpt'
      | calls l =>
          rw [hfor] at heq
          have hs0 : Sound { s1 with pendingTx := some m, pendingTransport := true } :=
            hbase.sound.resolving hlt1 htps m
          rcases foldl_places env l _ hs0 rfl with ⟨hg, ho', hf', hp⟩
          rw [heq] at hterm hsent ⊢
          refine ⟨(hflow.toGrow.trans hg0).trans hg, ho.trans ho', ?_, fun _ _ _ => hf',
            fun _ _ => hp, fun _ _ hne => hterm ?_⟩
          · intro hpt'
            rw [hpt] at hpt'
            cases hpt'
          · by_contra hst
            dsimp only at hne hst
            rw [if_neg hst] at hne
            exact hne rfl

end Sip
