import PjProject.Sip.Deferred

set_option autoImplicit false

/-! # Retransmissions are faithful

`tsx_on_state_proceeding_uas` drops the last response before it sends a new one, and saves the new one
only when `tsx_send_msg` has returned success. Where it has not, the transaction is as it was or has been
terminated (`Taken.refused`), so in PROCEEDING and COMPLETED the last response is always the one that
was accepted last, and a retransmission sends nothing else. While `pjsip_transport_send` is sending, it
only notes that there is something to send: `send_msg_callback` sends it then, `transport_callback` does
not. A client transaction reports one final response, and in COMPLETED its last message is the ACK for it.
-/

namespace Sip

open Machine

variable {s s' : Tsx} {w w' : Watch}

/-! ## What is claimed -/

/-- The request comes again, or the retransmit timer fires. -/
def Repeats (s : Tsx) : Op → Prop
  | .recvRequest ack => s.state = .proceeding ∨ ack = false
  | .retransmitTimer => s.retransmitTimer.running = true
  | _ => False

/-- The step gives the message to `tsx_send_msg`, after changes of timers only, and no other message
to a transport. -/
structure SendsOnly (env : Env) (s : Tsx) (op : Op) (m : Msg) : Prop where
  sends : ∃ s1, Same s s1 ∧ step env s op = .ok (tsxSendMsg env s1 (some m)).1
  only : ∀ s', step env s op = .ok s' → ∃ new, s'.handed = new ++ s.handed ∧ ∀ x ∈ new, x = m

/-- A transport is given the message: in the step, or as soon as a transport is found for the message
whose server is being resolved, and then behind that message if it was there before. -/
def Given (env : Env) (s s' : Tsx) (m : Msg) : Prop :=
  (∃ new, s'.handed = new ++ s.handed ∧ m ∈ new) ∨
    ∀ tp, ∃ new, (sendMsgCallback env s' (.sent tp)).handed = new ++ (s.pendingTx.toList ++ s.handed) ∧
      m ∈ new

/-- The message is sent again; one that a transport still has is not. -/
structure Resends (env : Env) (s : Tsx) (op : Op) (m : Msg) : Prop where
  idle : (env.attempt s.attempts).isPending = false
  given : ∀ s', step env s op = .ok s' → Given env s s' m

/-- `pjsip_transport_send` takes the message. -/
def TpSend.takes : TpSend → Bool
  | .error _ => false
  | _ => true

/-- A transport is found, or is still looked for. -/
def callsFind : List SendCb → Bool
  | [] => true
  | .sent _ :: _ => true
  | .failed _ _ _ cont :: l => cont && callsFind l

/-- The resolution of the server does not fail at once. -/
def Resolution.finds : Resolution → Bool
  | .error _ => false
  | .calls l => callsFind l

/-- What the next send meets: no transport still has the message, and the transport takes it. Where one
is pending it is the resolution of the server that is, and where there is none the server can still be
resolved. -/
def Tsx.canResend (env : Env) (s : Tsx) : Bool :=
  let a := env.attempt s.attempts
  !a.isPending &&
    if s.pendingTransport then s.pendingTx.isSome && a.tpSend.takes
    else s.transport.isSome && a.tpSend.takes || !s.resolvedServer && a.resolution.finds

/-- **Retransmissions are faithful.** -/
structure Faithful (env : Env) (w : Watch) : Prop where
  server : w.tsx.role = .uas → w.tsx.state = .proceeding ∨ w.tsx.state = .completed →
    ∃ m, w.tsx.lastTx = some m ∧ w.accepted.head? = some m ∧
      ∀ op, Repeats w.tsx op → SendsOnly env w.tsx op m ∧
        (w.tsx.canResend env = true → Resends env w.tsx op m)
  client : w.tsx.role = .uac → w.tsx.state = .calling ∨ w.tsx.state = .proceeding →
    w.tsx.lastTx.isSome = true
  reported : w.tsx.role = .uac → w.tsx.finals.length ≤ 1
  acknowledges : w.tsx.role = .uac → w.tsx.invite = true → w.tsx.state = .completed →
    ∃ code ack, w.tsx.finals = [(code, some ack)] ∧ 300 ≤ code.val ∧
      ∀ code' ack', 200 ≤ code'.val → SendsOnly env w.tsx (.recvResponse code' ack') ack ∧
        (w.tsx.canResend env = true → Resends env w.tsx (.recvResponse code' ack') ack)

/-! ## The message is given to a transport -/

/-- `send_msg_callback` for a message that has been sent goes on with what waits. -/
theorem sendMsgCallback_sent (env : Env) (h : Sound s) {x : Msg} (hx : s.pendingTx = some x) (tp : Tp) :
    ∃ s2, sendMsgCallback env s (.sent tp) = afterSent env s2 ∧ Sound s2 ∧
      s2.pendingTransport = false ∧ s2.resolvedServer = true ∧ s2.transport = some tp.id ∧
      s2.handed = x :: s.handed ∧ s2.pendingSend = s.pendingSend ∧ s2.lastTx = s.lastTx ∧
      s2.attempts = s.attempts := by
  have hgoes : ∀ s1 : Tsx, s1.role = s.role → s1.invite = s.invite → s1.state = s.state →
      s1.path = s.path → s1.pendingTx = none → s1.pendingDestroy = s.pendingDestroy →
      s1.transport = some tp.id → s1.handed = x :: s.handed → s1.pendingSend = s.pendingSend →
      s1.lastTx = s.lastTx → s1.attempts = s.attempts →
      ∃ s2, (if s1.pendingDestroy then
          tsxSetState env { s1 with pendingTransport := false, resolvedServer := true } .destroyed true
        else afterSent env { s1 with pendingTransport := false, resolvedServer := true }) =
          afterSent env s2 ∧ Sound s2 ∧
        s2.pendingTransport = false ∧ s2.resolvedServer = true ∧ s2.transport = some tp.id ∧
        s2.handed = x :: s.handed ∧ s2.pendingSend = s.pendingSend ∧ s2.lastTx = s.lastTx ∧
        s2.attempts = s.attempts := by
    intro s1 hr hi hst hp htx hpd ht hh hps hl hat
    rw [if_neg (by rw [hpd, h.pendingDestroy]; exact Bool.false_ne_true)]
    exact ⟨_, rfl, h.resolved hr hi hst hp htx hpd, rfl, rfl, ht, hh, hps, hl, hat⟩
  unfold sendMsgCallback
  rw [hx]
  dsimp only
  split
  · rename_i ht
    exact hgoes (Tsx.hand { s with pendingTx := none } x) rfl rfl rfl rfl rfl rfl ht rfl rfl rfl rfl
  · unfold Tsx.updateTransport
    dsimp only
    split
    · exact hgoes { Tsx.postTransportErr
        { Tsx.hand { s with pendingTx := none } x with transport := some tp.id } scTransportError with
          isReliable := tp.reliable } rfl rfl rfl rfl rfl rfl rfl rfl rfl rfl rfl
    · exact hgoes { Tsx.hand { s with pendingTx := none } x with
        transport := some tp.id
        isReliable := tp.reliable } rfl rfl rfl rfl rfl rfl rfl rfl rfl rfl rfl

/-- The message whose server has been resolved is with the transport. -/
theorem sent_handed (env : Env) (h : Sound s) {x : Msg} (hx : s.pendingTx = some x) (tp : Tp) :
    ∃ new, (sendMsgCallback env s (.sent tp)).handed = new ++ x :: s.handed := by
  rcases sendMsgCallback_sent env h hx tp with ⟨s2, heq, hs2, hpt, hrs, _, hh, _⟩
  rcases (afterSent_places env hs2 hpt hrs x).1.handed with ⟨new, hnew⟩
  exact ⟨new, by rw [heq, hnew, hh]⟩

/-- A transport that takes the message has it. -/
theorem sendMsgWith_takes (env : Env) (resolve : Attempt → Tsx → Msg → Tsx × Nat) {m : Msg}
    (hpt : s.pendingTransport = false) (hp : (env.attempt s.attempts).isPending = false)
    (ht : s.transport.isSome = true) (htakes : (env.attempt s.attempts).tpSend.takes = true) :
    (sendMsgWith env resolve s (some m)).1.handed = m :: s.handed := by
  rcases Option.isSome_iff_exists.mp ht with ⟨tp, ht⟩
  unfold sendMsgWith
  dsimp only
  rw [hpt, hp, ht, if_neg Bool.false_ne_true, if_neg Bool.false_ne_true]
  cases hs : (env.attempt s.attempts).tpSend with
  | ok => rfl
  | pending => rfl
  | error e =>
      rw [hs] at htakes
      cases htakes

/-- What waits while the server is resolved is sent behind the message that is being sent. -/
theorem waiting_handed (env : Env) (h : Sound s) {x m : Msg} (hx : s.pendingTx = some x)
    (hl : s.lastTx = some m) (hps : s.pendingSend = true)
    (hp : (env.attempt s.attempts).isPending = false)
    (htakes : (env.attempt s.attempts).tpSend.takes = true) (tp : Tp) :
    ∃ new, (sendMsgCallback env s (.sent tp)).handed = new ++ x :: s.handed ∧ m ∈ new := by
  rcases sendMsgCallback_sent env h hx tp with ⟨s2, heq, _, hpt, _, ht, hh, hps2, hl2, hat⟩
  have hsent : (sendMsgResolved env { s2 with pendingSend := false } s2.lastTx).1.handed =
      m :: s2.handed := by
    rw [hl2, hl]
    unfold sendMsgResolved
    refine sendMsgWith_takes env _ hpt ?_ ?_ ?_
    · show (env.attempt s2.attempts).isPending = false
      rw [hat]
      exact hp
    · show s2.transport.isSome = true
      rw [ht]
      rfl
    · show (env.attempt s2.attempts).tpSend.takes = true
      rw [hat]
      exact htakes
  rw [heq]
  unfold afterSent
  dsimp only
  rw [if_pos (hps2.trans hps)]
  generalize (sendMsgResolved env { s2 with pendingSend := false } s2.lastTx).1 = s3 at hsent ⊢
  rcases (flow_resched env s3 m).1.handed with ⟨new, hnew⟩
  refine ⟨new ++ [m], ?_, List.mem_append_right new List.mem_cons_self⟩
  rw [hnew, hsent, hh]
  simp

/-- Another address is tried for the message. -/
theorem failed_next (env : Env) (h : Sound s) {m : Msg} (hm : s.pendingTx = some m) (e : Nat)
    (noServer : Bool) (tp : Option Nat) :
    let s' := sendMsgCallback env s (.failed e noServer tp true)
    Sound s' ∧ s'.pendingTx = some m ∧ s'.handed = s.handed := by
  have hlt := (h.pendingTx (by rw [hm]; rfl)).2
  have hsound : Sound (sendMsgCallback env s (.failed e noServer tp true)) := by
    cases sendMsgCallback_cases env h hlt (.failed e noServer tp true) with
    | stay hs _ => exact hs.base.sound
    | next hs _ _ => exact hs.base.sound
    | term ht _ _ => exact ht.sound
  have hgo : ∀ t : Option Nat, ((!true || s.pendingDestroy) = true) = False := by
    intro _
    rw [h.pendingDestroy]
    exact eq_false Bool.false_ne_true
  refine ⟨hsound, ?_⟩
  unfold sendMsgCallback
  rw [hm]
  dsimp only
  split
  · rw [if_neg (by rw [hgo none]; exact id)]
    split
    · exact ⟨rfl, rfl⟩
    · exact ⟨rfl, rfl⟩
  · rw [if_neg (by rw [hgo none]; exact id)]
    split
    · exact ⟨rfl, rfl⟩
    · exact ⟨rfl, rfl⟩

/-- The calls of `send_msg_callback` before the resolution returns: the message is with a transport, or
one is still looked for. -/
theorem foldl_finds (env : Env) {m : Msg} (l : List SendCb) :
    ∀ s, Sound s → s.pendingTx = some m → callsFind l = true →
      let s' := l.foldl (sendMsgCallback env) s
      (∃ new, s'.handed = new ++ m :: s.handed) ∨
        Sound s' ∧ s'.pendingTx = some m ∧ s'.handed = s.handed := by
  induction l with
  | nil => exact fun s h hm _ => Or.inr ⟨h, hm, rfl⟩
  | cons cb l ih =>
      intro s h hm hfind
      dsimp only
      rw [List.foldl_cons]
      cases cb with
      | sent tp =>
          -- What the callback is told after that does not matter.
          have hcalled := called_sendMsgCallback env h hm (.sent tp)
          rcases sent_handed env h hm tp with ⟨new, hnew⟩
          refine Or.inl ?_
          rcases hcalled.pendingTx with htx | htx
          · rw [foldl_sendMsgCallback_none env l htx]
            exact ⟨new, hnew⟩
          · have hlt := (h.pendingTx (by rw [hm]; rfl)).2
            have hsound : Sound (sendMsgCallback env s (.sent tp)) := by
              cases sendMsgCallback_cases env h hlt (.sent tp) with
              | stay hs _ => exact hs.base.sound
              | next hs _ _ => exact hs.base.sound
              | term ht _ _ => exact ht.sound
            rcases (foldl_places env l _ hsound htx).1.handed with ⟨l', hl'⟩
            exact ⟨l' ++ new, by rw [hl', hnew, List.append_assoc]⟩
      | failed e noServer tp cont =>
          have hfind := Bool.and_eq_true_iff.mp hfind
          rw [hfind.1]
          rcases failed_next env h hm e noServer tp with ⟨hs, htx, hh⟩
          rcases ih _ hs htx hfind.2 with ⟨new, hnew⟩ | hgo
          · exact Or.inl ⟨new, by rw [hnew, hh]⟩
          · exact Or.inr ⟨hgo.1, hgo.2.1, hgo.2.2.trans hh⟩

/-! ## The last message is sent again -/

/-- The resolution of the server gives the message to a transport. -/
theorem resolveServer_given (env : Env) (h : Sound s) (hlt : s.state.rank < State.terminated.rank)
    (htps : s.tpSends = 0) {a : Attempt} (hfind : a.resolution.finds = true) (m : Msg) :
    (∃ new, (resolveServer env a s m).1.handed = new ++ m :: s.handed) ∨
      ∀ tp, ∃ new, (sendMsgCallback env (resolveServer env a s m).1 (.sent tp)).handed =
        new ++ m :: s.handed := by
  have hs1 : Sound { s with pendingTx := some m, pendingTransport := true } := by
    refine ⟨h.path, h.states, fun _ => ⟨rfl, hlt⟩, fun _ => Or.inl htps, fun hle => ?_,
      h.pendingDestroy, h.clientTransport, fun _ _ _ => Or.inr rfl⟩
    exact absurd hle (Nat.not_le_of_lt hlt)
  unfold resolveServer Attempt.resolutionFor
  cases hres : a.resolution with
  | error e =>
      rw [hres] at hfind
      cases hfind
  | calls l =>
      rw [hres] at hfind
      dsimp only
      rcases foldl_finds env l _ hs1 rfl hfind with hh | ⟨hs2, htx, hh⟩
      · exact Or.inl hh
      · refine Or.inr fun tp => ?_
        rcases sent_handed env hs2 htx tp with ⟨new, hnew⟩
        exact ⟨new, by rw [hnew, hh]⟩

/-- Without a transport that takes the message the server is resolved. -/
theorem sendMsgWith_resolves (env : Env) (resolve : Attempt → Tsx → Msg → Tsx × Nat) (h : Sound s)
    (m : Msg) (hpt : s.pendingTransport = false) (hp : (env.attempt s.attempts).isPending = false)
    (hrs : s.resolvedServer = false)
    (htakes : ¬ (s.transport.isSome = true ∧ (env.attempt s.attempts).tpSend.takes = true)) :
    ∃ s1, Base s s1 ∧ s1.tpSends = s.tpSends ∧ s1.handed = s.handed ∧
      sendMsgWith env resolve s (some m) = resolve (env.attempt s.attempts) s1 m := by
  have helsewhere : ∀ (s1 : Tsx) (status : Nat), s1.resolvedServer = s.resolvedServer →
      sendElsewhere env (resolve (env.attempt s.attempts)) s1 m status =
        resolve (env.attempt s.attempts) s1 m := by
    intro s1 status h1
    unfold sendElsewhere
    rw [if_neg (by rw [h1, hrs]; exact Bool.false_ne_true)]
  unfold sendMsgWith
  dsimp only
  rw [if_neg (by rw [hpt]; exact Bool.false_ne_true), if_neg (by rw [hp]; exact Bool.false_ne_true)]
  split
  · exact ⟨_, h.attempt.base, rfl, rfl, helsewhere _ 0 rfl⟩
  · rename_i tp ht
    split
    · rename_i hs
      exact absurd ⟨by rw [ht]; rfl, by rw [hs]; rfl⟩ htakes
    · rename_i hs
      exact absurd ⟨by rw [ht]; rfl, by rw [hs]; rfl⟩ htakes
    · rename_i e hs
      exact ⟨_, h.releaseTransport.base, rfl, rfl, helsewhere _ (e + 1) rfl⟩

/-- `tsx_send_msg` gives the last message to a transport. -/
theorem tsxSendMsg_given (env : Env) (h : Sound s) (hlt : s.state.rank < State.terminated.rank)
    {m : Msg} (hl : s.lastTx = some m) (hc : s.canResend env = true) :
    Given env s (tsxSendMsg env s (some m)).1 m := by
  unfold Tsx.canResend at hc
  dsimp only at hc
  have hc := Bool.and_eq_true_iff.mp hc
  have hp : (env.attempt s.attempts).isPending = false := (Bool.not_eq_true' _).mp hc.1
  cases hpt : s.pendingTransport with
  | true =>
      rw [hpt, if_pos rfl] at hc
      have hwait := Bool.and_eq_true_iff.mp hc.2
      rcases Option.isSome_iff_exists.mp hwait.1 with ⟨x, hx⟩
      have heq : (tsxSendMsg env s (some m)).1 = { s with pendingSend := true } := by
        unfold tsxSendMsg sendMsgWith
        dsimp only
        rw [if_pos hpt]
      have hs1 : Sound { s with pendingSend := true } :=
        ⟨h.path, h.states, h.pendingTx, h.tpSends, h.ended, h.pendingDestroy, h.clientTransport,
          fun _ _ _ => Or.inr hpt⟩
      refine Or.inr fun tp => ?_
      rcases waiting_handed env hs1 hx hl rfl hp hwait.2 tp with ⟨new, hnew, hmem⟩
      refine ⟨new, ?_, hmem⟩
      rw [heq, hnew, hx]
      rfl
  | false =>
      rw [hpt, if_neg Bool.false_ne_true] at hc
      have hnone := h.pendingTx_none hpt
      by_cases htakes : s.transport.isSome = true ∧ (env.attempt s.attempts).tpSend.takes = true
      · refine Or.inl ⟨[m], ?_, List.mem_cons_self⟩
        exact sendMsgWith_takes env _ hpt hp htakes.1 htakes.2
      · -- The server is resolved.
        have hfind : s.resolvedServer = false ∧ (env.attempt s.attempts).resolution.finds = true := by
          rcases Bool.or_eq_true_iff.mp hc.2 with h1 | h1
          · exact absurd (Bool.and_eq_true_iff.mp h1) htakes
          · have h1 := Bool.and_eq_true_iff.mp h1
            exact ⟨(Bool.not_eq_true' _).mp h1.1, h1.2⟩
        have hgoes : ∀ s1 : Tsx, Sound s1 → s1.state = s.state → s1.tpSends = s.tpSends →
            s1.handed = s.handed →
            Given env s (resolveServer env (env.attempt s.attempts) s1 m).1 m := by
          intro s1 hs1 hst hn hh
          have hlt1 : s1.state.rank < State.terminated.rank := by
            rw [hst]
            exact hlt
          have htps : s1.tpSends = 0 := by
            rw [hn]
            rcases h.tpSends hlt with h1 | h1 | h1
            · exact h1
            · rw [hfind.1] at h1
              cases h1.1
            · rw [hpt] at h1
              cases h1.2.1
          rcases resolveServer_given env hs1 hlt1 htps hfind.2 m with ⟨new, hnew⟩ | hsent
          · refine Or.inl ⟨new ++ [m], ?_, List.mem_append_right new List.mem_cons_self⟩
            rw [hnew, hh]
            simp
          · refine Or.inr fun tp => ?_
            rcases hsent tp with ⟨new, hnew⟩
            refine ⟨new ++ [m], ?_, List.mem_append_right new List.mem_cons_self⟩
            rw [hnew, hh, hnone]
            simp
        rcases sendMsgWith_resolves env (resolveServer env) h m hpt hp hfind.1 htakes with
          ⟨s1, hb, hn, hh, heq⟩
        unfold tsxSendMsg
        rw [heq]
        exact hgoes s1 hb.sound hb.state hn hh

theorem Same.canResend {s1 : Tsx} (h : Same s s1) (env : Env) : s1.canResend env = s.canResend env := by
  unfold Tsx.canResend
  rw [h.untouched.attempts, h.pendingTransport, h.pendingTx, h.untouched.transport,
    h.untouched.resolvedServer]

theorem SendsOnly.of_send {env : Env} {op : Op} {m : Msg} {s1 : Tsx} (h : Sound s)
    (hlt : s.state.rank < State.terminated.rank) (hl : s.lastTx = some m) (hsame : Same s s1)
    (hs : step env s op = .ok (tsxSendMsg env s1 (some m)).1) : SendsOnly env s op m := by
  refine ⟨⟨s1, hsame, hs⟩, fun s' hs' => ?_⟩
  rw [hs] at hs'
  cases hs'
  have hlt1 : s1.state.rank < State.terminated.rank := by
    rw [hsame.state]
    exact hlt
  rcases (send_spec env (hsame.sound h) hlt1 m).only.handed with ⟨new, hnew, hx⟩
  refine ⟨new, by rw [hnew, hsame.untouched.handed], fun x hmem => ?_⟩
  rcases hx x hmem with heq | heq
  · exact heq
  · rw [hsame.untouched.lastTx, hl] at heq
    exact (Option.some.inj heq).symm

/-- What the handler of the state does is a retransmission. -/
theorem SendsOnly.of_retransmit {env : Env} {op : Op} {m : Msg} {s1 : Tsx} (resched : Bool)
    (h : Sound s) (hlt : s.state.rank < State.terminated.rank) (hl : s.lastTx = some m)
    (hsame : Same s s1) (hr : (resched && s1.retransmitTimer.running) = false)
    (hs : step env s op = .ok (tsxRetransmit env s1 resched).1) : SendsOnly env s op m := by
  rw [tsxRetransmit_eq env (hsame.untouched.lastTx.trans hl) hr] at hs
  exact SendsOnly.of_send h hlt hl (hsame.trans (same_retransmits env s1 resched)) hs

/-- A step that sends the last message alone gives it to a transport, where one takes it. -/
theorem SendsOnly.resends {env : Env} {op : Op} {m : Msg} (hso : SendsOnly env s op m) (h : Sound s)
    (hlt : s.state.rank < State.terminated.rank) (hl : s.lastTx = some m)
    (hc : s.canResend env = true) : Resends env s op m := by
  rcases hso.sends with ⟨s1, hsame, hs⟩
  refine ⟨?_, fun s' hs' => ?_⟩
  · unfold Tsx.canResend at hc
    exact (Bool.not_eq_true' _).mp (Bool.and_eq_true_iff.mp hc).1
  · rw [hs] at hs'
    cases hs'
    have hlt1 : s1.state.rank < State.terminated.rank := by
      rw [hsame.state]
      exact hlt
    have hgiven := tsxSendMsg_given env (hsame.sound h) hlt1 (hsame.untouched.lastTx.trans hl)
      ((hsame.canResend env).trans hc)
    unfold Given at hgiven
    rw [hsame.untouched.handed, hsame.pendingTx] at hgiven
    exact hgiven

/-- A server transaction in PROCEEDING or COMPLETED sends the last response again. -/
theorem sendsOnly_uas (env : Env) (h : Sound s) (hr : s.role = .uas)
    (hst : s.state = .proceeding ∨ s.state = .completed) {m : Msg} (hl : s.lastTx = some m) {op : Op}
    (hop : Repeats s op) : SendsOnly env s op m := by
  have hlt : s.state.rank < State.terminated.rank := by
    rcases hst with hst | hst
    · rw [hst]
      decide
    · rw [hst]
      decide
  cases op with
  | recvRequest ack =>
      have hs : step env s (.recvRequest ack) = dispatch env s (.rxRequest ack) := rfl
      rcases hst with hst | hst
      · refine SendsOnly.of_send h hlt hl (Same.refl s) ?_
        rw [hs, dispatch_of_handler (f := tsxOnStateProceedingUas env) (by rw [hr, hst]; rfl)]
        show Except.ok (if s.lastTx = none then (s, 1) else if s.pendingTransport then
          ({ s with pendingSend := true }, 0) else tsxSendMsg env s s.lastTx).1 = _
        rw [if_neg (by rw [hl]; nofun)]
        split
        · rename_i hpt
          unfold tsxSendMsg sendMsgWith
          dsimp only
          rw [if_pos hpt]
        · rw [hl]
      · have hack : ack = false := by
          rcases hop with hp | hp
          · rw [hst] at hp
            cases hp
          · exact hp
        subst hack
        refine SendsOnly.of_retransmit false h hlt hl (Same.refl s) (Bool.false_and _) ?_
        rw [hs, dispatch_of_handler (f := tsxOnStateCompletedUas env) (by rw [hr, hst]; rfl)]
        rfl
  | retransmitTimer =>
      have hrun : s.retransmitTimer.running = true := hop
      have hs : step env s .retransmitTimer = dispatch env
          { s with retransmitTimer := { s.retransmitTimer.fired with id := timerInactive } }
          .retransmit := by
        unfold step
        dsimp only
        rw [if_pos hrun]
      have hfired : Same s
          { s with retransmitTimer := { s.retransmitTimer.fired with id := timerInactive } } :=
        same_timers s _ _ _ _
      rcases hst with hst | hst
      · refine SendsOnly.of_retransmit true h hlt hl hfired rfl ?_
        rw [hs, dispatch_of_handler (f := tsxOnStateProceedingUas env) (by
          show stateHandler env s.role s.state = _
          rw [hr, hst]
          rfl)]
        rfl
      · refine SendsOnly.of_retransmit true h hlt hl hfired rfl ?_
        rw [hs, dispatch_of_handler (f := tsxOnStateCompletedUas env) (by
          show stateHandler env s.role s.state = _
          rw [hr, hst]
          rfl)]
        rfl
  | _ => exact hop.elim

/-- In COMPLETED an INVITE client transaction answers a final response with the last message. -/
theorem sendsOnly_uac (env : Env) (h : Sound s) (hr : s.role = .uac) (hi : s.invite = true)
    (hst : s.state = .completed) {m : Msg} (hl : s.lastTx = some m) {code : Code}
    (hcode : 200 ≤ code.val) (ack : Option Msg) : SendsOnly env s (.recvResponse code ack) m := by
  have hlt : s.state.rank < State.terminated.rank := by
    rw [hst]
    decide
  refine SendsOnly.of_retransmit false h hlt hl (Same.refl s) (Bool.false_and _) ?_
  have hs : step env s (.recvResponse code ack) = dispatch env s (.rxResponse code ack) := rfl
  rw [hs, dispatch_of_handler (f := tsxOnStateCompletedUac env) (by rw [hr, hst]; rfl)]
  show Except.ok (if s.invite && decide (200 ≤ code.val) then tsxRetransmit env s false else (s, 0)).1 = _
  rw [hi, decide_eq_true hcode]
  rfl

/-! ## The invariant -/

/-- What holds of the last message and of the reports in every state. -/
structure Answers (w : Watch) : Prop where
  server : w.tsx.role = .uas → w.tsx.state = .proceeding ∨ w.tsx.state = .completed →
    w.tsx.lastTx.isSome = true ∧ w.accepted.head? = w.tsx.lastTx
  client : w.tsx.role = .uac → w.tsx.state = .calling ∨ w.tsx.state = .proceeding →
    w.tsx.lastTx.isSome = true
  unreported : w.tsx.role = .uac →
    w.tsx.state = .null ∨ w.tsx.state = .calling ∨ w.tsx.state = .proceeding → w.tsx.finals = []
  reported : w.tsx.role = .uac → w.tsx.finals.length ≤ 1
  acked : w.tsx.role = .uac → w.tsx.invite = true → w.tsx.state = .completed →
    ∃ code ack, w.tsx.finals = [(code, some ack)] ∧ 300 ≤ code.val ∧ w.tsx.lastTx = some ack

theorem Answers.faithful (h : Answers w) (hs : Sound w.tsx) (env : Env) : Faithful env w := by
  refine ⟨fun hr hst => ?_, h.client, h.reported, fun hr hi hst => ?_⟩
  · have hans := h.server hr hst
    have hlt : w.tsx.state.rank < State.terminated.rank := by
      rcases hst with hst | hst
      · rw [hst]
        decide
      · rw [hst]
        decide
    cases hl : w.tsx.lastTx with
    | none =>
        rw [hl] at hans
        cases hans.1
    | some m =>
        rw [hl] at hans
        refine ⟨m, rfl, hans.2, fun op hop => ?_⟩
        have honly := sendsOnly_uas env hs hr hst hl hop
        exact ⟨honly, honly.resends hs hlt hl⟩
  · rcases h.acked hr hi hst with ⟨code, ack, hf, hcode, hl⟩
    have hlt : w.tsx.state.rank < State.terminated.rank := by
      rw [hst]
      decide
    refine ⟨code, ack, hf, hcode, fun code' ack' hc => ?_⟩
    have honly := sendsOnly_uac env hs hr hi hst hl hc ack'
    exact ⟨honly, honly.resends hs hlt hl⟩

/-- A step that leaves the last message and the reports, and enters no state that answers. -/
theorem Answers.quiet (h : Answers w) (hr : s'.role = w.tsx.role) (hq : Quiet w.tsx s') :
    Answers ⟨s', w.accepted⟩ := by
  have hst : ∀ st : State, st.idle = false → s'.state = st → w.tsx.state = st := by
    intro st hst heq
    rcases hq.state with h1 | h1
    · exact h1.symm.trans heq
    · rw [heq, hst] at h1
      cases h1
  have hl : ∀ st : State, st.idle = false → s'.state = st → s'.lastTx = w.tsx.lastTx := by
    intro st hst heq
    refine hq.lastTx fun hd => ?_
    rw [← heq, hd] at hst
    cases hst
  refine ⟨fun hu hn => ?_, fun hu hn => ?_, fun hu hn => ?_, fun hu => ?_, fun hu hi hn => ?_⟩
  · have hu : w.tsx.role = .uas := hr.symm.trans hu
    have hlast : s'.lastTx = w.tsx.lastTx := hn.elim (hl _ rfl) (hl _ rfl)
    show s'.lastTx.isSome = true ∧ w.accepted.head? = s'.lastTx
    rw [hlast]
    exact h.server hu (hn.imp (hst _ rfl) (hst _ rfl))
  · have hlast : s'.lastTx = w.tsx.lastTx := hn.elim (hl _ rfl) (hl _ rfl)
    show s'.lastTx.isSome = true
    rw [hlast]
    exact h.client (hr.symm.trans hu) (hn.imp (hst _ rfl) (hst _ rfl))
  · exact hq.finals.trans (h.unreported (hr.symm.trans hu)
      (hn.imp (hst _ rfl) fun hn => hn.imp (hst _ rfl) (hst _ rfl)))
  · show s'.finals.length ≤ 1
    rw [hq.finals]
    exact h.reported (hr.symm.trans hu)
  · rcases h.acked (hr.symm.trans hu) (hq.invite.symm.trans hi) (hst _ rfl hn) with
      ⟨code, ack, hf, hcode, hlast⟩
    exact ⟨code, ack, hq.finals.trans hf, hcode, (hl _ rfl hn).trans hlast⟩

/-- For a server transaction only PROCEEDING and COMPLETED matter. -/
theorem Answers.of_server {accepted : List Msg} (hr : s'.role = .uas)
    (h : s'.state = .proceeding ∨ s'.state = .completed →
      s'.lastTx.isSome = true ∧ accepted.head? = s'.lastTx) : Answers ⟨s', accepted⟩ := by
  have huac : s'.role ≠ .uac := by
    rw [hr]
    nofun
  exact ⟨fun _ => h, fun hu => absurd hu huac, fun hu => absurd hu huac, fun hu => absurd hu huac,
    fun hu => absurd hu huac⟩

/-- A response of the transaction user. -/
theorem Answers.taken {env : Env} {op : Op} (h : Answers w) {m : Msg} {r : Tsx × Nat}
    (hr : w.tsx.role = .uas) (ht : Taken w.tsx m r) (heq : r.1 = s')
    (hacc : accepts env w.tsx op = if r.2 = 0 then some m else none) :
    Answers ⟨s', (accepts env w.tsx op).toList ++ w.accepted⟩ := by
  subst heq
  have hr' : r.1.role = .uas := ht.grow.role.trans hr
  by_cases hok : r.2 = 0
  · rw [hacc, if_pos hok]
    refine Answers.of_server hr' fun hst => ?_
    rcases ht.state hok with h1 | ⟨_, hl⟩
    · rw [h1] at hst
      exact hst.elim nofun nofun
    · rw [hl]
      exact ⟨rfl, rfl⟩
  · rw [hacc, if_neg hok]
    rcases ht.refused hok with heq | hterm
    · rw [heq]
      exact h
    · refine Answers.of_server hr' fun hst => ?_
      rw [hterm] at hst
      exact hst.elim nofun nofun

/-- A response that is received. -/
theorem Answers.response {p : Prop} (h : Answers w) (hr : w.tsx.role = .uac)
    (hst : w.tsx.state = .calling ∨ w.tsx.state = .proceeding) (hresp : Response p w.tsx s') :
    Answers ⟨s', w.accepted⟩ := by
  have hr' : s'.role = .uac := hresp.flow.role.trans hr
  have huas : s'.role ≠ .uas := by
    rw [hr']
    nofun
  have hnone : w.tsx.finals = [] := h.unreported hr (Or.inr hst)
  rcases hresp.cases with hq | ⟨hl, hf, hst'⟩ | ⟨code, ack, hf, hst'⟩
  · exact h.quiet hresp.flow.role hq
  · -- A provisional response.
    have hproc : ∀ st : State, st.idle = false → s'.state = st → st = .proceeding := by
      intro st hidle heq
      rcases hst' with h1 | h1
      · exact heq.symm.trans h1
      · rw [heq, hidle] at h1
        cases h1
    refine ⟨fun hu => absurd hu huas, fun _ _ => ?_, fun _ _ => hf.trans hnone, fun _ => ?_,
      fun _ _ hn => ?_⟩
    · show s'.lastTx.isSome = true
      rw [hl]
      exact h.client hr hst
    · show s'.finals.length ≤ 1
      rw [hf, hnone]
      exact Nat.zero_le 1
    · cases hproc .completed rfl hn
  · -- The final response that is reported.
    have hdone : ∀ st : State, st.idle = false → s'.state = st → st = .completed := by
      intro st hidle heq
      rcases hst' with h1 | ⟨h1, _⟩
      · rw [heq, hidle] at h1
        cases h1
      · exact heq.symm.trans h1
    refine ⟨fun hu => absurd hu huas, fun _ hn => ?_, fun _ hn => ?_, fun _ => ?_,
      fun _ hi hn => ?_⟩
    · rcases hn with hn | hn
      · cases hdone .calling rfl hn
      · cases hdone .proceeding rfl hn
    · rcases hn with hn | hn | hn
      · cases hdone .null rfl hn
      · cases hdone .calling rfl hn
      · cases hdone .proceeding rfl hn
    · show s'.finals.length ≤ 1
      rw [hf, hnone]
      exact Nat.le_refl 1
    · have hn : s'.state = .completed := hn
      rcases hst' with h1 | ⟨_, h1⟩
      · rw [hn] at h1
        cases h1
      · rcases h1 (hresp.invite.symm.trans hi) with ⟨hcode, hack, hl⟩
        cases ack with
        | none => cases hack
        | some a => exact ⟨code, a, by rw [← hnone]; exact hf, hcode, hl⟩

/-- The request of a client transaction. -/
theorem Answers.request {accepted : List Msg} (h : Answers w) (hr : w.tsx.role = .uac)
    (hst : w.tsx.state = .null) {m : Msg} (hr' : s'.role = w.tsx.role) (hl : s'.lastTx = some m)
    (hf : s'.finals = w.tsx.finals)
    (hnext : s'.state = .null ∨ s'.state = .calling ∨ s'.state.idle = true) :
    Answers ⟨s', accepted⟩ := by
  have huas : s'.role ≠ .uas := by
    rw [hr', hr]
    nofun
  have hnone : s'.finals = [] := hf.trans (h.unreported hr (Or.inl hst))
  refine ⟨fun hu => absurd hu huas, fun _ _ => ?_, fun _ _ => hnone, fun _ => ?_, fun _ _ hn => ?_⟩
  · show s'.lastTx.isSome = true
    rw [hl]
    rfl
  · show s'.finals.length ≤ 1
    rw [hnone]
    exact Nat.zero_le 1
  · have hn : s'.state = .completed := hn
    rw [hn] at hnext
    exact hnext.elim nofun fun h1 => h1.elim nofun nofun

/-- **A step** keeps the last message and the reports. -/
theorem Answers.step {env : Env} {op : Op} {p : Prop} (h : Answers w)
    (hmoves : Moves env p w.tsx op s') :
    Answers ⟨s', (accepts env w.tsx op).toList ++ w.accepted⟩ := by
  cases hmoves with
  | keeps hk hacc =>
      have hquiet : Answers ⟨s', w.accepted⟩ := h.quiet hk.1.role hk.2
      rcases hacc with hacc | ⟨hr, hst | ⟨hst, heq, hacc⟩⟩
      · rw [hacc]
        exact hquiet
      · -- From NULL a server transaction does not come to a state in which it answers.
        refine Answers.of_server (hk.1.role.trans hr) fun hst' => ?_
        rcases hk.2.state with h1 | h1
        · rw [h1, hst] at hst'
          exact hst'.elim nofun nofun
        · rcases hst' with hst' | hst'
          · rw [hst'] at h1
            cases h1
          · rw [hst'] at h1
            cases h1
      · -- In COMPLETED only the last response is accepted again.
        refine Answers.of_server (hk.1.role.trans hr) fun _ => ?_
        have hans := h.server hr (Or.inr hst)
        rw [heq, hacc]
        cases hl : w.tsx.lastTx with
        | none =>
            rw [hl] at hans
            cases hans.1
        | some m => exact ⟨rfl, rfl⟩
  | taken m r hr ht heq hacc => exact h.taken hr ht heq hacc
  | request m hr hst hflow _ hl hf hnext _ _ => exact h.request hr hst hflow.role hl hf hnext
  | response hr hst hresp hacc =>
      rw [hacc]
      exact h.response hr hst hresp
  | called m hm hc hq hacc =>
      rw [hacc]
      exact h.quiet hc.grow.role hq
  | transport hn htx err hop hsame hacc =>
      rw [hacc]
      exact h.quiet hsame.untouched.role
        ⟨hsame.untouched.invite, Or.inl hsame.untouched.lastTx, hsame.untouched.finals,
          Or.inl hsame.state⟩

theorem Created.answers (h : Created s) : Answers (.start s) := by
  have hnull : s.state = .null ∧ s.finals = [] := by
    cases h with
    | uac => exact ⟨rfl, rfl⟩
    | uas => exact ⟨rfl, rfl⟩
  refine ⟨fun _ hst => ?_, fun _ hst => ?_, fun _ _ => hnull.2, fun _ => ?_, fun _ _ hst => ?_⟩
  · have hst : s.state = .proceeding ∨ s.state = .completed := hst
    rw [hnull.1] at hst
    exact hst.elim nofun nofun
  · have hst : s.state = .calling ∨ s.state = .proceeding := hst
    rw [hnull.1] at hst
    exact hst.elim nofun nofun
  · show s.finals.length ≤ 1
    rw [hnull.2]
    exact Nat.zero_le 1
  · have hst : s.state = .completed := hst
    rw [hnull.1] at hst
    cases hst

/-- **Retransmissions are faithful.** After every run, a server transaction in PROCEEDING or COMPLETED
has a last message, the response that it accepted last, and the next retransmission sends nothing else; a
client transaction has reported one final response at most, and in COMPLETED an INVITE one has the ACK of
it for every further final response. Where the next send meets a transport, or a server that can be
resolved, that message is sent. -/
theorem tsx_faithful (env : Env) {s0 : Tsx} (h0 : Created s0) (ops : List Op) :
    ∃ w, run (watchStep env) (.start s0) ops = .ok w ∧ Faithful env w := by
  have hstep : ∀ w op, (Sound w.tsx ∧ AddrOk w.tsx ∧ LastResponse w.tsx ∧ Answers w) →
      ∃ w', watchStep env w op = .ok w' ∧
        (Sound w'.tsx ∧ AddrOk w'.tsx ∧ LastResponse w'.tsx ∧ Answers w') := by
    intro w op ⟨hs, ha, hl, hans⟩
    rcases after_step env hs op with ⟨s', hs', hafter⟩
    have hmoves := moves_step (p := False) env hs ha hl op nofun hs'
    exact ⟨_, watchStep_ok hs', hafter.sound, hmoves.grow.addr ha, hmoves.lastResponse hl,
      hans.step hmoves⟩
  rcases run_invariant_all hstep ops (Watch.start s0)
    ⟨h0.sound, h0.addrOk, h0.lastResponse, h0.answers⟩ with ⟨w, hw, hs, _, _, hans⟩
  exact ⟨w, hw, hans.faithful hs env⟩

/-- The request of an INVITE comes again after the 180; then the 486 is sent. -/
def repeatedRun : List Op :=
  [.recvRequest false, .send (some (inviteResponse 0 ringing)), .recvRequest false,
   .transportCallback none, .send (some (inviteResponse 1 busyHere))]

theorem tsx_faithful_repeated :
    ∃ w, run (watchStep plainEnv) (.start (createUas true false (some 0))) repeatedRun = .ok w ∧
      w.tsx.state = .completed ∧ w.tsx.lastTx = some (inviteResponse 1 ⟨486, by decide⟩) ∧
      w.tsx.canResend plainEnv = true ∧ Faithful plainEnv w := by
  have h : checkRun (watchStep plainEnv) (fun _ _ => true) (fun w => decide
      (w.tsx.state = .completed ∧ w.tsx.lastTx = some (inviteResponse 1 ⟨486, by decide⟩) ∧
        w.tsx.canResend plainEnv = true))
      (.start (createUas true false (some 0))) repeatedRun = true := by
    decide +kernel
  rcases checkRun_sound _ _ _ _ _ h with ⟨-, w, hw, hp⟩
  rcases tsx_faithful plainEnv (Created.uas true false (some 0)) repeatedRun with ⟨w', hw', hf⟩
  rw [hw] at hw'
  cases hw'
  have hp := decide_eq_true_iff.mp hp
  exact ⟨w, hw, hp.1, hp.2.1, hp.2.2, hf⟩

/-! ## While a response is being sent -/

/-- The first response is given to the transport, which reports later. -/
def stalledRun : List Op := [.recvRequest false, .send (some (inviteResponse 0 ringing))]

/-- The request comes again before the transport reports success: the 180 is never sent again. -/
theorem stalled_lost :
    ∃ w w', run (watchStep failingEnv) (.start (createUas true false (some 0))) stalledRun = .ok w ∧
      w.tsx.state = .proceeding ∧ w.tsx.lastTx = some (inviteResponse 0 ⟨180, by decide⟩) ∧
      Repeats w.tsx (.recvRequest false) ∧
      ¬ Resends failingEnv w.tsx (.recvRequest false) (inviteResponse 0 ⟨180, by decide⟩) ∧
      run (watchStep failingEnv) w [.recvRequest false, .transportCallback none] = .ok w' ∧
      w'.tsx.state = .proceeding ∧ w'.tsx.pendingTransport = false ∧ w'.tsx.pendingTx = none ∧
      w'.tsx.handed = [inviteResponse 0 ⟨180, by decide⟩] := by
  have h : checkRun (watchStep failingEnv) (fun _ _ => true) (fun w => decide
      (w.tsx.state = .proceeding ∧ w.tsx.lastTx = some (inviteResponse 0 ⟨180, by decide⟩) ∧
        w.tsx.role = .uas ∧ w.tsx.pendingTransport = true ∧ w.tsx.pendingTx = none) &&
      checkRun (watchStep failingEnv) (fun _ _ => true) (fun w' => decide
        (w'.tsx.state = .proceeding ∧ w'.tsx.pendingTransport = false ∧ w'.tsx.pendingTx = none ∧
          w'.tsx.handed = [inviteResponse 0 ⟨180, by decide⟩])) w
        [.recvRequest false, .transportCallback none])
      (.start (createUas true false (some 0))) stalledRun = true := by
    decide +kernel
  rcases checkRun_sound _ _ _ _ _ h with ⟨-, w, hw, hp⟩
  have hp := Bool.and_eq_true_iff.mp hp
  rcases checkRun_sound _ _ _ _ _ hp.2 with ⟨-, w', hw', hp'⟩
  rcases decide_eq_true_iff.mp hp.1 with ⟨hst, hl, hr, hpt, htx⟩
  refine ⟨w, w', hw, hst, hl, Or.inl hst, fun hres => ?_, hw', decide_eq_true_iff.mp hp'⟩
  -- The step only notes that there is something to send.
  have hs : step failingEnv w.tsx (.recvRequest false) = .ok { w.tsx with pendingSend := true } := by
    show dispatch failingEnv w.tsx (.rxRequest false) = _
    rw [dispatch_of_handler (f := tsxOnStateProceedingUas failingEnv) (by rw [hr, hst]; rfl)]
    show Except.ok (if w.tsx.lastTx = none then (w.tsx, 1) else if w.tsx.pendingTransport then
      ({ w.tsx with pendingSend := true }, 0) else tsxSendMsg failingEnv w.tsx w.tsx.lastTx).1 = _
    rw [if_neg (by rw [hl]; nofun), if_pos hpt]
  have hcall : ∀ cb, sendMsgCallback failingEnv { w.tsx with pendingSend := true } cb =
      { w.tsx with pendingSend := true } := by
    intro cb
    unfold sendMsgCallback
    dsimp only
    rw [htx]
  rcases hres.given _ hs with ⟨new, hnew, hmem⟩ | hgiven
  · rw [List.self_eq_append_left.mp hnew] at hmem
    cases hmem
  · rcases hgiven ⟨0, false, false⟩ with ⟨new, hnew, hmem⟩
    rw [hcall, htx] at hnew
    rw [List.self_eq_append_left.mp hnew] at hmem
    cases hmem

end Sip
