import PjProject.Library.Run
import PjProject.Timer.Calls

set_option autoImplicit false

/-! # The SIP transaction

`pjsip_transaction` of `pjsip/src/pjsip/sip_transaction.c`: a client or a server transaction, for an
INVITE or another method, over a reliable or an unreliable transport. Its state is changed by
`tsx_set_state` only, which also picks the handler of the next event. A transaction without a
handler is a `Fault`. As in a build without assertions the code goes on where a `pj_assert` is
false; `PJ_ASSERT_RETURN` returns.

A status is a number, `0` being `PJ_SUCCESS`; the error `e` of the surroundings is the status
`e + 1`. What becomes of a message is up to the `Env`: `pjsip_transport_send` may send it, fail, or
report later to `transport_callback`; the resolution of a server reports to `send_msg_callback`, any
number of times before it returns and later (`Op.sendCallback`). The transaction user may terminate
the transaction whenever it is told of a new state.

`path`, `handed` and `finals` are records for the proofs, the last entry first: the states since the
transaction was created, the messages that were given to a transport, and the final responses that the
transaction user was told of, each with the ACK that was made for it.
Reference counters, the transport selector, the hash table and the delays of timers are left out.
-/

namespace Sip

open Timer

/-! ## The data model -/

/-- `pjsip_role_e`. -/
inductive Role where
  | uac
  | uas
  deriving DecidableEq

/-- `pjsip_tsx_state_e`. -/
inductive State where
  | null
  | calling
  | trying
  | proceeding
  | completed
  | confirmed
  | terminated
  | destroyed
  deriving DecidableEq

/-- The place of a state in the enumeration. -/
def State.rank : State → Nat
  | .null => 0
  | .calling => 1
  | .trying => 2
  | .proceeding => 3
  | .completed => 4
  | .confirmed => 5
  | .terminated => 6
  | .destroyed => 7

/-- The code of a response. -/
abbrev Code := { n : Nat // 100 ≤ n ∧ n ≤ 699 }

/-- A `pjsip_tx_data`: a request, or a response with its code. `cseqInvite` says whether the method
of its CSeq header is INVITE. -/
structure Msg where
  id : Nat
  code : Option Code
  cseqInvite : Bool
  deriving DecidableEq

/-- A transport. -/
structure Tp where
  id : Nat
  reliable : Bool
  isShutdown : Bool
  deriving DecidableEq

/-- `pjsip_transaction`. `invite` says whether its method is INVITE; the five fields from
`pendingTransport` on are `transport_flag`, and `resAddr` says whether `res_addr` has a transport.
`tpSends` is the number of sends that `transport_callback` has not been called for, `attempts` and
`notified` count the messages sent and the calls of the transaction user. -/
structure Tsx where
  role : Role
  invite : Bool
  handle200resp : Bool
  isReliable : Bool
  state : State
  statusCode : Nat
  pendingTransport : Bool
  pendingResched : Bool
  pendingSend : Bool
  pendingDestroy : Bool
  resolvedServer : Bool
  transport : Option Nat
  resAddr : Bool
  transportErr : Nat
  lastTx : Option Msg
  pendingTx : Option Msg
  retransmitCount : Nat
  retransmitTimer : Entry
  timeoutTimer : Entry
  tpSends : Nat
  attempts : Nat
  notified : Nat
  path : List State
  handed : List Msg
  finals : List (Code × Option Msg)
  deriving DecidableEq

/-- What `pjsip_transport_send` returns. -/
inductive TpSend where
  | ok
  | pending
  | error (e : Nat)
  deriving DecidableEq

/-- A call of `send_msg_callback`: the message has been sent with a transport, or not; then `cont`
says whether there is another address, `noServer` whether the name was not resolved, and `tp` is the
transport, if there is one. -/
inductive SendCb where
  | sent (tp : Tp)
  | failed (e : Nat) (noServer : Bool) (tp : Option Nat) (cont : Bool)
  deriving DecidableEq

/-- What `pjsip_endpt_send_request_stateless` and `pjsip_endpt_send_response` meet: an error, or calls
of the callback before they return. -/
inductive Resolution where
  | error (e : Nat)
  | calls (l : List SendCb)
  deriving DecidableEq

/-- What a call of `tsx_send_msg` meets: whether the message is still being sent, and what the
functions it calls do. -/
structure Attempt where
  isPending : Bool
  tpSend : TpSend
  resolution : Resolution
  deriving DecidableEq

/-- The surroundings: what the attempt number `n` meets, the code with which the transaction user
terminates the transaction when it is called for the `n`-th time, and the timer values. -/
structure Env where
  attempt : Nat → Attempt
  terminates : Nat → Option Nat
  t1 : Nat
  t2 : Nat

/-- `tsx->state_handler` is NULL. -/
inductive Fault where
  | noHandler
  deriving DecidableEq

/-! ## Timers -/

def timerInactive : Int := 0
def retransmitTimerId : Int := 1
def timeoutTimerId : Int := 2
def transportErrTimerId : Int := 3

/-- `tsx_cancel_timer` of the timeout timer. -/
def Tsx.cancelTimeout (s : Tsx) : Tsx :=
  { s with timeoutTimer := s.timeoutTimer.cancelIfActive timerInactive }

/-- `tsx_schedule_timer` of the timeout timer; the status is ignored. -/
def Tsx.scheduleTimeout (s : Tsx) (id : Int) : Tsx :=
  { s with timeoutTimer := (s.timeoutTimer.schedule id).1 }

/-- The timeout timer is set anew. -/
def Tsx.resetTimeout (s : Tsx) (id : Int) : Tsx := s.cancelTimeout.scheduleTimeout id

/-- `tsx_cancel_timer` of the retransmit timer. -/
def Tsx.cancelRetransmit (s : Tsx) : Tsx :=
  { s with retransmitTimer := s.retransmitTimer.cancelIfActive timerInactive }

/-- `tsx_schedule_timer` of the retransmit timer; the status is ignored. -/
def Tsx.scheduleRetransmit (s : Tsx) : Tsx :=
  { s with retransmitTimer := (s.retransmitTimer.schedule retransmitTimerId).1 }

/-- Retransmission is to start: now, or when the transport is known. -/
def Tsx.startRetransmit (s : Tsx) : Tsx :=
  if s.pendingTransport then { s with pendingResched := true } else s.scheduleRetransmit

/-! ## `tsx_set_state` -/

/-- The state changes. -/
def Tsx.enter (s : Tsx) (st : State) : Tsx := { s with state := st, path := st :: s.path }

/-- The end of `tsx_set_state` for TERMINATED. -/
def Tsx.onTerminated (s : Tsx) : Tsx :=
  Tsx.resetTimeout
    (if s.pendingTransport then { s with pendingTx := none, pendingTransport := false } else s)
    timeoutTimerId

/-- `pjsip_tsx_terminate`. The transaction user that it tells of the state cannot terminate the
transaction again. -/
def Tsx.terminate (s : Tsx) (code : Nat) : Tsx :=
  if 200 ≤ code ∧ s.state.rank < State.terminated.rank then
    (Tsx.enter { s with statusCode := code } .terminated).onTerminated
  else s

/-- The transaction user is told of the state. -/
def Tsx.informTu (env : Env) (s : Tsx) : Tsx :=
  match env.terminates s.notified with
  | none => { s with notified := s.notified + 1 }
  | some code => Tsx.terminate { s with notified := s.notified + 1 } code

/-- `tsx_shutdown`. -/
def Tsx.shutdown (s : Tsx) : Tsx :=
  { s.cancelTimeout.cancelRetransmit with
    transport := none
    lastTx := none
    pendingResched := false
    pendingSend := false
    pendingDestroy := s.pendingDestroy || s.pendingTransport }

/-- `tsx_set_state`, and `tsx_set_state_no_notify` without `notify`. -/
def tsxSetState (env : Env) (s : Tsx) (st : State) (notify : Bool) : Tsx :=
  let s := s.enter st
  let s := if notify then s.informTu env else s
  match st with
  | .terminated => s.onTerminated
  | .destroyed => s.shutdown
  | _ => s

/-! ## Sending -/

/-- `PJSIP_SC_TSX_TIMEOUT`. -/
def scTimeout : Nat := 408

/-- `PJSIP_SC_TSX_TRANSPORT_ERROR`. -/
def scTransportError : Nat := 503

/-- `PJSIP_SC_BAD_GATEWAY`. -/
def scBadGateway : Nat := 502

/-- A transport error is posted to the timeout timer. -/
def Tsx.postTransportErr (s : Tsx) (err : Nat) : Tsx :=
  Tsx.resetTimeout { s with transportErr := err } transportErrTimerId

/-- `tsx_update_transport` to a transport, and the reliability of it. -/
def Tsx.updateTransport (s : Tsx) (tp : Tp) : Tsx :=
  let s := { s with transport := some tp.id }
  let s := if tp.isShutdown then s.postTransportErr scTransportError else s
  { s with isReliable := tp.reliable }

/-- `tsx_resched_retransmission`. -/
def Tsx.reschedRetransmission (env : Env) (s : Tsx) : Tsx :=
  let msec :=
    if s.role = .uac ∧ 100 ≤ s.statusCode then env.t2
    else 2 ^ s.retransmitCount * env.t1 % 2 ^ 32
  let msec :=
    if s.role = .uac then if env.t2 < msec ∧ s.invite = false then env.t2 else msec
    else if s.statusCode < 200 then 60000
    else if env.t2 < msec then env.t2 else msec
  if msec = 0 then s else s.scheduleRetransmit

/-- A transport is given a message. -/
def Tsx.hand (s : Tsx) (m : Msg) : Tsx := { s with handed := m :: s.handed }

/-- The part of `tsx_send_msg` for a message that is not sent with the transport of the
transaction, for the status of the attempt to do so. -/
def sendElsewhere (env : Env) (resolve : Tsx → Msg → Tsx × Nat) (s : Tsx) (m : Msg) (status : Nat) :
    Tsx × Nat :=
  if s.resolvedServer then
    (tsxSetState env { s with statusCode := scTransportError } .terminated true,
      if status = 0 then 1 else status)
  else resolve s m

/-- `tsx_send_msg`, for a resolution of the server. -/
def sendMsgWith (env : Env) (resolve : Attempt → Tsx → Msg → Tsx × Nat) (s : Tsx)
    (tdata : Option Msg) : Tsx × Nat :=
  match tdata with
  | none => (s, 1)
  | some m =>
      if s.pendingTransport then ({ s with pendingSend := true }, 0)
      else
        let a := env.attempt s.attempts
        let s := { s with attempts := s.attempts + 1 }
        -- A transport still has the message.
        if a.isPending then (s.hand m, 0)
        else
          match s.transport with
          | none => sendElsewhere env (resolve a) s m 0
          | some _ =>
              match a.tpSend with
              | .ok => (s.hand m, 0)
              | .pending =>
                  ({ s.hand m with pendingTransport := true, tpSends := s.tpSends + 1 }, 0)
              | .error e =>
                  sendElsewhere env (resolve a) { s with transport := none, resAddr := false } m
                    (e + 1)

/-- `tsx_send_msg` in a state where the server has been resolved. -/
def sendMsgResolved (env : Env) (s : Tsx) (tdata : Option Msg) : Tsx × Nat :=
  sendMsgWith env (fun _ s _ => (s, 0)) s tdata

/-- What `send_msg_callback` does when the message has been sent and the transaction goes on. -/
def afterSent (env : Env) (s : Tsx) : Tsx :=
  let s :=
    if s.pendingSend then (sendMsgResolved env { s with pendingSend := false } s.lastTx).1 else s
  if s.pendingResched then
    let s := { s with pendingResched := false }
    if s.isReliable then s else s.reschedRetransmission env
  else s

/-- What `send_msg_callback` does when the message cannot be sent. -/
def sendFailed (env : Env) (s : Tsx) (e : Nat) (noServer : Bool) : Tsx :=
  let s := { s with
    transportErr := e + 1
    pendingTransport := false
    resolvedServer := true
    statusCode := if noServer then scBadGateway else scTransportError }
  if s.state ≠ .terminated ∧ s.state ≠ .destroyed then tsxSetState env s .terminated true
  else if s.pendingDestroy then tsxSetState env s .destroyed true
  else s

/-- `send_msg_callback` for the message that is being sent; there is none when the transaction does
not want to know any more. -/
def sendMsgCallback (env : Env) (s : Tsx) (cb : SendCb) : Tsx :=
  match s.pendingTx with
  | none => s
  | some m =>
      let s := { s with pendingTx := none }
      match cb with
      | .sent tp =>
          let s := s.hand m
          let s := if s.transport = some tp.id then s else s.updateTransport tp
          let s := { s with pendingTransport := false, resolvedServer := true }
          if s.pendingDestroy then tsxSetState env s .destroyed true else afterSent env s
      | .failed e noServer tp cont =>
          let s := if s.transport = tp then { s with transport := none } else s
          if !cont || s.pendingDestroy then sendFailed env s e noServer
          else
            let s := { s with retransmitCount := 0 }
            let s := if s.timeoutTimer.id = timerInactive then s else s.resetTimeout timeoutTimerId
            { s with pendingTx := some m }

/-- What the resolution of the server comes to. `pjsip_endpt_send_response` has no error of its own
when `res_addr` has no transport: the callback is told of it. -/
def Attempt.resolutionFor (a : Attempt) (s : Tsx) (m : Msg) : Resolution :=
  match a.resolution with
  | .error e =>
      if m.code.isSome && !s.resAddr then .calls [.failed e false none false] else .error e
  | .calls l => .calls l

/-- The resolution of the server in `tsx_send_msg`. -/
def resolveServer (env : Env) (a : Attempt) (s : Tsx) (m : Msg) : Tsx × Nat :=
  let s := { s with pendingTx := some m, pendingTransport := true }
  match a.resolutionFor s m with
  -- The flag for the transport stays.
  | .error e => ({ s with pendingTx := none }, e + 1)
  | .calls l =>
      let s := l.foldl (sendMsgCallback env) s
      (s, if s.state = .terminated then s.transportErr else 0)

/-- `tsx_send_msg`. -/
def tsxSendMsg (env : Env) (s : Tsx) (tdata : Option Msg) : Tsx × Nat :=
  sendMsgWith env (resolveServer env) s tdata

/-- `sendMsgResolved` is `tsx_send_msg` where it is used. -/
theorem sendMsgResolved_eq (env : Env) (s : Tsx) (tdata : Option Msg)
    (h : s.resolvedServer = true) : sendMsgResolved env s tdata = tsxSendMsg env s tdata := by
  unfold sendMsgResolved tsxSendMsg sendMsgWith sendElsewhere
  simp only [h, if_true]

/-- `tsx_retransmit`. -/
def tsxRetransmit (env : Env) (s : Tsx) (resched : Bool) : Tsx × Nat :=
  if resched && s.retransmitTimer.running then (s, 0)
  else if s.lastTx = none then (s, 1)
  else
    let s := { s with retransmitCount := s.retransmitCount + 1 }
    let s :=
      if resched then
        if s.pendingTransport then { s with pendingResched := true } else s.reschedRetransmission env
      else s
    tsxSendMsg env s s.lastTx

/-! ## Events -/

/-- `pjsip_event`. A request is an ACK or not; a response comes with the ACK that
`pjsip_endpt_create_ack` makes for it, if it makes one. -/
inductive Event where
  | rxRequest (ack : Bool)
  | rxResponse (code : Code) (ack : Option Msg)
  | tx (m : Msg)
  | retransmit
  | timeout
  deriving DecidableEq

/-- `tsx_on_state_null`. -/
def tsxOnStateNull (env : Env) (s : Tsx) (event : Event) : Tsx × Nat :=
  match s.role with
  | .uas => (tsxSetState env s .trying true, 0)
  | .uac =>
      match event with
      | .tx m =>
          let r := tsxSendMsg env { s with lastTx := some m } (some m)
          if r.2 ≠ 0 then r
          else
            let s := r.1.resetTimeout timeoutTimerId
            let s := if s.isReliable then s else Tsx.startRetransmit { s with retransmitCount := 0 }
            (tsxSetState env s .calling true, 0)
      | _ => (s, 1)

/-- The transaction user is going to be told of a final response. -/
def Tsx.report (s : Tsx) (code : Code) (ack : Option Msg) : Tsx :=
  { s with finals := (code, ack) :: s.finals }

/-- The end of `tsx_on_state_proceeding_uac` for a final response from 300 on: the ACK has been
sent. -/
def completeUac (env : Env) (s : Tsx) (code : Code) (ack : Option Msg) : Tsx :=
  let s := tsxSetState env (s.report code ack) .completed true
  let s := if s.invite then { s with lastTx := ack } else s
  s.resetTimeout timeoutTimerId

/-- The part of `tsx_on_state_proceeding_uac` for a response. -/
def proceedingUacResponse (env : Env) (s : Tsx) (code : Code) (ack : Option Msg) : Tsx × Nat :=
  let s := { s with statusCode := code.val }
  if code.val / 100 = 1 then (tsxSetState env s .proceeding true, 0)
  else if code.val / 100 = 2 then
    let s := s.cancelTimeout.report code none
    if s.invite then (tsxSetState env s .terminated true, 0)
    else (tsxSetState env (s.scheduleTimeout timeoutTimerId).cancelRetransmit .completed true, 0)
  else
    let s := s.cancelRetransmit.cancelTimeout
    if s.invite then
      match ack with
      | none => (s, 1)
      | some m =>
          let r := tsxSendMsg env s (some m)
          if r.2 ≠ 0 then r else (completeUac env r.1 code ack, 0)
    else (completeUac env s code ack, 0)

/-- `tsx_on_state_proceeding_uac`. -/
def tsxOnStateProceedingUac (env : Env) (s : Tsx) (event : Event) : Tsx × Nat :=
  match event with
  | .rxResponse code ack => proceedingUacResponse env s code ack
  | .retransmit => tsxRetransmit env s true
  | .timeout => (tsxSetState env { s with statusCode := scTimeout } .terminated true, 0)
  | _ => (s, 1)

/-- What `tsx_on_state_calling` does to the timers for a response. -/
def Tsx.stopForResponse (s : Tsx) (code : Code) : Tsx :=
  let s := s.cancelRetransmit
  if 200 ≤ code.val then
    if s.timeoutTimer.id = timerInactive then s else s.cancelTimeout
  else if s.invite then s.cancelTimeout
  else if s.isReliable then s else s.scheduleRetransmit

/-- `tsx_on_state_calling`. -/
def tsxOnStateCalling (env : Env) (s : Tsx) (event : Event) : Tsx × Nat :=
  match event with
  | .retransmit => tsxRetransmit env s true
  | .timeout =>
      let s := { s.cancelRetransmit with pendingResched := false, statusCode := scTimeout }
      (tsxSetState env s .terminated true, 0)
  | .rxResponse code ack =>
      let s := { s.stopForResponse code with pendingResched := false }
      ((proceedingUacResponse env s code ack).1, 0)
  | _ => (s, 1)

/-- The end of `tsx_on_state_proceeding_uas` for a response from 100 to 199. -/
def provisionalSent (env : Env) (s : Tsx) (m : Msg) : Tsx :=
  let s := tsxSetState env { s with lastTx := some m } .proceeding true
  if s.invite && decide (100 < s.statusCode) then
    Tsx.startRetransmit { s.cancelRetransmit with retransmitCount := 0 }
  else s

/-- The end of `tsx_on_state_proceeding_uas` for a response from 200 to 299. -/
def successSent (env : Env) (s : Tsx) (m : Msg) : Tsx :=
  let s := s.cancelRetransmit
  if s.invite && !s.handle200resp then tsxSetState env s .terminated true
  else
    let s := if s.invite then Tsx.startRetransmit { s with retransmitCount := 0 } else s
    let s := { s with lastTx := some m }
    tsxSetState env (s.resetTimeout timeoutTimerId) .completed true

/-- The end of `tsx_on_state_proceeding_uas` for a response from 300 on. -/
def failureSent (env : Env) (s : Tsx) (m : Msg) : Tsx :=
  let s := { s.cancelRetransmit with lastTx := some m }
  let s := s.resetTimeout timeoutTimerId
  let s :=
    if !s.isReliable && m.cseqInvite then Tsx.startRetransmit { s with retransmitCount := 0 } else s
  tsxSetState env s .completed true

/-- The part of `tsx_on_state_proceeding_uas` for a message of the transaction user. -/
def proceedingUasTx (env : Env) (s : Tsx) (m : Msg) : Tsx × Nat :=
  match m.code with
  | none => (s, 1)
  | some code =>
      let s := { s with statusCode := code.val }
      let s := if s.lastTx = some m then s else { s with lastTx := none }
      let r := tsxSendMsg env s (some m)
      if r.2 ≠ 0 then r
      else
        let s := r.1
        if s.statusCode / 100 = 1 then (provisionalSent env s m, 0)
        else if s.statusCode / 100 = 2 then (successSent env s m, 0)
        else if 300 ≤ s.statusCode then (failureSent env s m, 0)
        else (s, 0)

/-- `tsx_on_state_proceeding_uas`. -/
def tsxOnStateProceedingUas (env : Env) (s : Tsx) (event : Event) : Tsx × Nat :=
  match event with
  | .tx m => proceedingUasTx env s m
  | .retransmit => tsxRetransmit env s true
  | .timeout => (tsxSetState env { s with statusCode := scTimeout } .terminated true, 1)
  -- A request or a response that is received.
  | _ =>
      if s.lastTx = none then (s, 1)
      else if s.pendingTransport then ({ s with pendingSend := true }, 0)
      else tsxSendMsg env s s.lastTx

/-- `tsx_on_state_trying`. -/
def tsxOnStateTrying (env : Env) (s : Tsx) (event : Event) : Tsx × Nat :=
  match event with
  | .tx m =>
      let r := tsxOnStateProceedingUas env s (.tx m)
      if r.2 = 0 ∧ r.1.state = .trying then (tsxSetState env r.1 .proceeding true, 0) else r
  | _ => (s, 0)

/-- `tsx_on_state_completed_uas`. -/
def tsxOnStateCompletedUas (env : Env) (s : Tsx) (event : Event) : Tsx × Nat :=
  match event with
  | .rxRequest false => tsxRetransmit env s false
  | .rxRequest true =>
      if s.invite then
        let s := { s.cancelRetransmit with pendingResched := false }
        (tsxSetState env (s.resetTimeout timeoutTimerId) .confirmed true, 0)
      else (s, 1)
  | .rxResponse _ _ => (s, 1)
  | .retransmit => tsxRetransmit env s true
  | .timeout =>
      let s := if s.invite then { s with statusCode := scTimeout } else s
      (tsxSetState env s .terminated true, 0)
  | .tx m => (s, if s.lastTx = some m then 0 else 1)

/-- `tsx_on_state_completed_uac`. -/
def tsxOnStateCompletedUac (env : Env) (s : Tsx) (event : Event) : Tsx × Nat :=
  match event with
  | .timeout => (tsxSetState env s .terminated true, 0)
  | .retransmit => (s, 0)
  | .rxResponse code _ =>
      if s.invite && decide (200 ≤ code.val) then tsxRetransmit env s false else (s, 0)
  | .rxRequest _ => (s, 0)
  | .tx _ => (s, 1)

/-- `tsx_on_state_confirmed`. -/
def tsxOnStateConfirmed (env : Env) (s : Tsx) (event : Event) : Tsx × Nat :=
  match event with
  | .rxRequest _ => (s, 0)
  | .rxResponse _ _ => (s, 1)
  | .retransmit => (s, 0)
  | .timeout => (tsxSetState env s .terminated true, 0)
  | .tx _ => (s, 1)

/-- `tsx_on_state_terminated`. -/
def tsxOnStateTerminated (env : Env) (s : Tsx) (event : Event) : Tsx × Nat :=
  match event with
  | .retransmit => (tsxSetState env s .destroyed true, 0)
  | .timeout => (tsxSetState env s .destroyed true, 0)
  | _ => (s, 1)

/-- `tsx_on_state_destroyed`. -/
def tsxOnStateDestroyed (s : Tsx) : Tsx × Nat := (s, 1)

/-- `tsx->state_handler`, which `tsx_set_state` takes from `tsx_state_handler_uac` and
`tsx_state_handler_uas`. -/
def stateHandler (env : Env) : Role → State → Option (Tsx → Event → Tsx × Nat)
  | _, .null => some (tsxOnStateNull env)
  | .uac, .calling => some (tsxOnStateCalling env)
  | .uas, .calling => none
  | .uac, .trying => none
  | .uas, .trying => some (tsxOnStateTrying env)
  | .uac, .proceeding => some (tsxOnStateProceedingUac env)
  | .uas, .proceeding => some (tsxOnStateProceedingUas env)
  | .uac, .completed => some (tsxOnStateCompletedUac env)
  | .uas, .completed => some (tsxOnStateCompletedUas env)
  | _, .confirmed => some (tsxOnStateConfirmed env)
  | _, .terminated => some (tsxOnStateTerminated env)
  | _, .destroyed => some fun s _ => tsxOnStateDestroyed s

/-- The event is given to the handler. -/
def dispatch (env : Env) (s : Tsx) (event : Event) : Except Fault Tsx :=
  match stateHandler env s.role s.state with
  | none => .error .noHandler
  | some handler => .ok (handler s event).1

/-! ## Runs -/

/-- `pjsip_tsx_create_uac2` and `pjsip_tsx_create_uas2`. -/
def tsxCreate (role : Role) (invite isReliable : Bool) (transport : Option Nat)
    (lastTx : Option Msg) : Tsx where
  role := role
  invite := invite
  handle200resp := true
  isReliable := isReliable
  state := .null
  statusCode := 0
  pendingTransport := false
  pendingResched := false
  pendingSend := false
  pendingDestroy := false
  resolvedServer := false
  transport := transport
  resAddr := transport.isSome
  transportErr := 0
  lastTx := lastTx
  pendingTx := none
  retransmitCount := 0
  retransmitTimer := .idle timerInactive
  timeoutTimer := .idle timerInactive
  tpSends := 0
  attempts := 0
  notified := 0
  path := [.null]
  handed := []
  finals := []

/-- A client transaction has no transport yet. -/
def createUac (invite isReliable : Bool) (tdata : Msg) : Tsx :=
  tsxCreate .uac invite isReliable none (some tdata)

/-- A server transaction may have the transport that its request came with. -/
def createUas (invite isReliable : Bool) (transport : Option Nat) : Tsx :=
  tsxCreate .uas invite isReliable transport none

/-- `tsx_timer_callback` of the timeout timer. -/
def onTimeoutTimer (env : Env) (s : Tsx) : Except Fault Tsx :=
  let id := s.timeoutTimer.id
  let s := { s with timeoutTimer := { s.timeoutTimer.fired with id := timerInactive } }
  if id = transportErrTimerId then
    if s.state.rank < State.terminated.rank then
      let s := { s with
        transport := none
        statusCode := if s.statusCode < 200 then scTransportError else s.statusCode }
      .ok (tsxSetState env s .terminated false)
    else .ok s
  else dispatch env s .timeout

/-- What can happen to a transaction. -/
inductive Op where
  | send (m : Option Msg)
  | recvRequest (ack : Bool)
  | recvResponse (code : Code) (ack : Option Msg)
  | retransmitTimer
  | timeoutTimer
  | transportCallback (err : Option Nat)
  | disconnected (status : Nat)
  | sendCallback (cb : SendCb)
  | terminate (code : Nat)
  | setTimeout
  | stopRetransmit
  | setHandle200resp (handle : Bool)
  deriving DecidableEq

/-- One step. A timer that is not scheduled does not fire, and a transport that the transaction
does not use, or is not sending with, does not call back. -/
def step (env : Env) (s : Tsx) : Op → Except Fault Tsx
  -- `pjsip_tsx_send_msg`, which takes the last message for NULL.
  | .send m =>
      match m.or s.lastTx with
      | none => .ok s
      | some m => dispatch env s (.tx m)
  | .recvRequest ack => dispatch env s (.rxRequest ack)
  | .recvResponse code ack => dispatch env s (.rxResponse code ack)
  | .retransmitTimer =>
      if s.retransmitTimer.running then
        dispatch env { s with retransmitTimer := { s.retransmitTimer.fired with id := timerInactive } }
          .retransmit
      else .ok s
  | .timeoutTimer => if s.timeoutTimer.running then onTimeoutTimer env s else .ok s
  | .transportCallback err =>
      if s.tpSends = 0 then .ok s
      else
        let s := { s with pendingTransport := false, tpSends := s.tpSends - 1 }
        match err with
        | none => .ok s
        | some e => .ok (s.postTransportErr (e + 1))
  -- `tsx_tp_state_callback`.
  | .disconnected status =>
      if s.transport = none then .ok s else .ok (s.postTransportErr status)
  | .sendCallback cb => .ok (sendMsgCallback env s cb)
  | .terminate code => .ok (s.terminate code)
  -- `pjsip_tsx_set_timeout`.
  | .setTimeout =>
      if s.role = .uac ∧ s.invite = true then
        if 200 ≤ s.statusCode ∧ s.timeoutTimer.id ≠ timerInactive then .ok s
        else .ok (s.resetTimeout timeoutTimerId)
      else .ok s
  -- `pjsip_tsx_stop_retransmit`.
  | .stopRetransmit =>
      if s.role = .uac ∧ s.invite = true then .ok s.cancelRetransmit else .ok s
  | .setHandle200resp handle => .ok { s with handle200resp := handle }

end Sip
