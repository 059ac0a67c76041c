import PjProject.Library.Reentry
import PjProject.Library.MachineInt

set_option autoImplicit false

/-! # An event subscription

`pjsip_evsub` of `pjsip-simple/evsub.c`. A subscription is driven by the reports of the transaction
layer (`mod_evsub_on_tsx_state`), by the application and by one timer, and it calls out: to the
application's callbacks, and to the dialog that sends a message for it. What is called there may come
back, with a report or with a call of the application, so the functions are cut at each call out into
pieces (`Task`), and the subscription is a `Reentry.Program`.

A field under "history" of `World` is read by no function.
-/

namespace Evsub

open MachineInt
open Reentry (Frame Conf)

/-! ## Data -/

/-- `pjsip_role_e`. -/
inductive Role where
  | uac
  | uas
  deriving DecidableEq

/-- `pjsip_evsub_state`. -/
inductive State where
  | null
  | sent
  | accepted
  | pending
  | active
  | terminated
  | unknown
  deriving DecidableEq

/-- `enum timer_id`. -/
inductive TimerId where
  | none
  | uacRefresh
  | uasTimeout
  | uacTerminate
  | uacWaitNotify
  deriving DecidableEq

/-- `pjsip_tsx_state_e`, as far as a dialog reports it. -/
inductive TsxState where
  | null
  | calling
  | trying
  | proceeding
  | completed
  | confirmed
  | terminated
  deriving DecidableEq

/-- The number of the state: a new state is not less than the one before. -/
def TsxState.rank : TsxState → Nat
  | .null => 0
  | .calling => 1
  | .trying => 2
  | .proceeding => 3
  | .completed => 4
  | .confirmed => 5
  | .terminated => 6

/-- `pjsip_method`: the two of event subscription, or another one such as REFER. -/
inductive Method where
  | subscribe
  | notify
  | other (name : Nat)
  deriving DecidableEq

/-- The callbacks that the application has given in `pjsip_evsub_user`. -/
structure User where
  onEvsubState : Bool
  onTsxState : Bool
  onRxRefresh : Bool
  onRxNotify : Bool
  onClientRefresh : Bool
  onServerTimeout : Bool
  deriving DecidableEq

/-- `pjsip_evsub`. -/
structure Sub where
  role : Role
  user : User
  callCb : Bool
  /-- `PJSIP_EVSUB_NO_EVENT_ID` is set in `option`. -/
  noEventId : Bool
  /-- `pkg->pkg_expires`. -/
  pkgExpires : Nat
  state : State
  dstState : State
  method : Method
  /-- `expires->ivalue`. -/
  expires : Int
  refreshTime : Int
  /-- `timer.id`. -/
  timerId : TimerId
  pendingTsx : Int
  pendingSub : Option Nat
  deriving DecidableEq

/-- What the subscription reads of a transaction. -/
structure Tsx where
  role : Role
  method : Method
  state : TsxState
  statusCode : Nat
  deriving DecidableEq

/-- The subscription and what is around it. -/
structure World where
  sub : Sub
  /-- `pj_gettimeofday`, in seconds. -/
  now : Int
  /-- When `sub->timer` expires, for each time it is in the timer heap. -/
  heap : List Int
  /-- The transactions of the dialog. -/
  tsx : Nat → Tsx
  /-- The transactions with the subscription in their `mod_data`. -/
  attached : List Nat
  /-- History: how often `evsub_destroy` has run. -/
  destroyed : Nat
  /-- History: the timers that `set_timer` was asked for, with the seconds. -/
  asked : List (TimerId × Int)
  /-- History: the timers that fired, with the state in which they did. -/
  fired : List (TimerId × State)
  /-- History: when the subscription that a server has accepted expires. -/
  granted : Option Int

scoped instance neZeroRand : NeZero 10 := ⟨by decide⟩

/-- A report of the transaction layer, with what the subscription reads of the message. -/
structure Report where
  tsx : Nat
  state : TsxState
  statusCode : Nat
  /-- The message has an Event header that identifies this subscription. -/
  isOurs : Bool
  /-- It identifies another subscription of the dialog. -/
  isOther : Bool
  /-- The request has an Event header under its long name, and its package is known. -/
  hasPackage : Bool
  /-- The Expires header. -/
  expires : Option Int
  /-- The Subscription-State header: the state and the expires parameter. -/
  subState : Option (State × Int)
  /-- `pj_rand() % 10`. -/
  rand : Fin 10
  deriving DecidableEq

/-- What a call out returned: a status, an answer of the application, and whether the message that is
created next can be created. -/
structure Ret where
  ok : Bool
  stCode : Int
  created : Bool
  deriving DecidableEq

/-- What is left to do behind a call out. -/
inductive Task where
  /-- `set_state` behind `on_evsub_state`. -/
  | stateDone (prev state : State)
  /-- `mod_evsub_on_tsx_state` behind `on_tsx_state`. -/
  | handle (r : Report)
  /-- The end of `mod_evsub_on_tsx_state`. -/
  | reportEnd (tsx : Nat)
  /-- `on_tsx_state_uac` behind the request with credentials. -/
  | uacAuthSent
  /-- `on_tsx_state_uac` behind `on_rx_notify`, if that was called. -/
  | uacNotifyCode (r : Report) (asked : Bool)
  /-- `on_tsx_state_uac` behind a response that refuses. -/
  | uacNotifyRefused
  /-- `on_tsx_state_uac` behind a response that accepts. -/
  | uacNotifyAnswered (state : State)
  /-- `on_tsx_state_uas` behind `on_rx_refresh`, if that was called. -/
  | uasRefreshCode (old : State) (asked : Bool)
  /-- `on_tsx_state_uas` behind the response, which has this Expires header. -/
  | uasRefreshAnswered (old : State) (stCode : Int) (expires : Int)
  /-- `on_tsx_state_uas` behind `set_state`. -/
  | uasSetTimer (expires : Int)
  /-- `on_tsx_state_uas` behind the request with credentials. -/
  | uasAuthSent (tsx : Nat)
  /-- `pjsip_evsub_send_request` behind the sending. -/
  | requestSent (isNotify : Bool)
  /-- `pjsip_evsub_send_request` behind `set_state`. -/
  | clearDst
  /-- `pjsip_evsub_accept` behind the sending of the response, which has this Expires header. -/
  | acceptSent (expires : Int)
  /-- Nothing. -/
  | nothing
  deriving DecidableEq

/-- What a piece of code leaves: the world and the frames that it puts on the stack. -/
abbrev Out : Type := World × List (Frame Task)

/-- The piece ends here. -/
def done (w : World) : Out := (w, [])

/-- Call out, and go on with the task. -/
def callOut (t : Task) (w : World) : Out := (w, [.outside, .code t])

/-- Go on with the task, behind a call out if `c`. -/
def callIf (c : Bool) (t : Task) (w : World) : Out := if c then callOut t w else (w, [.code t])

/-- Do the task when all of that is done. -/
def Out.andThen (o : Out) (t : Task) : Out := (o.1, o.2 ++ [.code t])

/-- Change the subscription. -/
def World.setSub (f : Sub → Sub) (w : World) : World := { w with sub := f w.sub }

/-! ## Timer and state -/

/-- `PJSIP_EVSUB_TIME_UAC_REFRESH`. -/
def timeUacRefresh : Int := 5

/-- `PJSIP_EVSUB_TIME_UAC_TERMINATE`. -/
def timeUacTerminate : Int := 5

/-- `PJSIP_EVSUB_TIME_UAC_WAIT_NOTIFY`. -/
def timeUacWaitNotify : Int := 5

/-- `update_expires`. -/
def updateExpires (interval : Int) (w : World) : World :=
  w.setSub fun s => { s with refreshTime := w.now + uint32 interval }

/-- `pjsip_endpt_cancel_timer`, and the id. -/
def cancelTimer (w : World) : World :=
  if w.sub.timerId ≠ .none then { w with heap := [], sub := { w.sub with timerId := .none } } else w

/-- `set_timer`. -/
def setTimer (timerId : TimerId) (seconds : Int) (w : World) : World :=
  let w := cancelTimer w
  if timerId ≠ .none then
    let w := { w with asked := w.asked ++ [(timerId, seconds)] }
    if 0 < seconds then
      { w with heap := (w.now + seconds) :: w.heap, sub := { w.sub with timerId := timerId } }
    else w
  else w

/-- `evsub_destroy`. The dialog forgets the subscription. -/
def evsubDestroy (w : World) : World :=
  let w := setTimer .none 0 w
  { w with destroyed := w.destroyed + 1 }

/-- `set_state`, up to the callback. -/
def setState (state : State) (w : World) : Out :=
  let prev := w.sub.state
  let w := w.setSub fun s => { s with state := state }
  callIf (w.sub.user.onEvsubState && w.sub.callCb) (.stateDone prev state) w

/-- `set_state`, behind the callback. -/
def stateDone (prev state : State) (w : World) : Out :=
  if state = .terminated ∧ prev ≠ .terminated then
    let w := setTimer .none 0 w
    if w.sub.pendingTsx = 0 then done (evsubDestroy w) else done w
  else done w

/-! ## The application's calls -/

/-- `pjsip_evsub_terminate`. -/
def pjsipEvsubTerminate (notify : Bool) (w : World) : Out :=
  setState .terminated (w.setSub fun s => { s with callCb := notify })

/-- `pjsip_evsub_initiate`. -/
def pjsipEvsubInitiate (method : Method) (expires : Int) (created : Bool) (w : World) : World :=
  let w := if w.sub.state = .null then w.setSub fun s => { s with method := method } else w
  if created = true ∧ 0 ≤ expires then w.setSub fun s => { s with expires := expires } else w

/-- `pjsip_evsub_notify`. -/
def pjsipEvsubNotify (state : State) (created : Bool) (w : World) : World :=
  if created then w.setSub fun s => { s with dstState := state } else w

/-- `pjsip_evsub_send_request`, up to the sending. -/
def pjsipEvsubSendRequest (isNotify : Bool) (w : World) : Out := callOut (.requestSent isNotify) w

/-- `pjsip_evsub_send_request`, behind the sending. -/
def requestSent (isNotify : Bool) (ret : Ret) (w : World) : Out :=
  if ret.ok = false then done w
  else if isNotify then
    if w.sub.dstState = .null then done w
    else (setState w.sub.dstState w).andThen .clearDst
  else done w

/-- `pjsip_evsub_send_request`, behind `set_state`. -/
def clearDst (w : World) : Out := done (w.setSub fun s => { s with dstState := .null })

/-- `pjsip_evsub_accept`, up to the sending. -/
def pjsipEvsubAccept (tsx : Nat) (stCode : Int) (created : Bool) (w : World) : Out :=
  if w.sub.role ≠ .uas then done w
  else if stCode / 100 ≠ 2 then done w
  else if tsx ∉ w.attached then done w
  else if created = false then done w
  else callOut (.acceptSent w.sub.expires) w

/-- A server has accepted the subscription for this time. -/
def grant (expires : Int) (w : World) : World := { w with granted := some (w.now + expires) }

/-- `pjsip_evsub_accept`, behind the sending. -/
def acceptSent (expires : Int) (ret : Ret) (w : World) : Out :=
  if ret.ok = false then done w
  else if w.sub.state ≠ .terminated then
    done (setTimer .uasTimeout w.sub.expires (grant expires w))
  else done w

/-! ## Reports on a client subscription -/

/-- The method is the one that established the subscription, or SUBSCRIBE. -/
def isSubscribe (w : World) (tsx : Nat) : Bool :=
  (w.tsx tsx).method = w.sub.method || (w.tsx tsx).method = .subscribe

/-- When to refresh: some seconds before the subscription expires. -/
def refreshDelay (expires : Int) (rand : Fin 10) : Int :=
  let timeout := uint32 (if timeUacRefresh < expires then expires - timeUacRefresh else expires)
  int32 (if 10 < timeout then uint32 (timeout + (-10 + rand.val)) else timeout)

/-- `on_tsx_state_uac`: a 2xx response to SUBSCRIBE. -/
def uacAccepted (r : Report) (w : World) : Out :=
  let w := if w.sub.expires ≠ 0 then
      w.setSub fun s => { s with expires := r.expires.getD s.expires } else w
  let w := updateExpires w.sub.expires w
  let w := if w.sub.expires ≠ 0 then setTimer .uacRefresh (refreshDelay w.sub.expires r.rand) w
    else setTimer .uacTerminate timeUacTerminate w
  if w.sub.state = .sent then setState .accepted w else done w

/-- `on_tsx_state_uac`: another final response to SUBSCRIBE. -/
def uacFailed (tsx : Nat) (w : World) : Out :=
  if w.sub.state = .terminated then done w
  else if (w.tsx tsx).statusCode = 490 then done w
  else setState .terminated w

/-- `on_tsx_state_uac`: a final response to SUBSCRIBE. -/
def uacSubscribeDone (r : Report) (ret : Ret) (w : World) : Out :=
  let tsx := w.tsx r.tsx
  if tsx.statusCode = 401 ∨ tsx.statusCode = 407 then
    if tsx.state = .terminated then done w
    else if ret.created then callOut .uacAuthSent w
    else setState .terminated w
  else if tsx.statusCode / 100 = 2 then
    if tsx.state = .terminated then done w else uacAccepted r w
  else uacFailed r.tsx w

/-- `on_tsx_state_uac`: SUBSCRIBE. -/
def uacSubscribe (r : Report) (ret : Ret) (w : World) : Out :=
  let tsx := w.tsx r.tsx
  if w.sub.state = .null ∧ tsx.state = .calling then setState .sent w
  else if tsx.state ≠ .completed ∧ tsx.state ≠ .terminated then done w
  else if w.sub.pendingSub = some r.tsx then
    uacSubscribeDone r ret (w.setSub fun s => { s with pendingSub := none })
  else if w.sub.pendingSub ≠ none then done w
  else uacSubscribeDone r ret w

/-- `on_tsx_state_uac`, behind the request with credentials. -/
def uacAuthSent (ret : Ret) (w : World) : Out :=
  if ret.ok = false then setState .terminated w else done w

/-- The answer of the application, which must be a final status code. -/
def finalCode (stCode : Int) : Int :=
  let stCode := if 200 ≤ stCode then stCode else 200
  if stCode ≤ 699 then stCode else 500

/-- The timer for the next refresh, from an incoming NOTIFY. -/
def notifyTimer (subState : State × Int) (w : World) : World :=
  if w.sub.expires ≠ 0 ∧ 0 ≤ subState.2 ∧ (subState.1 = .active ∨ subState.1 = .pending) then
    let w := updateExpires subState.2 w
    setTimer .uacRefresh
      (if timeUacRefresh < subState.2 then subState.2 - timeUacRefresh else subState.2) w
  else w

/-- `on_tsx_state_uac`: the response to NOTIFY, up to the sending. -/
def uacNotifyRespond (subState : State × Int) (stCode : Int) (ret : Ret) (w : World) : Out :=
  if 300 ≤ stCode then
    if ret.created then callOut .uacNotifyRefused w else setState .terminated w
  else
    let w := notifyTimer subState w
    if ret.created then callOut (.uacNotifyAnswered subState.1) w else setState .terminated w

/-- `on_tsx_state_uac`: NOTIFY. One without a Subscription-State header is a bad request. -/
def uacNotify (r : Report) (ret : Ret) (w : World) : Out :=
  if (w.tsx r.tsx).state ≠ .trying then done w
  else match r.subState with
    | none => uacNotifyRespond (.unknown, 0) 400 ret w
    | some _ =>
        let asks := w.sub.user.onRxNotify && w.sub.callCb
        callIf asks (.uacNotifyCode r asks) w

/-- `on_tsx_state_uac`, behind `on_rx_notify`. -/
def uacNotifyCode (r : Report) (asked : Bool) (ret : Ret) (w : World) : Out :=
  uacNotifyRespond (r.subState.getD (.unknown, 0)) (if asked then finalCode ret.stCode else 200) ret w

/-- `on_tsx_state_uac`, behind a response that refuses. -/
def uacNotifyRefused (ret : Ret) (w : World) : Out :=
  if ret.ok then done (setTimer .uacWaitNotify timeUacWaitNotify w) else setState .terminated w

/-- `on_tsx_state_uac`, behind a response that accepts. -/
def uacNotifyAnswered (state : State) (ret : Ret) (w : World) : Out :=
  if ret.ok then setState state w else setState .terminated w

/-- `on_tsx_state_uac`. -/
def onTsxStateUac (r : Report) (ret : Ret) (w : World) : Out :=
  if isSubscribe w r.tsx then uacSubscribe r ret w
  else if (w.tsx r.tsx).method = .notify then uacNotify r ret w
  else done w

/-! ## Reports on a server subscription -/

/-- The expiration that a request to refresh asks for, at most that of the package. -/
def refreshExpires (r : Report) (s : Sub) : Int :=
  match r.expires with
  | none => s.expires
  | some e =>
      if r.hasPackage then
        if e < int32 s.pkgExpires then e else int32 s.pkgExpires
      else s.expires

/-- The state while the application is asked: no expiration ends the subscription. -/
def refreshState (s : Sub) : State :=
  if s.expires = 0 then .terminated else if s.state = .null then .accepted else s.state

/-- `on_tsx_state_uas`: the expiration of a request to refresh. -/
def adoptExpires (r : Report) (w : World) : World :=
  let w := w.setSub fun s => { s with expires := refreshExpires r s }
  updateExpires w.sub.expires w

/-- `on_tsx_state_uas`: a request to refresh, up to `on_rx_refresh`. -/
def uasRefresh (r : Report) (w : World) : Out :=
  if (w.tsx r.tsx).state ≠ .trying then done w
  else
    let w := adoptExpires r w
    let old := w.sub.state
    let w := w.setSub fun s => { s with state := refreshState s }
    let asks := w.sub.user.onRxRefresh && w.sub.callCb
    callIf asks (.uasRefreshCode old asks) w

/-- `on_tsx_state_uas`, behind `on_rx_refresh`. -/
def uasRefreshCode (old : State) (asked : Bool) (ret : Ret) (w : World) : Out :=
  callIf ret.created
    (.uasRefreshAnswered old (if asked then finalCode ret.stCode else 200) w.sub.expires) w

/-- `on_tsx_state_uas`: the timer. -/
def uasSetTimer (expires : Int) (w : World) : Out :=
  if w.sub.state ≠ .terminated then
    done (setTimer .uasTimeout w.sub.expires (grant expires w))
  else done w

/-- `on_tsx_state_uas`, behind the response: update or revert the state. -/
def uasRefreshAnswered (old : State) (stCode expires : Int) (w : World) : Out :=
  if stCode / 100 = 2 then
    if w.sub.expires = 0 then (setState w.sub.state w).andThen (.uasSetTimer expires)
    else if w.sub.state = .null then (setState w.sub.state w).andThen (.uasSetTimer expires)
    else uasSetTimer expires w
  else done (w.setSub fun s => { s with state := old })

/-- `on_tsx_state_uas`: the responses to NOTIFY that end the subscription. -/
def uasNotifyFailed (tsx : Nat) (w : World) : Out :=
  let statusCode := (w.tsx tsx).statusCode
  if w.sub.state ≠ .terminated ∧ (statusCode = 481 ∨ statusCode = 408 ∨ statusCode / 100 = 7) then
    setState .terminated w
  else done w

/-- `on_tsx_state_uas`: NOTIFY. -/
def uasNotify (r : Report) (ret : Ret) (w : World) : Out :=
  let tsx := w.tsx r.tsx
  if tsx.state = .completed ∧ (tsx.statusCode = 401 ∨ tsx.statusCode = 407) then
    if ret.created then callOut (.uasAuthSent r.tsx) w else setState .terminated w
  else uasNotifyFailed r.tsx w

/-- `on_tsx_state_uas`, behind the request with credentials. -/
def uasAuthSent (tsx : Nat) (ret : Ret) (w : World) : Out :=
  if ret.ok = false then setState .terminated w else uasNotifyFailed tsx w

/-- `on_tsx_state_uas`. -/
def onTsxStateUas (r : Report) (ret : Ret) (w : World) : Out :=
  if isSubscribe w r.tsx then uasRefresh r w
  else if (w.tsx r.tsx).method = .notify then uasNotify r ret w
  else done w

/-! ## Reports -/

/-- `mod_evsub_on_tsx_state`, with an attached transaction. -/
def reported (r : Report) (w : World) : Out :=
  callIf (w.sub.user.onTsxState && w.sub.callCb) (.handle r) w

/-- `on_new_transaction`: the subscription found is attached to the transaction. The timer that ends
the pending request that was before is left out: a report may end a transaction at any time. -/
def attach (tsx : Nat) (w : World) : World :=
  let t := w.tsx tsx
  let w := { w with
    attached := w.attached ++ [tsx]
    sub := { w.sub with pendingTsx := w.sub.pendingTsx + 1 } }
  if t.role = .uac ∧ t.state = .calling ∧ isSubscribe w tsx then
    w.setSub fun s => { s with pendingSub := some tsx }
  else w

/-- `on_new_transaction`: NOTIFY is rejected with 481. -/
def rejectNotify (tsx : Nat) (created : Bool) (w : World) : Out :=
  if (w.tsx tsx).state = .trying ∧ (w.tsx tsx).method = .notify ∧ created = true then
    callOut .nothing w
  else done w

/-- `on_new_transaction`. The dialog knows the subscription until that is destroyed. -/
def onNewTransaction (r : Report) (created : Bool) (w : World) : Out :=
  let found := r.isOurs && decide (w.destroyed = 0) &&
    !(w.sub.noEventId && decide (w.sub.state = .terminated))
  if found then
    if w.sub.state = .terminated then rejectNotify r.tsx created w
    else reported r (attach r.tsx w)
  else if r.isOther then done w
  else rejectNotify r.tsx created w

/-- `mod_evsub_on_tsx_state`, behind `on_tsx_state`. -/
def handle (r : Report) (ret : Ret) (w : World) : Out :=
  (match w.sub.role with
    | .uac => onTsxStateUac r ret w
    | .uas => onTsxStateUas r ret w).andThen (.reportEnd r.tsx)

/-- The end of `mod_evsub_on_tsx_state`. -/
def reportEnd (tsx : Nat) (w : World) : Out :=
  if (w.tsx tsx).state = .terminated then
    let w := w.setSub fun s => { s with pendingTsx := s.pendingTsx - 1 }
    if w.sub.state = .terminated ∧ w.sub.pendingTsx = 0 then done (evsubDestroy w) else done w
  else done w

/-- A transaction enters a state and reports that. Its state does not go back, and the dialog takes
no report behind the termination. -/
def tsxReport (r : Report) (created : Bool) (w : World) : Out :=
  let t := w.tsx r.tsx
  if t.state = .terminated ∨ r.state.rank < t.state.rank then done w
  else
    let w := { w with
      tsx := Function.update w.tsx r.tsx { t with state := r.state, statusCode := r.statusCode } }
    if r.tsx ∈ w.attached then reported r w else onNewTransaction r created w

/-! ## The timer -/

/-- `on_timer`, up to a call out. -/
def onTimer (created : Bool) (w : World) : Out :=
  let timerId := w.sub.timerId
  let w := { w with
    heap := w.heap.eraseP fun due => decide (due ≤ w.now)
    sub := { w.sub with timerId := .none }
    fired := w.fired ++ [(timerId, w.sub.state)] }
  match timerId with
  | .uacRefresh =>
      if w.sub.user.onClientRefresh && w.sub.callCb then callOut .nothing w
      else
        let w := pjsipEvsubInitiate .subscribe w.sub.expires created w
        if created then pjsipEvsubSendRequest false w else done w
  | .uasTimeout =>
      if w.sub.user.onServerTimeout && w.sub.callCb then callOut .nothing w
      else
        let w := pjsipEvsubNotify .terminated created w
        if created then pjsipEvsubSendRequest true w else done w
  | .uacTerminate => setState .terminated w
  | .uacWaitNotify =>
      let w := pjsipEvsubInitiate .subscribe 0 created w
      if created then pjsipEvsubSendRequest false w else done w
  | .none => done w

/-! ## The subscription as a program -/

/-- What the code outside may do. -/
inductive Call where
  | terminate (notify : Bool)
  | initiate (method : Method) (expires : Int) (created : Bool)
  | notify (state : State) (created : Bool)
  | sendRequest (isNotify : Bool)
  | accept (tsx : Nat) (stCode : Int) (created : Bool)
  | report (r : Report) (created : Bool)
  deriving DecidableEq

/-- What occurs only when nothing is under way: time goes on, or the timer fires. -/
inductive Event where
  | time (seconds : Nat)
  | timer (created : Bool)
  deriving DecidableEq

/-- The entry points. -/
def call : Call → World → Out
  | .terminate n, w => pjsipEvsubTerminate n w
  | .initiate m e c, w => done (pjsipEvsubInitiate m e c w)
  | .notify s c, w => done (pjsipEvsubNotify s c w)
  | .sendRequest n, w => pjsipEvsubSendRequest n w
  | .accept t c cr, w => pjsipEvsubAccept t c cr w
  | .report r c, w => tsxReport r c w

/-- The events. The timer fires at its time. -/
def event : Event → World → Out
  | .time n, w => done { w with now := w.now + n }
  | .timer c, w => if w.heap.any (fun due => decide (due ≤ w.now)) then onTimer c w else done w

/-- The pieces of code. -/
def resume : Task → Ret → World → Out
  | .stateDone prev state, _, w => stateDone prev state w
  | .handle r, ret, w => handle r ret w
  | .reportEnd t, _, w => reportEnd t w
  | .uacAuthSent, ret, w => uacAuthSent ret w
  | .uacNotifyCode r asked, ret, w => uacNotifyCode r asked ret w
  | .uacNotifyRefused, ret, w => uacNotifyRefused ret w
  | .uacNotifyAnswered s, ret, w => uacNotifyAnswered s ret w
  | .uasRefreshCode old asked, ret, w => uasRefreshCode old asked ret w
  | .uasRefreshAnswered old c e, _, w => uasRefreshAnswered old c e w
  | .uasSetTimer e, _, w => uasSetTimer e w
  | .uasAuthSent t, ret, w => uasAuthSent t ret w
  | .requestSent n, ret, w => requestSent n ret w
  | .clearDst, _, w => clearDst w
  | .acceptSent e, ret, w => acceptSent e ret w
  | .nothing, _, w => done w

/-- The subscription. -/
def program : Reentry.Program World Task Call Event Ret where
  call := call
  event := event
  resume := resume

/-- A step of the subscription. -/
abbrev Step : Type := Reentry.Step Call Event Ret

/-- A subscription that the application has just created, with the transactions of its dialog: with
`pjsip_evsub_create_uac` none of them is attached, with `pjsip_evsub_create_uas` that of the request,
which has not ended. -/
structure Created (w : World) : Prop where
  state : w.sub.state = .null
  dst_state : w.sub.dstState = .null
  timer : w.sub.timerId = .none ∧ w.heap = []
  pending_sub : w.sub.pendingSub = none
  attached : match w.sub.role with
    | .uac => w.attached = [] ∧ w.sub.pendingTsx = 0
    | .uas => ∃ tsx, w.attached = [tsx] ∧ w.sub.pendingTsx = 1 ∧ (w.tsx tsx).state ≠ .terminated
  history : w.destroyed = 0 ∧ w.asked = [] ∧ w.fired = [] ∧ w.granted = none

/-- Nothing is under way in it. -/
def start (w : World) : Conf World Task := ⟨w, []⟩

/-! ## The timer entry -/

/-- The entry is in the heap once if its id names a timer, and not at all otherwise. -/
structure TimerOk (w : World) : Prop where
  once : w.heap.length ≤ 1
  pending : w.sub.timerId ≠ .none ↔ w.heap ≠ []

theorem cancelTimer_heap {w : World} (h : TimerOk w) : (cancelTimer w).heap = [] := by
  unfold cancelTimer
  split
  · rfl
  · rename_i hid
    by_contra hheap
    exact hid (h.pending.mpr hheap)

theorem cancelTimer_timerId (w : World) : (cancelTimer w).sub.timerId = .none := by
  unfold cancelTimer
  split
  · rfl
  · rename_i hid
    exact not_not.mp hid

/-- `set_timer` leaves the timer that it was asked for, if the delay is positive. -/
theorem setTimer_heap {w : World} (h : TimerOk w) (timerId : TimerId) (seconds : Int) :
    (setTimer timerId seconds w).heap =
        (if timerId ≠ .none ∧ 0 < seconds then [w.now + seconds] else []) ∧
      (setTimer timerId seconds w).sub.timerId =
        (if timerId ≠ .none ∧ 0 < seconds then timerId else .none) := by
  have hheap := cancelTimer_heap h
  have hid := cancelTimer_timerId w
  have hnow : (cancelTimer w).now = w.now := by
    unfold cancelTimer
    split <;> rfl
  unfold setTimer
  dsimp only
  by_cases hnone : timerId ≠ .none
  · by_cases hpos : 0 < seconds
    · rw [if_pos hnone, if_pos hpos, if_pos ⟨hnone, hpos⟩, if_pos ⟨hnone, hpos⟩]
      dsimp only
      rw [hheap, hnow]
      exact ⟨rfl, rfl⟩
    · rw [if_pos hnone, if_neg hpos, if_neg fun hc => hpos hc.2, if_neg fun hc => hpos hc.2]
      exact ⟨hheap, hid⟩
  · rw [if_neg hnone, if_neg fun hc => hnone hc.1, if_neg fun hc => hnone hc.1]
    exact ⟨hheap, hid⟩

theorem TimerOk.setTimer {w : World} (h : TimerOk w) (timerId : TimerId) (seconds : Int) :
    TimerOk (setTimer timerId seconds w) := by
  have hset := setTimer_heap h timerId seconds
  constructor
  · rw [hset.1]
    split <;> simp
  · rw [hset.1, hset.2]
    split
    · rename_i hc
      simp [hc.1]
    · simp

/-- `set_timer` changes the entry only. -/
theorem setTimer_frame (timerId : TimerId) (seconds : Int) (w : World) :
    ∃ heap id asked, setTimer timerId seconds w =
      { w with heap := heap, asked := asked, sub := { w.sub with timerId := id } } := by
  have hcancel : ∃ heap id, cancelTimer w = { w with heap := heap, sub := { w.sub with timerId := id } } := by
    unfold cancelTimer
    split
    · exact ⟨[], .none, rfl⟩
    · exact ⟨w.heap, w.sub.timerId, rfl⟩
  rcases hcancel with ⟨heap, id, hcancel⟩
  unfold setTimer
  rw [hcancel]
  dsimp only
  split
  · split
    · exact ⟨_, _, _, rfl⟩
    · exact ⟨_, _, _, rfl⟩
  · exact ⟨_, _, w.asked, rfl⟩

end Evsub
