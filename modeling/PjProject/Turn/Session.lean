import PjProject.Library.Run
import PjProject.Stun.Msg
import PjProject.Timer.Calls

set_option autoImplicit false

/-! # A TURN session

`pjnath/src/pjnath/turn_session.c`: the life of a `pj_turn_session`, from resolving the server to
its destruction, with the parts of `stun_session.c` that keep the outstanding requests and answer
challenges (`handle_auth_challenge`). A step is a call of the application, an answer of the resolver,
the timer, or the completion of a request. What sending comes to is given with the step (`Sending`),
and so is the time where the code asks for it.

The callback `on_state` does not call the session again. Data that are relayed, the numbers by which
channels are found, and what the requests carry beside the lifetime are left out.
-/

namespace Turn

open Wire Timer
open Stun (SockAddr stunMaxAttr)

/-! ## The data model -/

/-- `pj_turn_state_t`. -/
inductive TurnState where
  | null
  | resolving
  | resolved
  | allocating
  | ready
  | deallocating
  | deallocated
  | destroying
  deriving DecidableEq

/-- `sess->state < PJ_TURN_STATE_DEALLOCATING`. -/
def TurnState.beforeDeallocating : TurnState → Bool
  | .null | .resolving | .resolved | .allocating | .ready => true
  | .deallocating | .deallocated | .destroying => false

/-- A `pj_status_t`. -/
inductive Status where
  | success
  | einstunmsg
  | etoosmall
  | stunCode (code : Nat)
  | other (code : Nat)
  deriving DecidableEq

/-- `TIMER_NONE`. -/
def timerNone : Int := 0

/-- `TIMER_KEEP_ALIVE`. -/
def timerKeepAlive : Int := 1

/-- `TIMER_DESTROY`. -/
def timerDestroy : Int := 2

/-- `PJ_TURN_MAX_DNS_SRV_CNT`. -/
def maxDnsSrvCnt : Nat := 4

/-- `PJ_TURN_PERM_TIMEOUT`. -/
def permTimeout : Nat := 300

/-- `PJ_TURN_REFRESH_SEC_BEFORE`. -/
def refreshSecBefore : Nat := 60

/-- `PJ_TURN_KEEP_ALIVE_SEC`. -/
def keepAliveSec : Nat := 15

/-- `PJ_TURN_CHANNEL_MIN`. -/
def channelMin : Nat := 0x4000

/-- `PJ_TURN_CHANNEL_MAX`. -/
def channelMax : Nat := 0x7FFF

/-- `PJ_TURN_INVALID_CHANNEL`. -/
def invalidChannel : Nat := 0xFFFF

/-- `PJ_STUN_SC_ALLOCATION_MISMATCH`. -/
def scAllocationMismatch : Nat := 437

/-- `pj_turn_alloc_param`. -/
structure AllocParam where
  bandwidth : Int
  lifetime : Int
  kaInterval : Int
  deriving DecidableEq

/-- `ch_t`. -/
structure Channel where
  num : Nat
  bound : Bool
  addr : SockAddr
  expiry : PjTimeVal
  deriving DecidableEq

/-- `perm_t`. -/
structure Perm where
  addr : SockAddr
  renew : Bool
  expiry : PjTimeVal
  reqToken : Option Nat
  deriving DecidableEq

/-- A request with its token. -/
inductive Request where
  | allocate
  | refresh (lifetime : Int)
  | channelBind (peer : SockAddr)
  | createPerm (token : Nat)
  deriving DecidableEq

/-- A Refresh request. -/
def Request.isRefresh : Request → Bool
  | .refresh _ => true
  | _ => false

/-- What creating and sending a request comes to: `PJ_EPENDING` is an error for the TURN session,
while the STUN session has the request among its outstanding ones. -/
inductive Sending where
  | sent
  | epending
  | failed
  | notCreated
  deriving DecidableEq

/-- A response: whether its class is that of a success response, and the attributes that are looked
at. A response of either class may have any of them. -/
structure Response where
  success : Bool
  errCode : Option Nat
  nonce : Option (List UInt8)
  lifetime : Option UInt32
  relayedAddr : Option SockAddr
  mappedAddr : Option SockAddr
  deriving DecidableEq

/-- How a request ends: with a response, or without one. -/
inductive Completion where
  | response (r : Response)
  | noResponse (status : Nat)
  deriving DecidableEq

/-- The status of `pj_stun_client_tsx_on_rx_msg`: it is that of the ERROR-CODE, whatever the class of
the response. -/
def Completion.status : Completion → Status
  | .response r => (r.errCode.map .stunCode).getD .success
  | .noResponse status => .other status

/-- A response with a code of at most 200 is discarded there, and the request goes on waiting. -/
def Completion.discarded : Completion → Bool
  | .response r => r.errCode.any (· ≤ 200)
  | .noResponse _ => false

/-- The response of a request that has succeeded: `status==PJ_SUCCESS` and
`PJ_STUN_IS_SUCCESS_RESPONSE`. -/
def Completion.accepted : Completion → Option Response
  | .response r => if r.errCode = none ∧ r.success then some r else none
  | .noResponse _ => none

/-- `err_code` of a request that has failed. Without an ERROR-CODE it is 0 or -1. -/
def Completion.errCode : Completion → Option Nat
  | .response r => r.errCode
  | .noResponse status => some status

/-- `pj_turn_session`, with the authentication and the outstanding requests of its STUN session. The
server is a place in `srvAddrList`. The last four fields are not in the source: whether a DNS query
is outstanding, the states that the session has been in, the number of destroy timer events, and
whether the assertion of `on_allocate_success` has failed; `sends` is what sending comes to in this
step. -/
structure Session where
  ipv6 : Bool
  state : TurnState
  lastStatus : Status
  pendingDestroy : Bool
  isDestroying : Bool
  lifetime : UInt32
  kaInterval : Nat
  expiry : PjTimeVal
  timer : Timer.Entry
  srvAddrList : List SockAddr
  srvAddr : Option Nat
  pendingAlloc : Bool
  allocParam : AllocParam
  mappedAddr : Option SockAddr
  relayAddr : Option SockAddr
  chTable : List Channel
  permTable : List Perm
  nextCh : Nat
  longTerm : Bool
  nextNonce : List UInt8
  authRetry : Nat
  pending : List Request
  sends : List Sending
  dnsPending : Bool
  visited : List TurnState
  destroyEvents : Nat
  assertFailed : Bool
  deriving DecidableEq

/-- `pj_turn_session_create`. -/
def turnSessionCreate (ipv6 : Bool) : Session where
  ipv6 := ipv6
  state := .null
  lastStatus := .success
  pendingDestroy := false
  isDestroying := false
  lifetime := 0
  kaInterval := keepAliveSec
  expiry := ⟨0, 0⟩
  timer := .idle timerNone
  srvAddrList := []
  srvAddr := none
  pendingAlloc := false
  allocParam := ⟨0, 0, 0⟩
  mappedAddr := none
  relayAddr := none
  chTable := []
  permTable := []
  nextCh := channelMin
  longTerm := false
  nextNonce := []
  authRetry := 0
  pending := []
  sends := []
  dnsPending := false
  visited := [.null]
  destroyEvents := 0
  assertFailed := false

/-! ## Addresses and times -/

/-- `pj_sockaddr_set_port`. -/
def withPort (port : Bytes 2) : SockAddr → SockAddr
  | .ipv4 _ addr => .ipv4 port addr
  | .ipv6 _ addr => .ipv6 port addr

/-- The address that a permission is identified by. -/
def noPort (addr : SockAddr) : SockAddr := withPort (zeroBytes 2) addr

/-- `pj_sockaddr_has_addr`. -/
def hasAddr : SockAddr → Bool
  | .ipv4 _ addr => addr.val.any (· != 0)
  | .ipv6 _ addr => addr.val.any (· != 0)

/-- The address is of the family `sess->af`. -/
def ofFamily (ipv6 : Bool) : SockAddr → Bool
  | .ipv4 _ _ => !ipv6
  | .ipv6 _ _ => ipv6

/-- `t.sec += sec`. -/
def addSec (t : PjTimeVal) (sec : Int) : PjTimeVal := { t with sec := t.sec + sec }

/-- The expiration of a channel or a permission that is renewed. -/
def Session.permExpiry (s : Session) (now : PjTimeVal) : PjTimeVal :=
  addSec now (permTimeout - s.kaInterval - 1)

/-! ## Sending -/

/-- `pj_stun_session_create_req` and `pj_stun_session_send_msg`. After `pj_stun_session_destroy`
nothing is sent. -/
def Session.sendMsg (s : Session) (req : Request) : Session × Sending :=
  let r := s.sends.headD .sent
  let s := { s with sends := s.sends.tail }
  if s.isDestroying then (s, if r = .notCreated then .notCreated else .failed)
  else if r = .sent ∨ r = .epending then ({ s with pending := s.pending ++ [req] }, r)
  else (s, r)

/-! ## The end of a session -/

/-- `set_state`; also an assignment of `sess->state`. -/
def Session.setState (s : Session) (state : TurnState) : Session :=
  if state = s.state then s else { s with state := state, visited := s.visited ++ [state] }

/-- The end of `sess_shutdown`: `PJ_TURN_STATE_DESTROYING`, and the destroy timer. -/
def Session.scheduleDestroy (s : Session) : Session :=
  let s := s.setState .destroying
  { s with timer := ((s.timer.cancelIfActive timerNone).schedule timerDestroy).1 }

/-- `last_status` in `sess_shutdown`. -/
def Session.noteStatus (s : Session) (status : Status) : Session :=
  if s.lastStatus = .success ∧ status ≠ .success then { s with lastStatus := status } else s

/-- `on_error` of `send_refresh`: the call of `sess_shutdown` in `PJ_TURN_STATE_DEALLOCATED`. -/
def Session.refreshError (s : Session) (lifetime : Int) : Session :=
  if lifetime = 0 then ((s.setState .deallocated).noteStatus (.other 0)).scheduleDestroy else s

/-- `send_refresh`. -/
def sendRefresh (s : Session) (lifetime : Int) : Session :=
  if s.state ≠ .ready then s
  else
    let r := s.sendMsg (.refresh lifetime)
    if r.2 = .notCreated then r.1.refreshError lifetime
    else
      let s := if lifetime = 0 then r.1.setState .deallocating else r.1
      if r.2 = .sent then s else s.refreshError lifetime

/-- `sess_shutdown`. -/
def sessShutdown (s : Session) (status : Status) : Session :=
  let s := s.noteStatus status
  match s.state with
  | .resolving | .allocating => { s with pendingDestroy := true }
  | .ready => sendRefresh s 0
  | .deallocating => s
  | .null | .resolved | .deallocated | .destroying => s.scheduleDestroy

/-- `pj_turn_session_destroy`. -/
def turnSessionDestroy (s : Session) (lastErr : Status) : Session :=
  sessShutdown ((s.noteStatus lastErr).setState .deallocated) .success

/-- `do_destroy`: the requests of the STUN session are stopped. -/
def doDestroy (s : Session) : Session :=
  if s.isDestroying then s
  else
    { s with
      isDestroying := true
      timer := s.timer.cancelIfActive timerNone
      pending := [] }

/-! ## Resolving the server -/

/-- What the server is resolved with: the resolver (whether the query could be started), or
`pj_getaddrinfo` (what it found), each with the default port. -/
inductive Server where
  | resolver (started : Bool)
  | host (defaultPort : Int) (found : Option (List SockAddr))

/-- `pj_turn_session_set_server`. -/
def turnSessionSetServer (s : Session) : Server → Session
  | .resolver started =>
      if s.state ≠ .null then s
      else
        let s := s.setState .resolving
        if started then { s with dnsPending := true } else s.setState .null
  | .host defaultPort found =>
      if s.state ≠ .null then s
      else if ¬ (0 < defaultPort ∧ defaultPort < 65536) then s
      else
        let s := s.setState .resolving
        match found with
        | none => s
        | some ai =>
            let port : Bytes 2 := ⟨put16 (UInt16.ofNat defaultPort.toNat), rfl⟩
            { s with
              srvAddrList := (ai.take maxDnsSrvCnt).map (withPort port)
              srvAddr := some 0 }.setState .resolved

/-- The part of `pj_turn_session_alloc` in `PJ_TURN_STATE_RESOLVED`. -/
def Session.allocate (s : Session) : Session :=
  let r := s.sendMsg .allocate
  if r.2 = .notCreated then r.1
  else
    let s := r.1.setState .allocating
    if r.2 = .sent then s else s.setState .resolved

/-- `pj_turn_session_alloc`. -/
def turnSessionAlloc (s : Session) (param : Option AllocParam) : Session :=
  match s.state with
  | .resolving => { s with allocParam := param.getD s.allocParam, pendingAlloc := true }
  | .resolved => { s with allocParam := param.getD s.allocParam }.allocate
  | _ => s

/-- A `pj_dns_srv_record`: the port and the addresses of every entry. -/
abbrev SrvRecord := List (Bytes 2 × List (Bytes 4))

/-- The addresses of the record. -/
def SrvRecord.addrs (record : SrvRecord) : List SockAddr :=
  (record.flatMap fun e => e.2.map fun a => SockAddr.ipv4 e.1 a).take maxDnsSrvCnt

/-- `dns_srv_resolver_cb`. -/
def dnsSrvResolverCb (s : Session) (record : Option SrvRecord) : Session :=
  match record, s.pendingDestroy with
  | some record, false =>
      let s := { s with srvAddrList := record.addrs, srvAddr := some 0 }.setState .resolved
      if s.pendingAlloc then turnSessionAlloc s none else s
  | none, _ => sessShutdown (s.setState .destroying) (.other 0)
  | some _, true => sessShutdown (s.setState .destroying) .success

/-! ## Permissions and channels -/

/-- `lookup_perm` with `update`: the permission is created where there is none. -/
def lookupPerm (s : Session) (addr : SockAddr) (now : PjTimeVal) : List Perm :=
  let table := if s.permTable.any fun p => p.addr == noPort addr then s.permTable
    else s.permTable ++ [⟨noPort addr, false, now, none⟩]
  table.map fun p => if p.addr = noPort addr then { p with expiry := s.permExpiry now } else p

/-- `invalidate_perm` of the permissions of a request. -/
def Session.invalidatePerms (s : Session) (token : Nat) : Session :=
  { s with permTable := s.permTable.filter fun p => p.reqToken != some token }

/-- The loop of `pj_turn_session_set_perm` with the number of attributes; `false` where there is one
too many. -/
def setPermLoop (token : Nat) (renew : Bool) (now : PjTimeVal) :
    List SockAddr → Nat → Session → Session × Bool
  | [], _, s => (s, true)
  | addr :: addrs, n, s =>
      let isNew := !(s.permTable.any fun p => p.addr == noPort addr && p.reqToken == some token)
      let s := { s with
        permTable := (lookupPerm s addr now).map fun p =>
          if p.addr = noPort addr then { p with renew := renew, reqToken := some token } else p }
      if isNew then
        if stunMaxAttr ≤ n then (s, false) else setPermLoop token renew now addrs (n + 1) s
      else setPermLoop token renew now addrs n s

/-- `pj_turn_session_set_perm`. -/
def turnSessionSetPerm (s : Session) (addrs : List SockAddr) (renew : Bool) (token : Nat)
    (now : PjTimeVal) : Session :=
  if s.sends.headD .sent = .notCreated then { s with sends := s.sends.tail }
  else
    let r := setPermLoop token renew now addrs 0 s
    if r.2 then
      let m := r.1.sendMsg (.createPerm token)
      if m.2 = .sent then m.1 else m.1.invalidatePerms token
    else { r.1 with sends := r.1.sends.tail }.invalidatePerms token

/-- `lookup_ch_by_addr` with `update`. -/
def lookupChByAddr (s : Session) (addr : SockAddr) (now : PjTimeVal) : Session :=
  let table := if s.chTable.any fun c => c.addr == addr then s.chTable
    else s.chTable ++ [⟨invalidChannel, false, addr, now⟩]
  { s with
    chTable := table.map fun c => if c.addr = addr then { c with expiry := s.permExpiry now } else c
    permTable := lookupPerm s addr now }

/-- The channel number of `pj_turn_session_bind_channel`: the number of the channel, or the next
one; `false` where there is none. -/
def Session.numberChannel (s : Session) (addr : SockAddr) : Session × Bool :=
  if s.chTable.any fun c => c.addr == addr && c.num != invalidChannel then (s, true)
  else if channelMax < s.nextCh then (s, false)
  else
    ({ s with
      chTable := s.chTable.map fun c => if c.addr = addr then { c with num := s.nextCh } else c
      nextCh := s.nextCh + 1 }, true)

/-- `pj_turn_session_bind_channel`. -/
def turnSessionBindChannel (s : Session) (peer : SockAddr) (now : PjTimeVal) : Session :=
  if s.state ≠ .ready then s
  else if s.sends.headD .sent = .notCreated then { s with sends := s.sends.tail }
  else
    let r := (lookupChByAddr s peer now).numberChannel peer
    if r.2 then (r.1.sendMsg (.channelBind peer)).1 else { r.1 with sends := r.1.sends.tail }

/-- The loop of `refresh_permissions`: the permissions after it, and the number of attributes, or
`none` where it gives up. -/
def refreshPermLoop (created : Bool) (token : Nat) (expiry now : PjTimeVal) :
    List Perm → Nat → List Perm × Option Nat
  | [], n => ([], some n)
  | p :: perms, n =>
      if p.expiry.sec - 1 ≤ now.sec then
        if p.renew then
          if created = false ∨ stunMaxAttr ≤ n then (p :: perms, none)
          else
            let r := refreshPermLoop created token expiry now perms (n + 1)
            ({ p with expiry := expiry, reqToken := some token } :: r.1, r.2)
        else refreshPermLoop created token expiry now perms n
      else
        let r := refreshPermLoop created token expiry now perms n
        (p :: r.1, r.2)

/-- `refresh_permissions`: a request is sent when there is a permission to renew. -/
def refreshPermissions (s : Session) (token : Nat) (now : PjTimeVal) : Session × Bool :=
  let r := refreshPermLoop (s.sends.headD .sent != .notCreated) token (s.permExpiry now) now
    s.permTable 0
  let s := { s with permTable := r.1 }
  match r.2 with
  | none => ({ s with sends := s.sends.tail }, false)
  | some 0 => (s, false)
  | some (_ + 1) =>
      let m := s.sendMsg (.createPerm token)
      (m.1, m.2 == .sent)

/-! ## Responses -/

/-- `on_session_fail`; `allocate` is the method. The next server of the list is tried, if there is
one. -/
def onSessionFail (s : Session) (allocate : Bool) (status : Status) : Session :=
  let s := { s with lastStatus := status }
  if allocate = false ∨ s.srvAddr.map (· + 1) = some s.srvAddrList.length then
    sessShutdown (s.setState .deallocated) status
  else { s with srvAddr := s.srvAddr.map (· + 1) }.setState .resolved

/-- `ka_interval` and `expiry` for a lifetime above two seconds. The timeout is a signed integer. -/
def Session.updateLifetime (s : Session) (lifetime : UInt32) (now : PjTimeVal) : Session :=
  if lifetime.toNat < keepAliveSec then
    { s with
      kaInterval := lifetime.toNat - 2
      expiry := addSec now (lifetime.toNat - 2 - 1) }
  else
    let timeout : Int := Int.bmod (lifetime.toNat - refreshSecBefore) 4294967296
    { s with
      kaInterval := keepAliveSec
      expiry := addSec now (if timeout < keepAliveSec then (keepAliveSec - 1 : Int) else timeout) }

/-- The checks of the relayed address in `on_allocate_success`. -/
def relayedAddrOk (s : Session) (allocate : Bool) : Option SockAddr → Bool
  | none => !allocate
  | some addr => ofFamily s.ipv6 addr && hasAddr addr &&
      match s.relayAddr with
      | some relay => !hasAddr relay || decide (relay = addr)
      | none => true

/-- The end of `on_allocate_success`: the timer, and `PJ_TURN_STATE_READY`. -/
def Session.startKeepAlive (s : Session) : Session :=
  let s := { s with assertFailed := s.assertFailed || s.timer.id == timerDestroy }
  let s := if s.timer.id = timerKeepAlive then
    { s with timer := s.timer.cancelIfActive timerNone } else s
  if s.state.beforeDeallocating then
    { s with timer := (s.timer.schedule timerKeepAlive).1 }.setState .ready
  else s

/-- `on_allocate_success`. -/
def onAllocateSuccess (s : Session) (allocate : Bool) (msg : Response) (now : PjTimeVal) :
    Session :=
  match msg.lifetime with
  | none => onSessionFail s allocate .einstunmsg
  | some lifetime =>
      if lifetime = 0 then sessShutdown (s.setState .deallocated) .success
      else
        let s := { s with lifetime := lifetime, expiry := now }
        if lifetime.toNat ≤ 2 then onSessionFail s allocate .etoosmall
        else
          let s := s.updateLifetime lifetime now
          if relayedAddrOk s allocate msg.relayedAddr then
            { s with
              relayAddr := if s.relayAddr.any hasAddr then s.relayAddr
                else msg.relayedAddr.or s.relayAddr
              mappedAddr := msg.mappedAddr.or s.mappedAddr }.startKeepAlive
          else onSessionFail s allocate .einstunmsg

/-- `handle_auth_challenge`: what becomes of a response under long term authentication. -/
inductive AuthAction where
  | notify
  | dropped
  | retry (nonce : List UInt8)
  deriving DecidableEq

/-- The decision of `handle_auth_challenge`. -/
def authAction (s : Session) : Completion → AuthAction
  | .noResponse _ => .notify
  | .response r =>
      if s.longTerm = false ∨ r.success then .notify
      else
        match r.errCode with
        | none => .dropped
        | some code =>
            if code = 401 ∨ code = 438 then
              match r.nonce with
              | none => .dropped
              | some nonce =>
                  if nonce = s.nextNonce ∨ 3 ≤ s.authRetry ∨ s.sends.headD .sent = .notCreated then
                    .notify
                  else .retry nonce
            else .notify

/-- `auth_retry`. -/
def countAuthRetry (s : Session) : Completion → Nat
  | .noResponse _ => s.authRetry
  | .response r =>
      if s.longTerm = false then s.authRetry
      else if r.success then 0
      else
        match r.errCode, r.nonce with
        | none, _ => s.authRetry
        | some code, some nonce =>
            if code = 401 ∨ code = 438 then
              if nonce = s.nextNonce then s.authRetry else s.authRetry + 1
            else 0
        | some code, none => if code = 401 ∨ code = 438 then s.authRetry else 0

/-- A failed ChannelBind or CreatePermission request: an allocation that is no longer there. -/
def Session.checkMismatch (s : Session) (c : Completion) : Session :=
  if c.errCode = some scAllocationMismatch then onSessionFail s false c.status else s

/-- `stun_on_request_complete`. -/
def stunOnRequestComplete (s : Session) (req : Request) (c : Completion) (now : PjTimeVal) :
    Session :=
  match req with
  | .allocate =>
      if s.pendingDestroy then
        -- Only the status is looked at: an error response without an ERROR-CODE counts as a success.
        sessShutdown (s.setState (if c.status = .success then .ready else .deallocated)) .success
      else
        match c.accepted with
        | some response => onAllocateSuccess s true response now
        | none => onSessionFail s true (if c.status = .success then .einstunmsg else c.status)
  | .refresh _ =>
      match c.accepted with
      | some response => onAllocateSuccess s false response now
      -- `pj_assert(status != PJ_SUCCESS)`, here and below, is taken as it is with `NDEBUG`.
      | none => onSessionFail s false c.status
  | .channelBind peer =>
      match c.accepted with
      | some _ =>
          let s := { s with
            chTable := s.chTable.map fun ch => if ch.addr = peer then { ch with bound := true } else ch }
          lookupChByAddr s peer now
      | none => s.checkMismatch c
  | .createPerm token =>
      match c.accepted with
      | some _ => s
      | none => (s.invalidatePerms token).checkMismatch c

/-- `stun_tsx_on_complete` of a request that is outstanding. -/
def stunTsxOnComplete (s : Session) (req : Request) (c : Completion) (now : PjTimeVal) : Session :=
  let action := authAction s c
  let s := { s with authRetry := countAuthRetry s c, pending := s.pending.erase req }
  match action with
  | .dropped => s
  | .retry nonce => ({ s with nextNonce := nonce }.sendMsg req).1
  | .notify => stunOnRequestComplete s req c now

/-! ## The timer -/

/-- The channels that are renewed. -/
def refreshChannels (now : PjTimeVal) : List Channel → Session → Session
  | [], s => s
  | c :: channels, s =>
      if c.bound && c.expiry.lte now then
        refreshChannels now channels (turnSessionBindChannel s c.addr now)
      else refreshChannels now channels s

/-- The keep-alive timer in `on_timer_event`. The blank indication that keeps the binding of a NAT
changes nothing. -/
def onKeepAlive (s : Session) (token : Nat) (now : PjTimeVal) : Session :=
  if s.state.beforeDeallocating then
    let due := s.expiry.lte now
    let s := if due then
      sendRefresh s (if s.allocParam.lifetime = 0 then -1 else s.allocParam.lifetime) else s
    let s := refreshChannels now s.chTable s
    let s := (refreshPermissions s token now).1
    if due then s else { s with timer := (s.timer.schedule timerKeepAlive).1 }
  else s

/-- `on_timer_event`. -/
def onTimerEvent (s : Session) (token : Nat) (now : PjTimeVal) : Session :=
  let eid := s.timer.id
  let s := { s with timer := { s.timer.fired with id := timerNone } }
  if eid = timerKeepAlive then onKeepAlive s token now
  else if eid = timerDestroy then doDestroy { s with destroyEvents := s.destroyEvents + 1 }
  else s

/-! ## The session as a machine -/

/-- What happens to a session. -/
inductive Event where
  | setCredential
  | setServer (server : Server)
  | alloc (param : Option AllocParam)
  | setPerm (addrs : List SockAddr) (renew : Bool) (token : Nat) (now : PjTimeVal)
  | bindChannel (peer : SockAddr) (now : PjTimeVal)
  | shutdown
  | destroy (lastErr : Status)
  | dnsResult (record : Option SrvRecord)
  | timer (token : Nat) (now : PjTimeVal)
  /-- The end of a request, or a response to it that is discarded. -/
  | complete (req : Request) (c : Completion) (now : PjTimeVal)

/-- An event that cannot happen, or the use of a server that is not set. -/
inductive SessionFault where
  | notEnabled
  | noServer
  deriving DecidableEq

/-- An event in a session. -/
def Session.take (s : Session) : Event → Except SessionFault Session
  | .setCredential => .ok { s with longTerm := true }
  | .setServer server => .ok (turnSessionSetServer s server)
  | .alloc param => .ok (turnSessionAlloc s param)
  | .setPerm addrs renew token now =>
      if s.srvAddr = none then .error .noServer
      else .ok (turnSessionSetPerm s addrs renew token now)
  | .bindChannel peer now => .ok (turnSessionBindChannel s peer now)
  | .shutdown => .ok (sessShutdown s .success)
  | .destroy lastErr => .ok (turnSessionDestroy s lastErr)
  | .dnsResult record =>
      if s.dnsPending then .ok (dnsSrvResolverCb { s with dnsPending := false } record)
      else .error .notEnabled
  | .timer token now =>
      if s.timer.running then .ok (onTimerEvent s token now) else .error .notEnabled
  | .complete req c now =>
      if req ∈ s.pending then .ok (if c.discarded then s else stunTsxOnComplete s req c now)
      else .error .notEnabled

/-- A step: what happens, and what sending comes to meanwhile. -/
def turnStep (s : Session) (e : Event × List Sending) : Except SessionFault Session :=
  { s with sends := e.2 }.take e.1

end Turn
