import PjProject.Library.MachineInt
import PjProject.Library.Run
import PjProject.Timer.Calls

set_option autoImplicit false

/-! # The ICE session

`pj_ice_sess` of `pjnath/src/pjnath/ice_session.c`: candidates are paired to a checklist, a STUN
Binding request is sent for every pair, and the pairs that answer form the valid list, from which
one pair for each component is nominated.

A pointer to a candidate or to a check is its index in the array. The remote candidates are the
whole array, of which the first `rcandCnt` are in use. As in a build without assertions the code
goes on where a `pj_assert` is false, unless it then uses a component that is not there or a NULL
pointer, or writes behind the end of an array: this is a `Fault`. A request for a component that is
not there is a `Fault` too, although `handle_incoming_check` goes on for some time without it. The
number of components is not bounded by `PJ_ICE_MAX_COMP`, the transport's number not by 8 bits, and
the responses of the agent, with `pj_stun_session_create_res`, always succeed.

`pending` are the STUN transactions that have not completed. `sent`, `conflicts`, `completions` and
`reopened` are records for the proofs: all requests sent, the requests answered with 487, what the
session looked like when ICE was completed, and whether the assertion of `check_set_state` has been
false. What becomes of a request when it is to be sent is up to the `Env`.
-/

namespace Ice

open MachineInt Timer

/-! ## The data model -/

/-- `PJ_ICE_MAX_CAND`. -/
def maxCand : Nat := 16

/-- `PJ_ICE_MAX_CHECKS`. -/
def maxChecks : Nat := 32

/-- A transport address. -/
structure Addr where
  ipv6 : Bool
  ip : Nat
  port : Nat
  deriving DecidableEq, Inhabited

/-- `pj_ice_cand_type`. -/
inductive CandType where
  | host
  | srflx
  | prflx
  | relayed
  deriving DecidableEq, Inhabited

/-- `pj_ice_sess_cand`. -/
structure Cand where
  compId : Nat
  transportId : Nat
  type : CandType
  foundation : List UInt8
  prio : Nat
  addr : Addr
  baseAddr : Addr
  deriving DecidableEq, Inhabited

/-- `pj_ice_sess_check_state`. -/
inductive CheckState where
  | frozen
  | waiting
  | inProgress
  | succeeded
  | failed
  deriving DecidableEq, Inhabited

/-- `state >= PJ_ICE_SESS_CHECK_STATE_SUCCEEDED`. -/
def CheckState.done : CheckState → Bool
  | .succeeded => true
  | .failed => true
  | _ => false

/-- `state < PJ_ICE_SESS_CHECK_STATE_IN_PROGRESS`. -/
def CheckState.idle : CheckState → Bool
  | .frozen => true
  | .waiting => true
  | _ => false

/-- The status of a check or of the session. -/
inductive IceStatus where
  | success
  | ecancelled
  | eicefailed
  | eicenomtimeout
  | eiceinsrcaddr
  | estunnomappedaddr
  | etoomany
  | other
  deriving DecidableEq, Inhabited

/-- `pj_ice_sess_check`. -/
structure Check where
  lcand : Nat
  rcand : Nat
  prio : Nat
  state : CheckState
  nominated : Bool
  errCode : IceStatus
  tdata : Option Nat
  deriving DecidableEq, Inhabited

/-- `pj_ice_sess_comp`: its pointers into the valid list. -/
structure Comp where
  validCheck : Option Nat
  nominatedCheck : Option Nat
  deriving DecidableEq, Inhabited

/-- `pj_ice_sess_role`. -/
inductive Role where
  | unknown
  | controlled
  | controlling
  deriving DecidableEq, Inhabited

/-- The role attribute of a request: `ICE-CONTROLLING` or `ICE-CONTROLLED`, and the tie-breaker. -/
structure RoleAttr where
  controlling : Bool
  tieBreaker : Nat
  deriving DecidableEq, Inhabited

/-- A request that has been sent: its number, the check it was sent for and its role attribute. -/
structure Request where
  id : Nat
  ckid : Nat
  compId : Nat
  transportId : Nat
  roleAttr : RoleAttr
  deriving DecidableEq, Inhabited

/-- `pj_ice_rx_check`. Its `role_attr` is not read. -/
structure RxCheck where
  compId : Nat
  transportId : Nat
  srcAddr : Addr
  useCandidate : Bool
  priority : Nat
  deriving DecidableEq, Inhabited

/-- What a session looks like when ICE is completed with `status`. -/
structure Snapshot where
  status : IceStatus
  role : Role
  isNominating : Bool
  comp : List Comp
  lcand : List Cand
  clist : List Check
  validList : List Check
  deriving DecidableEq

/-- `pj_ice_sess`. `wantNom` says whether `controlled_agent_want_nom_timeout` is not negative. -/
structure Sess where
  role : Role
  tieBreaker : Nat
  aggressive : Bool
  wantNom : Bool
  comp : List Comp
  lcand : List Cand
  rcand : List Cand
  rcandCnt : Nat
  clist : List Check
  clistTimer : Entry
  validList : List Check
  isNominating : Bool
  isComplete : Bool
  iceStatus : IceStatus
  timer : Entry
  compKa : Nat
  earlyCheck : List RxCheck
  pending : List Request
  nextId : Nat
  sent : List Request
  conflicts : List Nat
  completions : List Snapshot
  reopened : Bool
  deriving DecidableEq

/-- What becomes of a request: `notCreated` and `notSent` are failures of
`pj_stun_session_create_req` and of `pj_stun_session_send_msg`. `PJ_EPENDING` is not
among the results: `ice_tx_pkt` of `ice_strans.c` makes a success of it. -/
inductive SendResult where
  | sent
  | notCreated
  | notSent
  deriving DecidableEq

/-- The surroundings of a session: what becomes of the request number `n`, the foundation that
`pj_ice_calc_foundation` gives to a local peer reflexive candidate and the random one of a remote
one. -/
structure Env where
  sends : Nat → SendResult
  foundation : Addr → List UInt8
  remoteFoundation : Nat → List UInt8

/-- How an operation can go wrong. -/
inductive Fault where
  | noComponent
  | nullPointer
  | overflow
  deriving DecidableEq

/-! ## Timers -/

def timerNone : Int := 0
def timerCompletionCallback : Int := 1
def timerControlledWaitNom : Int := 2
def timerStartNominatedCheck : Int := 3
def timerKeepAlive : Int := 4

/-- `pj_timer_heap_schedule_w_grp_lock` of `ice->timer`; the status is ignored. -/
def Sess.scheduleTimer (s : Sess) (id : Int) : Sess := { s with timer := (s.timer.schedule id).1 }

/-- `pj_timer_heap_cancel_if_active` of `ice->timer`. -/
def Sess.cancelTimer (s : Sess) : Sess := { s with timer := s.timer.cancelIfActive timerNone }

/-- The checklist's timer is set anew. -/
def Sess.scheduleClist (s : Sess) : Sess := { s with clistTimer := (s.clistTimer.schedule 1).1 }

/-! ## Candidates and checks -/

/-- `check->lcand`. -/
def Sess.lcandOf (s : Sess) (c : Check) : Cand := s.lcand.getD c.lcand default

/-- `check->rcand`. -/
def Sess.rcandOf (s : Sess) (c : Check) : Cand := s.rcand.getD c.rcand default

/-- `find_comp`. -/
def Sess.findComp (s : Sess) (compId : Nat) : Except Fault Comp :=
  match compId with
  | 0 => .error .noComponent
  | i + 1 =>
      match s.comp[i]? with
      | none => .error .noComponent
      | some c => .ok c

/-- `cand_type_prefs`. -/
def candTypePref : CandType → Nat
  | .host => 126
  | .srflx => 100
  | .prflx => 110
  | .relayed => 0

/-- `CALC_CAND_PRIO`. -/
def calcCandPrio (type : CandType) (localPref compId : Nat) : Nat :=
  candTypePref type * 16777216 + localPref % 65536 * 256 + (256 - compId) % 256

/-- `CALC_CHECK_PRIO`, as a number of 64 bits. -/
def Sess.calcCheckPrio (s : Sess) (lcand rcand : Cand) : Nat :=
  let o := if s.role = .controlling then lcand.prio else rcand.prio
  let a := if s.role = .controlling then rcand.prio else lcand.prio
  min o a * 4294967296 + (max o a * 2 + if o > a then 1 else 0) % 4294967296

/-- `pj_ice_sess_add_cand`: the new session and the status with the candidate's index. -/
def addCand (s : Sess) (compId transportId : Nat) (type : CandType) (localPref : Nat)
    (foundation : List UInt8) (addr baseAddr : Addr) : Sess × Except IceStatus Nat :=
  if compId = 0 ∨ s.comp.length < compId then (s, .error .other)
  else if maxCand ≤ s.lcand.length then (s, .error .etoomany)
  else
    ({ s with lcand := s.lcand ++ [⟨compId, transportId, type, foundation,
        calcCandPrio type localPref compId, addr, baseAddr⟩] }, .ok s.lcand.length)

/-- `ice->rcand[ice->rcand_cnt++] = cand`. -/
def Sess.addRcand (s : Sess) (cand : Cand) : Sess :=
  { s with rcand := s.rcand.take s.rcandCnt ++ [cand] ++ s.rcand.drop (s.rcandCnt + 1)
           rcandCnt := s.rcandCnt + 1 }

/-- A check of the checklist is changed. -/
def Sess.modifyCheck (s : Sess) (ckid : Nat) (f : Check → Check) : Sess :=
  { s with clist := s.clist.modify ckid f }

/-- The state of a check is changed. -/
def Check.setState (c : Check) (st : CheckState) (err : IceStatus) : Check :=
  { c with state := st, errCode := err }

/-- `check_set_state` of a check of the checklist. -/
def Sess.checkSetState (s : Sess) (ckid : Nat) (st : CheckState) (err : IceStatus) : Sess :=
  { s.modifyCheck ckid (·.setState st err) with
    reopened := s.reopened || (s.clist.getD ckid default).state.done }

/-! ## Sorting -/

/-- The index of the first check with the highest priority among those from `i` on. -/
def highestFrom (l : List Check) (i : Nat) : Nat :=
  (List.range' (i + 1) (l.length - (i + 1))).foldl
    (fun h j => if (l.getD j default).prio > (l.getD h default).prio then j else h) i

/-- Two checks change places. -/
def swapChecks (l : List Check) (i j : Nat) : List Check :=
  (l.set i (l.getD j default)).set j (l.getD i default)

/-- A pointer into the list follows its check. -/
def swapPtr (i j : Nat) (p : Option Nat) : Option Nat :=
  if p = some j then some i else if p = some i then some j else p

/-- The loop of `sort_checklist` from the position `i` on, for the list that the pointers of the
components point into. -/
def sortLoop : Nat → Nat → List Check × List Comp → List Check × List Comp
  | 0, _, r => r
  | fuel + 1, i, r =>
      let highest := highestFrom r.1 i
      if highest ≠ i then
        sortLoop fuel (i + 1) (swapChecks r.1 i highest, r.2.map fun c =>
          ⟨swapPtr i highest c.validCheck, swapPtr i highest c.nominatedCheck⟩)
      else sortLoop fuel (i + 1) r

/-- `sort_checklist` of the valid list. -/
def Sess.sortValidList (s : Sess) : Sess :=
  let r := sortLoop (s.validList.length - 1) 0 (s.validList, s.comp)
  { s with validList := r.1, comp := r.2 }

/-- `sort_checklist` of the checklist, into which no pointer points. -/
def Sess.sortClist (s : Sess) : Sess :=
  { s with clist := (sortLoop (s.clist.length - 1) 0 (s.clist, [])).1 }

/-! ## Requests -/

/-- `perform_check`: the session and whether the check was started. -/
def performCheck (env : Env) (s : Sess) (ckid : Nat) (nominate : Bool) :
    Except Fault (Sess × Bool) :=
  match s.clist[ckid]? with
  | none => .error .overflow
  | some check => do
      let lcand := s.lcandOf check
      let _ ← s.findComp lcand.compId
      let id := s.nextId
      let s := { s with nextId := id + 1 }
      if env.sends id = .notCreated then return (s, false)
      else
        let controlling := s.role = .controlling
        let s := s.modifyCheck ckid fun c =>
          { c with nominated := c.nominated || (decide controlling && nominate) }
        if env.sends id = .notSent then
          return (s.modifyCheck ckid fun c => { c with tdata := none }, false)
        else
          let req : Request := ⟨id, ckid, lcand.compId, lcand.transportId,
            ⟨decide controlling, s.tieBreaker⟩⟩
          let s := { s with pending := s.pending ++ [req], sent := s.sent ++ [req] }
          let s := s.modifyCheck ckid fun c => { c with tdata := some id }
          return (s.checkSetState ckid .inProgress .success, true)

/-! ## Completion -/

/-- The session as it is now. -/
def Sess.snapshot (s : Sess) (status : IceStatus) : Snapshot :=
  ⟨status, s.role, s.isNominating, s.comp, s.lcand, s.clist, s.validList⟩

/-- `on_ice_complete`. -/
def onIceComplete (s : Sess) (status : IceStatus) : Sess :=
  if s.isComplete then s
  else
    let s := { s with
      isComplete := true
      iceStatus := status
      completions := s.completions ++ [s.snapshot status] }
    s.cancelTimer.scheduleTimer timerCompletionCallback

/-- The part of `ice_keep_alive` that sends: the Binding Indication goes to the nominated pair of
the component whose turn it is. -/
def sendIndication (s : Sess) (sendNow : Bool) : Except Fault Sess :=
  if sendNow then
    match (s.comp[s.compKa]?).bind (·.nominatedCheck) with
    | none => .error .nullPointer
    | some _ => .ok { s with compKa := (s.compKa + 1) % s.comp.length }
  else .ok s

/-- `ice_keep_alive`. -/
def iceKeepAlive (s : Sess) (sendNow : Bool) : Except Fault Sess := do
  let s ← sendIndication s sendNow
  return if s.timer.id = timerNone then s.scheduleTimer timerKeepAlive else s

/-- The better of the check at `k` and the one that the pointer points at. -/
def betterPtr (l : List Check) (p : Option Nat) (k : Nat) : Option Nat :=
  match p with
  | none => some k
  | some j => if (l.getD j default).prio < (l.getD k default).prio then some k else some j

/-- `update_comp_check` for the check at `k` of the valid list. -/
def updateCompCheck (s : Sess) (compId k : Nat) : Except Fault Sess := do
  let _ ← s.findComp compId
  let nominated := (s.validList.getD k default).nominated
  return { s with comp := s.comp.modify (compId - 1) fun c =>
    ⟨betterPtr s.validList c.validCheck k,
     if nominated then betterPtr s.validList c.nominatedCheck k else c.nominatedCheck⟩ }

/-- The check that `start_nominated_check` starts again for the valid check `vc`. -/
def Sess.nominatedTarget (s : Sess) (vc : Check) : Option Nat :=
  s.clist.findIdx? fun c =>
    (s.lcandOf c).transportId == (s.lcandOf vc).transportId && c.rcand == vc.rcand

/-- The loop of `start_nominated_check` over the components. -/
def nominateLoop : List Comp → Sess → Except Fault Sess
  | [], s => .ok s
  | c :: l, s =>
      match c.validCheck with
      | none => .error .nullPointer
      | some k =>
          match s.nominatedTarget (s.validList.getD k default) with
          | none => nominateLoop l s
          -- The state is set to FROZEN first, and then by `check_set_state`.
          | some j => nominateLoop l ((s.modifyCheck j fun c =>
              { c with state := .frozen }).checkSetState j .waiting .success)

/-- `start_nominated_check`. -/
def startNominatedCheck (s : Sess) : Except Fault Sess := do
  let s := if s.timer.id = timerStartNominatedCheck then s.cancelTimer else s
  let s ← nominateLoop s.comp s
  let s := { s with clistTimer := s.clistTimer.cancelIfActive 0 }.scheduleClist
  return { s with isNominating := true }

/-- Section 7.1.2.2.2 in `on_check_complete`: the frozen checks with the foundation of the check
that succeeded wait. -/
def Sess.unfreeze (s : Sess) (check : Check) : Sess :=
  { s with clist := s.clist.map fun c =>
      if (s.lcandOf c).foundation = (s.lcandOf check).foundation ∧ c.state = .frozen then
        c.setState .waiting .success
      else c }

/-- Section 8.2 in `on_check_complete`: the check of a nominated pair ends the other checks of its
component. -/
def Sess.failOthers (s : Sess) (check : Check) : Sess :=
  let same := fun c => (s.lcandOf c).compId == (s.lcandOf check).compId
  let cancelled := fun c => same c && c.state == .inProgress && c.tdata.isSome
  let gone := (s.clist.filter cancelled).filterMap (·.tdata)
  { s with
    clist := s.clist.map fun c =>
      if same c && c.state.idle then c.setState .failed .ecancelled
      else if cancelled c then { c.setState .failed .ecancelled with tdata := none }
      else c
    pending := s.pending.filter fun r => !gone.contains r.id }

/-- Every component has a valid pair. -/
def Sess.allValid (s : Sess) : Bool := s.comp.all (·.validCheck.isSome)

/-- Every component has a nominated pair. -/
def Sess.allNominated (s : Sess) : Bool := s.comp.all (·.nominatedCheck.isSome)

/-- All checks of the checklist have completed. -/
def Sess.allDone (s : Sess) : Bool := s.clist.all (·.state.done)

/-- The part of `on_check_complete` for a checklist that has completed without a nominated pair for
every component. -/
def onAllDone (s : Sess) : Except Fault (Sess × Bool) :=
  if s.role = .controlled then
    if s.allValid = false then .ok (onIceComplete s .eicefailed, true)
    else if s.timer.id = timerNone ∧ s.wantNom = true then
      .ok (s.scheduleTimer timerControlledWaitNom, false)
    else .ok (s, false)
  else if s.isNominating then .ok (onIceComplete s .eicefailed, true)
  else if s.allValid = false then .ok (onIceComplete s .eicefailed, true)
  else do
    let s ← startNominatedCheck s
    return (s, false)

/-- The last part of `on_check_complete`. -/
def onMoreChecks (s : Sess) (check : Check) : Sess :=
  if check.errCode = .success ∧ s.role = .controlling ∧ s.isNominating = false ∧
      s.timer.id = timerNone ∧ s.allValid = true then
    s.cancelTimer.scheduleTimer timerStartNominatedCheck
  else s

/-- The two loops of `on_check_complete` over the checklist. -/
def Sess.updateStates (s : Sess) (check : Check) : Sess :=
  let s := if check.errCode = .success then s.unfreeze check else s
  if check.errCode = .success ∧ check.nominated = true then s.failOthers check else s

/-- `on_check_complete`: the session and whether ICE is complete. -/
def onCheckComplete (s : Sess) (ckid : Nat) : Except Fault (Sess × Bool) :=
  match s.clist[ckid]? with
  | none => .error .overflow
  | some check => do
      let _ ← s.findComp (s.lcandOf check).compId
      let s := s.updateStates check
      if s.allNominated then return (onIceComplete s .success, true)
      else if s.allDone then onAllDone s
      else return (onMoreChecks s check, false)

/-! ## The checklist -/

/-- `pj_ice_sess_create`. -/
def sessCreate (role : Role) (tieBreaker compCnt : Nat) (aggressive wantNom : Bool) : Sess where
  role := role
  tieBreaker := tieBreaker
  aggressive := aggressive
  wantNom := wantNom
  comp := List.replicate compCnt ⟨none, none⟩
  lcand := []
  rcand := []
  rcandCnt := 0
  clist := []
  clistTimer := .idle 0
  validList := []
  isNominating := false
  isComplete := false
  iceStatus := .success
  timer := .idle timerNone
  compKa := 0
  earlyCheck := []
  pending := []
  nextId := 0
  sent := []
  conflicts := []
  completions := []
  reopened := false

/-- A new check of the local candidate `i` and the remote candidate `j`. -/
def Sess.newCheck (s : Sess) (i j : Nat) (st : CheckState) (nominated : Bool) : Check :=
  ⟨i, j, s.calcCheckPrio (s.lcand.getD i default) (s.rcand.getD j default), st, nominated, .success,
    none⟩

/-- The pairs that may be checked: the same component and the same family of addresses. -/
def Sess.pairs (s : Sess) (i j : Nat) : Bool :=
  let l := s.lcand.getD i default
  let r := s.rcand.getD j default
  l.compId == r.compId && l.addr.ipv6 == r.addr.ipv6

/-- The loops of `pj_ice_sess_create_check_list` over the candidates, as a list of indices: the
checklist, and whether it was full before the last pair. -/
def generateChecks (s : Sess) : List (Nat × Nat) → List Check → List Check × Bool
  | [], clist => (clist, true)
  | (i, j) :: l, clist =>
      if maxChecks ≤ clist.length then (clist, false)
      else if s.pairs i j then generateChecks s l (clist ++ [s.newCheck i j .frozen false])
      else generateChecks s l clist

/-- The base of a server reflexive candidate: the first host candidate with its base address. -/
def Sess.findBase (s : Sess) (srflx : Cand) : Option Nat :=
  s.lcand.findIdx? fun host => host.type == .host && srflx.baseAddr == host.addr

/-- The first loop of `prune_checklist`: reflexive candidates are replaced by their bases. -/
def replaceSrflx (s : Sess) : List Check → List Check × Bool
  | [] => ([], true)
  | c :: l =>
      if (s.lcandOf c).type = .srflx then
        match s.findBase (s.lcandOf c) with
        | none => (c :: l, false)
        | some j =>
            let r := replaceSrflx s l
            ({ c with lcand := j } :: r.1, r.2)
      else
        let r := replaceSrflx s l
        (c :: r.1, r.2)

/-- A pair that is the same as one higher up. -/
def Sess.duplicate (s : Sess) (ci cj : Check) : Bool :=
  (ci.lcand == cj.lcand && ci.rcand == cj.rcand) ||
    (cj.rcand == ci.rcand && (s.lcandOf cj).baseAddr == (s.lcandOf ci).baseAddr)

/-- The second loop of `prune_checklist`; `fuel` is the number of checks. -/
def removeDuplicates (s : Sess) : Nat → List Check → List Check
  | fuel + 1, c :: l => c :: removeDuplicates s fuel (l.filter fun d => !s.duplicate c d)
  | _, l => l

/-- The components above `highest` are disabled, and their STUN sessions destroyed. -/
def Sess.disableComps (s : Sess) (highest : Nat) : Sess :=
  { s with comp := s.comp.take highest
           pending := s.pending.filter fun r => r.compId ≤ highest }

/-- The remote candidates that `pj_ice_sess_create_check_list` saves. -/
def Sess.usable (s : Sess) (rcand : List Cand) : List Cand :=
  rcand.filter fun c => c.compId != 0 && decide (c.compId ≤ s.comp.length)

/-- `pj_ice_sess_create_check_list`. -/
def createCheckList (s : Sess) (rcand : List Cand) : Sess :=
  if rcand = [] ∨ maxCand < rcand.length + s.rcandCnt then s
  else
    let keep := s.usable rcand
    let highestComp := (keep.map (·.compId)).foldl max 0
    let s := { s with rcand := keep ++ s.rcand.drop keep.length, rcandCnt := keep.length }
    let indices := (List.range s.lcand.length).flatMap fun i =>
      (List.range s.rcandCnt).map fun j => (i, j)
    let r := generateChecks s indices s.clist
    let s := { s with clist := r.1 }
    if !r.2 || s.clist.isEmpty then s
    else
      let s := s.sortClist
      let p := replaceSrflx s s.clist
      if !p.2 then { s with clist := p.1 }
      else
        let s := { s with clist := removeDuplicates s p.1.length p.1 }
        let s := s.disableComps highestComp
        -- The entry keeps its place in the timer heap, if it has one.
        { s with clistTimer := { s.clistTimer with id := 0 } }

/-- The first check of the checklist in the given state. -/
def Sess.firstIn (s : Sess) (st : CheckState) : Option Nat := s.clist.findIdx? (·.state == st)

/-- `start_periodic_check`. -/
def startPeriodicCheck (env : Env) (s : Sess) : Except Fault Sess :=
  let s := { s with clistTimer := { s.clistTimer with id := 0 } }
  match (s.firstIn .waiting).or (s.firstIn .frozen) with
  | none => .ok s
  | some i => do
      let r ← performCheck env s i s.isNominating
      return if r.2 then r.1.scheduleClist else r.1

/-! ## Incoming requests -/

/-- The remote candidate with the source address of a request. -/
def Sess.findRcand (s : Sess) (addr : Addr) : Option Nat :=
  (s.rcand.take s.rcandCnt).findIdx? fun c => c.addr == addr

/-- The remote candidate of a request, which may be a new one. -/
def rcandFor (env : Env) (s : Sess) (rcheck : RxCheck) : Option (Sess × Nat) :=
  match s.findRcand rcheck.srcAddr with
  | some i => some (s, i)
  | none =>
      if maxCand ≤ s.rcandCnt then none
      else some (s.addRcand ⟨rcheck.compId, 0, .prflx, env.remoteFoundation s.rcandCnt,
        rcheck.priority, rcheck.srcAddr, default⟩, s.rcandCnt)

/-- The local candidate of a request: that of the first check of the component and transport. -/
def Sess.lcandFor (s : Sess) (rcheck : RxCheck) : Option Nat :=
  (s.clist.find? fun c => (s.lcandOf c).compId == rcheck.compId &&
    (s.lcandOf c).transportId == rcheck.transportId).map (·.lcand)

/-- The loop of `handle_incoming_check` over the valid list from `j` on, for a request that
nominates the check `c`. -/
def nominateValid (c : Check) : Nat → Nat → Sess → Except Fault Sess
  | 0, _, s => .ok s
  | fuel + 1, j, s =>
      let vc := s.validList.getD j default
      if (s.lcandOf vc).transportId = (s.lcandOf c).transportId ∧ vc.rcand = c.rcand then do
        let s := { s with validList := s.validList.modify j fun v => { v with nominated := true } }
        let s ← updateCompCheck s (s.lcandOf vc).compId j
        nominateValid c fuel (j + 1) s
      else nominateValid c fuel (j + 1) s

/-- The request `rcheck` nominates the valid pairs of the check `c`, if it has `USE-CANDIDATE`. -/
def nominatePairs (s : Sess) (c : Check) (rcheck : RxCheck) : Except Fault Sess :=
  if rcheck.useCandidate then nominateValid c s.validList.length 0 s else .ok s

/-- A request for the check `i` of the checklist. -/
def triggeredCheck (env : Env) (s : Sess) (i : Nat) (rcheck : RxCheck) : Except Fault Sess := do
  let s := s.modifyCheck i fun c => { c with nominated := rcheck.useCandidate || c.nominated }
  let c := s.clist.getD i default
  match c.state with
  | .frozen => return (← performCheck env s i (c.nominated || s.isNominating)).1
  | .waiting => return (← performCheck env s i (c.nominated || s.isNominating)).1
  -- The request is retransmitted.
  | .inProgress => return s
  | .succeeded =>
      let s ← nominatePairs s c rcheck
      return (← onCheckComplete s i).1
  | .failed => return s

/-- `handle_incoming_check`. -/
def handleIncomingCheck (env : Env) (s : Sess) (rcheck : RxCheck) : Except Fault Sess := do
  let _ ← s.findComp rcheck.compId
  match rcandFor env s rcheck with
  | none => return s
  | some (s, rcand) =>
      match s.lcandFor rcheck with
      | none => return s
      | some lcand =>
          match s.clist.findIdx? fun c => c.lcand == lcand && c.rcand == rcand with
          | some i => triggeredCheck env s i rcheck
          | none =>
              if s.clist.length < maxChecks then
                let c := s.newCheck lcand rcand .waiting rcheck.useCandidate
                let s := { s with clist := s.clist ++ [c] }
                return (← performCheck env s (s.clist.length - 1) (c.nominated || s.isNominating)).1
              else return s

/-- The delayed triggered checks of `pj_ice_sess_start_check`. -/
def earlyChecks (env : Env) : List RxCheck → Sess → Except Fault Sess
  | [], s => .ok s
  | r :: l, s => do
      let s ← handleIncomingCheck env s r
      earlyChecks env l s

/-- The loop of `pj_ice_sess_start_check` over the checks behind the first one: of each foundation
of the component, the first check waits. -/
def startWaiting (s : Sess) (compId : Nat) : List (List UInt8) → List Check → List Check
  | _, [] => []
  | flist, c :: l =>
      let cand := s.lcandOf c
      if cand.compId = compId ∧ flist.contains cand.foundation = false then
        (if c.state = .frozen then c.setState .waiting .success else c) ::
          startWaiting s compId (flist ++ [cand.foundation]) l
      else c :: startWaiting s compId flist l

/-- `pj_ice_sess_start_check`. -/
def startCheck (env : Env) (s : Sess) : Except Fault Sess :=
  if s.clist = [] then .ok s
  else
    let s := if s.aggressive then { s with isNominating := true } else s
    match s.clist.findIdx? fun c => (s.lcandOf c).compId == 1 with
    | none => .ok s
    | some i => do
        let s := { s with clist := s.clist.take i ++ startWaiting s 1 [] (s.clist.drop i) }
        let s ← earlyChecks env s.earlyCheck s
        return { s with earlyCheck := [] }.scheduleClist

/-- An incoming Binding request: the component and the transport that receive it, its source
address, its number for the peer and its attributes. -/
structure RxRequest where
  id : Nat
  compId : Nat
  transportId : Nat
  srcAddr : Addr
  priority : Option Nat
  useCandidate : Bool
  roleAttr : Option RoleAttr
  deriving DecidableEq

/-- Section 7.2.1.1 in `on_stun_rx_request`: the new role, or the conflict is the other side's. -/
def resolveConflict (role : Role) (tieBreaker : Nat) : Option RoleAttr → Option Role
  | none => some role
  | some a =>
      match role, a.controlling with
      | .controlling, true => if tieBreaker < a.tieBreaker then some .controlled else none
      | .controlled, false => if tieBreaker < a.tieBreaker then none else some .controlling
      | _, _ => some role

/-- `on_stun_rx_request`. -/
def onStunRxRequest (env : Env) (s : Sess) (rq : RxRequest) : Except Fault Sess :=
  match rq.priority with
  | none => .ok s
  | some priority =>
      match resolveConflict s.role s.tieBreaker rq.roleAttr with
      | none => .ok { s with conflicts := s.conflicts ++ [rq.id] }
      | some role =>
          let s := { s with role := role }
          let rcheck : RxCheck := ⟨rq.compId, rq.transportId, rq.srcAddr, rq.useCandidate, priority⟩
          if s.rcandCnt = 0 then .ok { s with earlyCheck := s.earlyCheck ++ [rcheck] }
          else handleIncomingCheck env s rcheck

/-! ## Responses -/

/-- How a transaction completes: with a role conflict, another error or a timeout, or with a
success response from an address with the mapped address it has. -/
inductive TsxResult where
  | roleConflict
  | failed
  | response (srcAddr : Addr) (mapped : Option Addr)
  deriving DecidableEq

/-- The check fails. -/
def failCheck (s : Sess) (ckid : Nat) (err : IceStatus) : Except Fault Sess := do
  return (← onCheckComplete (s.checkSetState ckid .failed err) ckid).1

/-- The local candidate with the mapped address, which may be a new one. -/
def lcandForMapped (env : Env) (s : Sess) (check : Check) (transportId : Nat) (mapped : Addr) :
    Sess × Except IceStatus Nat :=
  match s.lcand.findIdx? fun c => mapped == c.addr with
  | some i => (s, .ok i)
  | none =>
      let l := s.lcandOf check
      addCand s l.compId transportId .prflx 65535 (env.foundation l.baseAddr) mapped l.baseAddr

/-- The pair in the valid list: its index and the valid list with the pair added, or with its
nomination renewed. -/
def addValid (s : Sess) (check : Check) (lcand : Nat) : Except Fault (Sess × Nat) :=
  match s.validList.findIdx? fun v => v.lcand == lcand && v.rcand == check.rcand with
  | some i =>
      .ok ({ s with validList := s.validList.modify i fun v =>
        { v with nominated := check.nominated } }, i)
  | none =>
      if maxChecks ≤ s.validList.length then .error .overflow
      else
        .ok ({ s with validList := s.validList ++
          [s.newCheck lcand check.rcand .succeeded check.nominated] }, s.validList.length)

/-- The end of `on_stun_request_complete`, for a pair that is valid. -/
def checkSucceeded (s : Sess) (ckid : Nat) (check : Check) (lcand : Nat) : Except Fault Sess := do
  let (s, k) ← addValid s check lcand
  let s ← updateCompCheck s (s.lcand.getD lcand default).compId k
  let s := s.sortValidList
  return (← onCheckComplete (s.checkSetState ckid .succeeded .success) ckid).1

/-- The role after a conflict that the request `attr` has met. -/
def conflictRole (attr : RoleAttr) : Role := if attr.controlling then .controlled else .controlling

/-- `on_stun_request_complete` for the check `ckid` and the request `req`. -/
def onStunRequestComplete (env : Env) (s : Sess) (req : Request) (result : TsxResult) :
    Except Fault Sess :=
  let s := { s with pending := s.pending.filter fun r => r.id != req.id }
  let s := s.modifyCheck req.ckid fun c => { c with tdata := none }
  match s.clist[req.ckid]? with
  | none => .error .overflow
  | some check =>
      match result with
      | .roleConflict => do
          let s := { s with role := conflictRole req.roleAttr }
          let s := s.checkSetState req.ckid .waiting .success
          return (← performCheck env s req.ckid (check.nominated || s.isNominating)).1
      | .failed => failCheck s req.ckid .other
      | .response srcAddr mapped =>
          if (s.rcandOf check).addr ≠ srcAddr then failCheck s req.ckid .eiceinsrcaddr
          else
            match mapped with
            | none => failCheck s req.ckid .estunnomappedaddr
            | some mapped =>
                let r := lcandForMapped env s check req.transportId mapped
                match r.2 with
                | .error e => failCheck r.1 req.ckid e
                | .ok lcand => checkSucceeded r.1 req.ckid check lcand

/-! ## Timers and runs -/

/-- `on_timer`. -/
def onTimer (s : Sess) : Except Fault Sess :=
  let type := s.timer.id
  let s := { s with timer := { s.timer.fired with id := timerNone } }
  if type = timerControlledWaitNom then .ok (onIceComplete s .eicenomtimeout)
  else if type = timerCompletionCallback then
    if s.iceStatus = .success then iceKeepAlive s false else .ok s
  else if type = timerStartNominatedCheck then startNominatedCheck s
  else if type = timerKeepAlive then iceKeepAlive s true
  else .ok s

/-- What can happen to a session. -/
inductive Op where
  | addCand (compId transportId : Nat) (type : CandType) (localPref : Nat)
      (foundation : List UInt8) (addr baseAddr : Addr)
  | createCheckList (rcand : List Cand)
  | startCheck
  | timer
  | periodicTimer
  | rxRequest (rq : RxRequest)
  | response (id : Nat) (result : TsxResult)
  deriving DecidableEq

/-- One step. A timer that is not scheduled does not fire, and a response without a transaction is
dropped. -/
def step (env : Env) (s : Sess) : Op → Except Fault Sess
  | .addCand compId transportId type localPref foundation addr baseAddr =>
      .ok (addCand s compId transportId type localPref foundation addr baseAddr).1
  | .createCheckList rcand => .ok (createCheckList s rcand)
  | .startCheck => startCheck env s
  | .timer => if s.timer.running then onTimer s else .ok s
  | .periodicTimer =>
      if s.clistTimer.running then
        startPeriodicCheck env { s with clistTimer := s.clistTimer.fired }
      else .ok s
  | .rxRequest rq => onStunRxRequest env s rq
  | .response id result =>
      match s.pending.find? fun r => r.id == id with
      | none => .ok s
      | some req => onStunRequestComplete env s req result

/-! ## Plain values -/

/-- Surroundings in which every request is sent. -/
def plainEnv : Env := ⟨fun _ => .sent, fun _ => [80], fun _ => [102]⟩

/-- A host candidate. -/
def plainCand (compId port : Nat) : Cand := ⟨compId, 0, .host, [72], 100, ⟨false, 1, port⟩, ⟨false, 1, port⟩⟩

end Ice
