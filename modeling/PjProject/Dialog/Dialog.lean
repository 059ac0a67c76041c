import PjProject.Library.MachineInt
import PjProject.Library.Run

set_option autoImplicit false

/-! # A SIP dialog

`pjsip/src/pjsip/sip_dialog.c`: how a `pjsip_dialog` is created, and what a request that is sent and a
request or a response that is received change of its sequence numbers, its remote tag, its route set
and its target. What the dialog usages and the transactions do is left out, but for the failure of
creating a transaction, which is given with the step.

URIs are compared by functions that are parameters. A `pj_int32_t` is kept as an `Int`.
-/

namespace Dlg

open MachineInt

/-! ## Messages -/

/-- `pjsip_method`. -/
inductive Method where
  | invite
  | cancel
  | ack
  | bye
  | register
  | options
  | subscribe
  | refer
  | notify
  | update
  | other (name : List UInt8)
  deriving DecidableEq

/-- `pjsip_method_creates_dialog`. -/
def Method.createsDialog : Method → Bool
  | .invite | .subscribe | .refer | .notify | .update => true
  | .cancel | .ack | .bye | .register | .options | .other _ => false

/-- The headers that are looked at. -/
inductive Hdr (Uri Route : Type) where
  | contact (uri : Option Uri)
  | recordRoute (route : Route)
  | other

variable {Uri Route : Type}

/-- The first Contact header of a message, as `pjsip_msg_find_hdr` finds it. -/
def findContact : List (Hdr Uri Route) → Option (Option Uri)
  | [] => none
  | .contact uri :: _ => some uri
  | _ :: hdrs => findContact hdrs

/-- The Record-Route headers of a message. -/
def recordRoutes : List (Hdr Uri Route) → List Route
  | [] => []
  | .recordRoute route :: hdrs => route :: recordRoutes hdrs
  | _ :: hdrs => recordRoutes hdrs

/-- A request. The method of its CSeq header is given with it. -/
structure Request (Uri Route : Type) where
  method : Method
  cseq : Int
  cseqMethod : Method
  fromTag : List UInt8
  hdrs : List (Hdr Uri Route)

/-- A response. `method` is that of its CSeq header. -/
structure Response (Uri Route : Type) where
  method : Method
  code : Nat
  toTag : List UInt8
  hdrs : List (Hdr Uri Route)

/-- `pj_tolower`. -/
def toLower (c : UInt8) : UInt8 := if 65 ≤ c && c ≤ 90 then c + 32 else c

/-- `pj_stricmp` finds no difference. -/
def tagEq (a b : List UInt8) : Bool := a.map toLower == b.map toLower

/-- What is known of URIs: whether one is of the scheme `sip` or `sips`, and whether `pjsip_uri_cmp`
finds no difference. -/
structure UriOps (Uri : Type) where
  isSip : Uri → Bool
  same : Uri → Uri → Bool

/-! ## The dialog -/

/-- `pjsip_role_e`. -/
inductive Role where
  | uac
  | uas
  deriving DecidableEq

/-- `pjsip_dialog_state`. -/
inductive State where
  | null
  | established
  deriving DecidableEq

/-- `pjsip_dialog`. The last three fields are not in the source: the requests that have been sent with
a transaction, those that have been given to the dialog usages, and the values that `remote.cseq` has
had. -/
structure Dialog (Uri Route : Type) where
  role : Role
  state : State
  uacHas2xx : Bool
  remoteTag : List UInt8
  remoteContact : Option Uri
  target : Uri
  routeSet : List Route
  routeSetFrozen : Bool
  localCseq : Int
  remoteCseq : Int
  sent : List (Method × Int)
  delivered : List (Method × Int)
  remoteCseqs : List Int

/-- The random first CSeq. -/
def firstCseq (rand : Nat) : Int := (rand % 32768 : Nat)

/-- `pjsip_dlg_create_uac`. -/
def pjsipDlgCreateUac (target : Uri) (rand : Nat) : Dialog Uri Route where
  role := .uac
  state := .null
  uacHas2xx := false
  remoteTag := []
  remoteContact := none
  target := target
  routeSet := []
  routeSetFrozen := false
  localCseq := firstCseq rand
  remoteCseq := -1
  sent := []
  delivered := []
  remoteCseqs := [-1]

/-- The loop of `pjsip_dlg_create_uas` over the Contact headers. -/
def sipContact (ops : UriOps Uri) : List (Hdr Uri Route) → Option Uri
  | [] => none
  | .contact (some uri) :: hdrs => if ops.isSip uri then some uri else sipContact ops hdrs
  | _ :: hdrs => sipContact ops hdrs

/-- `pjsip_dlg_create_uas`; `none` where there is no Contact header. -/
def pjsipDlgCreateUas (ops : UriOps Uri) (req : Request Uri Route) (rand : Nat) :
    Option (Dialog Uri Route) :=
  (sipContact ops req.hdrs).map fun contact =>
    { role := .uas
      state := .null
      uacHas2xx := false
      remoteTag := req.fromTag
      remoteContact := some contact
      target := contact
      routeSet := recordRoutes req.hdrs
      routeSetFrozen := true
      localCseq := firstCseq rand
      remoteCseq := req.cseq
      sent := []
      delivered := []
      remoteCseqs := [req.cseq] }

/-- `pjsip_dlg_fork`; `none` where the response is none that creates a dialog. -/
def pjsipDlgFork (firstDlg : Dialog Uri Route) (res : Response Uri Route) :
    Option (Dialog Uri Route) :=
  if ¬ (res.code / 100 = 1 ∧ res.code ≠ 100 ∨ res.code / 100 = 2) ∨ res.toTag = [] then none
  else
    match findContact res.hdrs with
    | none | some none => none
    | some (some uri) => some
        { role := .uac
          state := .established
          uacHas2xx := false
          remoteTag := res.toTag
          remoteContact := none
          target := uri
          routeSet := (recordRoutes res.hdrs).reverse
          routeSetFrozen := false
          localCseq := firstDlg.localCseq
          remoteCseq := -1
          sent := []
          delivered := []
          remoteCseqs := [-1] }

/-! ## Sending a request -/

/-- The method is neither ACK nor CANCEL. -/
def Method.counts (m : Method) : Bool := m != .ack && m != .cancel

/-- `pjsip_dlg_send_request` of a request with the CSeq number `cseq`; `tsxCreated` is the outcome of
`pjsip_tsx_create_uac`. -/
def pjsipDlgSendRequest (dlg : Dialog Uri Route) (method : Method) (cseq : Int)
    (tsxCreated : Bool) : Dialog Uri Route :=
  let cseq := if method ≠ .cancel ∧ method ≠ .ack then dlg.localCseq else cseq
  let dlg := if method ≠ .cancel ∧ method ≠ .ack then
    { dlg with localCseq := int32 (dlg.localCseq + 1) } else dlg
  if method ≠ .ack ∧ tsxCreated = false then dlg
  else { dlg with sent := dlg.sent ++ [(method, cseq)] }

/-! ## Receiving a request -/

/-- How a run can go wrong: a false assertion. -/
inductive DlgFault where
  | assertion
  deriving DecidableEq

/-- The target is that of the Contact header, if it is another one. -/
def Dialog.refreshTarget (ops : UriOps Uri) (dlg : Dialog Uri Route) (hdrs : List (Hdr Uri Route)) :
    Dialog Uri Route :=
  match findContact hdrs with
  | some (some uri) =>
      if dlg.remoteContact.any fun old => ops.same old uri then dlg
      else { dlg with remoteContact := some uri, target := uri }
  | _ => dlg

/-- `pjsip_dlg_on_rx_request`. `hasTsx`: there is a transaction already; `tsxCreated` is the outcome
of `pjsip_tsx_create_uas`. -/
def pjsipDlgOnRxRequest (ops : UriOps Uri) (dlg : Dialog Uri Route) (req : Request Uri Route)
    (hasTsx tsxCreated : Bool) : Except DlgFault (Dialog Uri Route) :=
  if req.cseq ≤ dlg.remoteCseq ∧ req.method ≠ .ack ∧ req.method ≠ .cancel then
    if hasTsx then .error .assertion else .ok dlg
  else
    let dlg := { dlg with
      remoteCseq := req.cseq
      remoteCseqs := dlg.remoteCseqs ++ [req.cseq]
      remoteTag := if dlg.remoteTag = [] then req.fromTag else dlg.remoteTag }
    if hasTsx = false ∧ req.method ≠ .ack ∧ tsxCreated = false then .ok dlg
    else
      let dlg := if req.cseqMethod.createsDialog then dlg.refreshTarget ops req.hdrs else dlg
      .ok { dlg with delivered := dlg.delivered ++ [(req.method, req.cseq)] }

/-! ## Receiving a response -/

/-- `dlg_update_routeset` for a response. -/
def dlgUpdateRouteset (dlg : Dialog Uri Route) (res : Response Uri Route) :
    Except DlgFault (Dialog Uri Route) :=
  if dlg.routeSetFrozen then .ok dlg
  else if res.method = .update then .ok dlg
  else if dlg.role ≠ .uac then .error .assertion
  else if 300 ≤ res.code then .ok dlg
  else
    .ok { dlg with
      routeSet := (recordRoutes res.hdrs).reverse
      routeSetFrozen := dlg.routeSetFrozen ||
        (res.method.createsDialog && res.code / 100 == 2) }

/-- The condition of the first block of `pjsip_dlg_on_rx_response`. -/
def establishes (dlg : Dialog Uri Route) (res : Response Uri Route) : Bool :=
  (dlg.state == .null && res.method.createsDialog && (decide (100 < res.code) &&
    decide (res.code < 300)) && res.toTag != []) ||
  (dlg.role == .uac && !dlg.uacHas2xx && decide (100 < res.code) && decide (res.code / 100 ≤ 2) &&
    res.method.createsDialog && !tagEq dlg.remoteTag res.toTag)

/-- The first block of `pjsip_dlg_on_rx_response`. -/
def establish (ops : UriOps Uri) (dlg : Dialog Uri Route) (res : Response Uri Route) :
    Except DlgFault (Dialog Uri Route) :=
  if establishes dlg res then do
    let dlg ← dlgUpdateRouteset { dlg with remoteTag := res.toTag } res
    let dlg := dlg.refreshTarget ops res.hdrs
    return { dlg with
      state := .established
      uacHas2xx := dlg.uacHas2xx || (dlg.role == .uac && res.code / 100 == 2) }
  else .ok dlg

/-- `pjsip_dlg_on_rx_response`, up to the dialog usages. -/
def pjsipDlgOnRxResponse (ops : UriOps Uri) (dlg : Dialog Uri Route) (res : Response Uri Route) :
    Except DlgFault (Dialog Uri Route) := do
  let dlg ← establish ops dlg res
  if res.method.createsDialog && res.code / 100 == 2 then
    let dlg ← dlgUpdateRouteset (dlg.refreshTarget ops res.hdrs) res
    return { dlg with uacHas2xx := dlg.uacHas2xx || dlg.role == .uac }
  else return dlg

/-! ## The dialog as a machine -/

/-- What happens to a dialog. -/
inductive Event (Uri Route : Type) where
  | sendRequest (method : Method) (cseq : Int) (tsxCreated : Bool)
  | rxRequest (req : Request Uri Route) (hasTsx tsxCreated : Bool)
  | rxResponse (res : Response Uri Route)

/-- A step of a dialog. -/
def step (ops : UriOps Uri) (dlg : Dialog Uri Route) :
    Event Uri Route → Except DlgFault (Dialog Uri Route)
  | .sendRequest method cseq tsxCreated => .ok (pjsipDlgSendRequest dlg method cseq tsxCreated)
  | .rxRequest req hasTsx tsxCreated => pjsipDlgOnRxRequest ops dlg req hasTsx tsxCreated
  | .rxResponse res => pjsipDlgOnRxResponse ops dlg res

/-- A dialog as it is created. The CSeq number of a dialog that is forked is a `pj_int32_t`. -/
inductive Created (ops : UriOps Uri) : Dialog Uri Route → Prop where
  | uac (target : Uri) (rand : Nat) : Created ops (pjsipDlgCreateUac target rand)
  | uas {req : Request Uri Route} {rand : Nat} {dlg : Dialog Uri Route} :
      pjsipDlgCreateUas ops req rand = some dlg → Created ops dlg
  | fork {firstDlg : Dialog Uri Route} {res : Response Uri Route} {dlg : Dialog Uri Route} :
      firstDlg.localCseq ≤ 2147483647 → pjsipDlgFork firstDlg res = some dlg → Created ops dlg

end Dlg
