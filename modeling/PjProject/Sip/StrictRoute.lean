import PjProject.Parser.Data
import PjProject.Library.Marked

set_option autoImplicit false

/-! # Strict routes

`pjsip_process_route_set`, `pjsip_restore_strict_route_set` and `pjsip_get_dest_info` of
`pjsip/src/pjsip/sip_util.c`. A request goes to its first Route header. If that has no `lr` parameter,
its URI becomes the Request-URI, the header is put aside, and the old Request-URI follows the last Route
header; the second function swaps them back.

The code tells the two URIs apart by their pointers, so a URI stands here with the place where it is.
Of a tx data there is the Request-URI, the headers and the header that has been put aside. The
assertion on the name of a transport is left out; without it the code goes on with "unspecified".
-/

namespace StrictRoute

open Sdp (Str stricmpEq)
open SipParser (SipUri Uri Param)

/-! ## Data -/

/-- A `pjsip_uri` in memory. -/
structure UriObj where
  addr : Nat
  uri : Uri
  deriving DecidableEq

/-- A `pjsip_uri*`, which can point to a `pjsip_name_addr` too. -/
inductive UriPtr where
  | uri (u : UriObj)
  | nameAddr (addr : Nat) (display : Str) (u : UriObj)
  deriving DecidableEq

/-- The pointer. -/
def UriPtr.addr : UriPtr → Nat
  | .uri u => u.addr
  | .nameAddr addr _ _ => addr

/-- `pjsip_uri_get_uri`. -/
def UriPtr.getUri : UriPtr → UriObj
  | .uri u => u
  | .nameAddr _ _ u => u

/-- `pjsip_route_hdr`: its name address, and `other_param`. -/
structure RouteHdr where
  display : Str
  uri : UriObj
  otherParam : List Param
  deriving DecidableEq

/-- A header of the request. -/
inductive Hdr where
  | route (hdr : RouteHdr)
  | other (hdr : Nat)
  deriving DecidableEq

/-- The Route header that it is, if its type is `PJSIP_H_ROUTE`. -/
def Hdr.route? : Hdr → Option RouteHdr
  | .route hdr => some hdr
  | .other _ => none

@[simp] theorem Hdr.route?_route (hdr : RouteHdr) : (Hdr.route hdr).route? = some hdr := rfl

/-- `pjsip_tx_data`. -/
structure TxData where
  reqUri : UriPtr
  hdrs : List Hdr
  savedStrictRoute : Option RouteHdr
  deriving DecidableEq

/-- The Route headers, in their order. -/
def TxData.routes (tdata : TxData) : List RouteHdr := tdata.hdrs.filterMap Hdr.route?

/-- An entry of `transport_names`, of which some are registered by the application. -/
structure TransportName where
  type : Nat
  name : Str
  flag : Nat
  deriving DecidableEq

/-- `transport_names`, and `pjsip_cfg()->endpt.disable_tls_switch`. -/
structure Config where
  transportNames : List TransportName
  disableTlsSwitch : Bool

/-- `pjsip_host_info`. -/
structure HostInfo where
  flag : Nat
  type : Nat
  host : Str
  port : Int
  deriving DecidableEq

/-- `pj_bzero` of it. -/
def HostInfo.zero : HostInfo := ⟨0, 0, [], 0⟩

/-- What a function returns. -/
inductive Status where
  | success
  /-- `PJSIP_ENOROUTESET`. -/
  | noRouteSet
  /-- A URI of another scheme is read as a SIP URI. -/
  | wildRead
  deriving DecidableEq

/-! ## The destination of a URI -/

/-- `PJSIP_TRANSPORT_SECURE | PJSIP_TRANSPORT_RELIABLE`. -/
def secureReliable : Nat := 3

/-- `PJSIP_TRANSPORT_IPV6`. -/
def transportIpv6 : Nat := 128

/-- `pjsip_transport_get_type_from_name`. -/
def Config.typeFromName (cfg : Config) (name : Str) : Nat :=
  if name.length = 0 then 0
  else ((cfg.transportNames.find? fun t => stricmpEq name t.name).map (·.type)).getD 0

/-- `pjsip_transport_get_type_from_flag`. -/
def Config.typeFromFlag (cfg : Config) (flag : Nat) : Nat :=
  ((cfg.transportNames.find? fun t => t.flag == flag).map (·.type)).getD 0

/-- `pjsip_transport_get_flag_from_type`, for a type that has an entry. -/
def Config.flagFromType (cfg : Config) (type : Nat) : Nat :=
  ((cfg.transportNames.find? fun t => t.type == type).map (·.flag)).getD 0

/-- `PJSIP_URI_SCHEME_IS_SIPS`. The parser of a URI with this scheme is that of SIP URIs. -/
def isSips : Uri → Bool
  | .sip url => url.secure
  | _ => false

/-- The host of a SIP URI, or its `maddr`. -/
def destHost (url : SipUri) : Str := if url.maddrParam.length ≠ 0 then url.maddrParam else url.host

/-- `pjsip_get_dest_info`, the IPv6 address. -/
def ipv6Type (dest : HostInfo) : HostInfo :=
  if dest.type ≠ 0 ∧ 58 ∈ dest.host then { dest with type := dest.type ||| transportIpv6 } else dest

/-- `pjsip_get_dest_info`. -/
def getDestInfo (cfg : Config) (target request : Uri) : Status × HostInfo :=
  if isSips target || (cfg.disableTlsSwitch == false && isSips request) then
    match target with
    | .sip url =>
        let type := cfg.typeFromName url.transportParam
        -- `sips:host;transport=tcp`
        let type :=
          if cfg.flagFromType type &&& secureReliable ≠ secureReliable then
            if cfg.typeFromFlag secureReliable ≠ 0 then cfg.typeFromFlag secureReliable else type
          else type
        (.success, ipv6Type ⟨secureReliable, type, destHost url, url.port⟩)
    | _ => (.wildRead, .zero)
  else
    match target with
    | .sip url =>
        let type := cfg.typeFromName url.transportParam
        (.success, ipv6Type ⟨cfg.flagFromType type, type, destHost url, url.port⟩)
    | _ => (.noRouteSet, .zero)

/-! ## Process and restore -/

/-- `pjsip_msg_find_hdr` for the first Route header, and the last one. -/
def firstRoute (hdrs : List Hdr) : Option RouteHdr := (hdrs.filterMap Hdr.route?).head?

def lastRoute (hdrs : List Hdr) : Option RouteHdr := (hdrs.filterMap Hdr.route?).getLast?

/-- `pjsip_restore_strict_route_set`. -/
def restoreStrictRouteSet (tdata : TxData) : TxData :=
  match tdata.savedStrictRoute with
  | none => tdata
  | some saved =>
      match lastRoute tdata.hdrs with
      | none => { tdata with savedStrictRoute := none }
      | some last =>
          { reqUri := .uri last.uri
            hdrs := Marked.eraseLast Hdr.route?
              (Marked.insertBeforeFirst Hdr.route? (.route saved) tdata.hdrs)
            savedStrictRoute := none }

/-- The first Route header is a loose route. -/
def hasLrParam : Uri → Bool
  | .sip url => url.lrParam
  | _ => false

/-- `pjsip_route_hdr_create`, with the Request-URI. -/
def routeTo (u : UriObj) : RouteHdr := ⟨[], u, []⟩

/-- `pjsip_process_route_set`, once a strict route has been restored. -/
def processRestored (cfg : Config) (tdata : TxData) : Status × TxData × HostInfo :=
  match firstRoute tdata.hdrs with
  | none =>
      let dest := getDestInfo cfg tdata.reqUri.getUri.uri tdata.reqUri.getUri.uri
      (dest.1, tdata, dest.2)
  | some route =>
      if hasLrParam route.uri.uri then
        let dest := getDestInfo cfg route.uri.uri tdata.reqUri.getUri.uri
        (dest.1, tdata, dest.2)
      else
        let tdata := { tdata with
          hdrs := Marked.eraseFirst Hdr.route? tdata.hdrs
          savedStrictRoute := some route }
        let dest := getDestInfo cfg route.uri.uri route.uri.uri
        if dest.1 ≠ .success then (dest.1, tdata, dest.2)
        else if route.uri.addr ≠ tdata.reqUri.addr then
          (.success, { tdata with
            reqUri := .uri route.uri
            hdrs := Marked.insertAfterLast Hdr.route? (.route (routeTo tdata.reqUri.getUri))
              tdata.hdrs }, dest.2)
        else (.success, tdata, dest.2)

/-- `pjsip_process_route_set`: the status, the request and the destination. Where a strict route was
saved and the request has no Route header any more, `pj_assert(!"Message route was modified?")` is false;
the saved route is then dropped, as in a build without assertions. -/
def processRouteSet (cfg : Config) (tdata : TxData) : Status × TxData × HostInfo :=
  processRestored cfg (if tdata.savedStrictRoute ≠ none then restoreStrictRouteSet tdata else tdata)

/-! ## What a strict route does -/

/-- A new request. -/
def request (reqUri : UriPtr) (hdrs : List Hdr) : TxData := ⟨reqUri, hdrs, none⟩

variable {cfg : Config} {reqUri : UriPtr} {hdrs : List Hdr} {route : RouteHdr}

theorem getDestInfo_sip (url : SipUri) (u : Uri) : (getDestInfo cfg (.sip url) u).1 = .success := by
  unfold getDestInfo
  split <;> rfl

theorem getDestInfo_other {u : Uri} (h : ∀ url, u ≠ .sip url) : (getDestInfo cfg u u).1 ≠ .success := by
  cases u with
  | sip url => exact absurd rfl (h url)
  | tel u => simp [getDestInfo, isSips]
  | other u => simp [getDestInfo, isSips]

/-- The Request-URI and the first Route header change places. -/
def swapped (reqUri : UriPtr) (hdrs : List Hdr) (route : RouteHdr) : TxData where
  reqUri := .uri route.uri
  hdrs := Marked.insertAfterLast Hdr.route? (.route (routeTo reqUri.getUri))
    (Marked.eraseFirst Hdr.route? hdrs)
  savedStrictRoute := some route

/-- The first Route header has been put aside, and nothing else done. -/
def halfway (reqUri : UriPtr) (hdrs : List Hdr) (route : RouteHdr) : TxData where
  reqUri := reqUri
  hdrs := Marked.eraseFirst Hdr.route? hdrs
  savedStrictRoute := some route

theorem processRestored_swapped (hfirst : firstRoute hdrs = some route)
    (hlr : hasLrParam route.uri.uri = false) {url : SipUri} (hsip : route.uri.uri = .sip url)
    (haddr : route.uri.addr ≠ reqUri.addr) :
    processRestored cfg (request reqUri hdrs) =
      (.success, swapped reqUri hdrs route, (getDestInfo cfg route.uri.uri route.uri.uri).2) := by
  have hok : (getDestInfo cfg route.uri.uri route.uri.uri).1 = .success := by
    rw [hsip]
    exact getDestInfo_sip url _
  simp [processRestored, request, hfirst, hlr, hok, haddr, swapped]

/-- Without a SIP URI, or with the Request-URI itself, it stays halfway. -/
theorem processRestored_halfway (hfirst : firstRoute hdrs = some route)
    (hlr : hasLrParam route.uri.uri = false)
    (hstop : (∀ url, route.uri.uri ≠ .sip url) ∨ route.uri.addr = reqUri.addr) :
    (processRestored cfg (request reqUri hdrs)).2.1 = halfway reqUri hdrs route := by
  by_cases hok : (getDestInfo cfg route.uri.uri route.uri.uri).1 = .success
  · have haddr : route.uri.addr = reqUri.addr :=
      hstop.resolve_left fun h => getDestInfo_other h hok
    simp [processRestored, request, hfirst, hlr, hok, haddr, halfway]
  · simp [processRestored, request, hfirst, hlr, hok, halfway]

theorem restore_swapped (reqUri : UriPtr) (hdrs : List Hdr) (route : RouteHdr) :
    restoreStrictRouteSet (swapped reqUri hdrs route) =
      request (.uri reqUri.getUri)
        (Marked.insertBeforeFirst Hdr.route? (.route route) (Marked.eraseFirst Hdr.route? hdrs)) := by
  have hroute := Hdr.route?_route route
  have hnew := Hdr.route?_route (routeTo reqUri.getUri)
  have hlast : lastRoute (swapped reqUri hdrs route).hdrs = some (routeTo reqUri.getUri) := by
    dsimp only [lastRoute, swapped]
    rw [Marked.filterMap_insertAfterLast hnew, List.getLast?_concat]
  have herase := Marked.eraseLast_insertBeforeFirst hroute hnew (Marked.eraseFirst Hdr.route? hdrs)
  have hsaved : (swapped reqUri hdrs route).savedStrictRoute = some route := rfl
  simp only [restoreStrictRouteSet, hsaved, hlast]
  exact congrArg (request (.uri reqUri.getUri)) herase

/-- A Route header is lost. -/
theorem restore_halfway (hfirst : firstRoute hdrs = some route) :
    (restoreStrictRouteSet (halfway reqUri hdrs route)).routes.length <
      (request reqUri hdrs).routes.length := by
  have hroutes : (request reqUri hdrs).routes ≠ [] := by
    intro hnil
    have hhead : (hdrs.filterMap Hdr.route?).head? = some route := hfirst
    rw [show hdrs.filterMap Hdr.route? = [] from hnil] at hhead
    cases hhead
  have hpos := List.length_pos_iff.mpr hroutes
  have hrest : (Marked.eraseFirst Hdr.route? hdrs).filterMap Hdr.route? =
      (request reqUri hdrs).routes.tail := Marked.filterMap_eraseFirst hdrs
  have hsaved : (halfway reqUri hdrs route).savedStrictRoute = some route := rfl
  cases hlast : lastRoute (halfway reqUri hdrs route).hdrs with
  | none =>
      -- the header that was put aside is forgotten
      simp only [restoreStrictRouteSet, hsaved, hlast]
      calc (TxData.routes { halfway reqUri hdrs route with savedStrictRoute := none }).length
          = (request reqUri hdrs).routes.tail.length := congrArg List.length hrest
        _ < (request reqUri hdrs).routes.length := by
          rw [List.length_tail]
          omega
  | some last =>
      -- the last header has become the Request-URI
      simp only [restoreStrictRouteSet, hsaved, hlast]
      calc (Marked.eraseLast Hdr.route? (Marked.insertBeforeFirst Hdr.route? (.route route)
              (Marked.eraseFirst Hdr.route? hdrs)) |>.filterMap Hdr.route?).length
          = (route :: (request reqUri hdrs).routes.tail).dropLast.length := by
            rw [Marked.filterMap_eraseLast,
              Marked.filterMap_insertBeforeFirst (Hdr.route?_route route), hrest]
        _ < (request reqUri hdrs).routes.length := by
            simp only [List.length_dropLast, List.length_cons, List.length_tail]
            omega

/-- The headers that restoring leaves are as good as the old ones. -/
theorem firstRoute_restored (hdrs : List Hdr) (route : RouteHdr) :
    firstRoute (Marked.insertBeforeFirst Hdr.route? (.route route)
      (Marked.eraseFirst Hdr.route? hdrs)) = some route := by
  rw [firstRoute, Marked.filterMap_insertBeforeFirst (Hdr.route?_route route)]
  rfl

theorem eraseFirst_restored (hdrs : List Hdr) (route : RouteHdr) :
    Marked.eraseFirst Hdr.route? (Marked.insertBeforeFirst Hdr.route? (.route route)
      (Marked.eraseFirst Hdr.route? hdrs)) = Marked.eraseFirst Hdr.route? hdrs :=
  Marked.eraseFirst_insertBeforeFirst (Hdr.route?_route route) _

theorem processRouteSet_swapped (cfg : Config) (reqUri : UriPtr) (hdrs : List Hdr) (route : RouteHdr) :
    processRouteSet cfg (swapped reqUri hdrs route) =
      processRestored cfg (request (.uri reqUri.getUri)
        (Marked.insertBeforeFirst Hdr.route? (.route route) (Marked.eraseFirst Hdr.route? hdrs))) := by
  have hsaved : (swapped reqUri hdrs route).savedStrictRoute ≠ none := by simp [swapped]
  rw [processRouteSet, if_pos hsaved, restore_swapped]

/-! ## There and back -/

/-- Restoring gives the Request-URI and the Route headers back, and processing twice does what processing
once does. -/
structure Reversible (cfg : Config) (tdata : TxData) : Prop where
  request_uri : (restoreStrictRouteSet (processRouteSet cfg tdata).2.1).reqUri.getUri =
    tdata.reqUri.getUri
  routes : (restoreStrictRouteSet (processRouteSet cfg tdata).2.1).routes = tdata.routes
  message : (processRouteSet cfg (processRouteSet cfg tdata).2.1).2.1 = (processRouteSet cfg tdata).2.1
  dest : (processRouteSet cfg (processRouteSet cfg tdata).2.1).2.2 = (processRouteSet cfg tdata).2.2

/-- The first Route header can be put back: it is a loose route, or a SIP URI that is not the Request-URI
itself. -/
def Restorable (reqUri : UriPtr) (hdrs : List Hdr) : Prop :=
  ∀ route, firstRoute hdrs = some route →
    hasLrParam route.uri.uri = true ∨
      ((∃ url, route.uri.uri = .sip url) ∧ route.uri.addr ≠ reqUri.addr ∧
        route.uri.addr ≠ reqUri.getUri.addr)

/-- A request that is left as it is. -/
theorem Reversible.of_same {tdata : TxData} (hsaved : tdata.savedStrictRoute = none)
    (hsame : (processRouteSet cfg tdata).2.1 = tdata) : Reversible cfg tdata := by
  have hrestore : restoreStrictRouteSet tdata = tdata := by
    simp [restoreStrictRouteSet, hsaved]
  constructor
  · rw [hsame, hrestore]
  · rw [hsame, hrestore]
  · rw [hsame, hsame]
  · rw [hsame]

/-- **Strict routes are reversible** exactly if the first Route header is a loose route, or a SIP or
SIPS URI in a place of its own. -/
theorem processRouteSet_reversible_iff (cfg : Config) (reqUri : UriPtr) (hdrs : List Hdr) :
    Reversible cfg (request reqUri hdrs) ↔ Restorable reqUri hdrs := by
  have hprocess : processRouteSet cfg (request reqUri hdrs) =
      processRestored cfg (request reqUri hdrs) := rfl
  cases hfirst : firstRoute hdrs with
  | none =>
      refine iff_of_true (.of_same rfl ?_) (fun route h => by rw [hfirst] at h; cases h)
      rw [hprocess]
      simp [processRestored, request, hfirst]
  | some route =>
      have hrestorable : Restorable reqUri hdrs ↔ hasLrParam route.uri.uri = true ∨
          ((∃ url, route.uri.uri = .sip url) ∧ route.uri.addr ≠ reqUri.addr ∧
            route.uri.addr ≠ reqUri.getUri.addr) := by
        simp [Restorable, hfirst]
      rw [hrestorable]
      cases hlr : hasLrParam route.uri.uri with
      | true =>
          refine iff_of_true (.of_same rfl ?_) (.inl rfl)
          rw [hprocess]
          simp [processRestored, request, hfirst, hlr]
      | false =>
          by_cases hstop : (∀ url, route.uri.uri ≠ .sip url) ∨ route.uri.addr = reqUri.addr
          · -- the function stops halfway
            have hhalfway := @processRestored_halfway cfg _ _ _ hfirst hlr hstop
            refine iff_of_false (fun h => ?_) ?_
            · have hlost := @restore_halfway reqUri _ _ hfirst
              have hroutes := h.routes
              rw [hprocess, hhalfway] at hroutes
              rw [hroutes] at hlost
              exact absurd hlost (lt_irrefl _)
            · rintro (h | ⟨⟨url, hsip⟩, haddr, -⟩)
              · cases h
              · rcases hstop with hstop | hstop
                · exact hstop url hsip
                · exact haddr hstop
          · rw [not_or] at hstop
            obtain ⟨url, hsip⟩ : ∃ url, route.uri.uri = .sip url := by
              by_contra hnone
              exact hstop.1 fun url h => hnone ⟨url, h⟩
            have honce := @processRestored_swapped cfg _ _ _ hfirst hlr url hsip hstop.2
            rw [← hprocess] at honce
            have hagain := firstRoute_restored hdrs route
            by_cases hinner : route.uri.addr = reqUri.getUri.addr
            · -- the second time, the URI is the Request-URI itself
              refine iff_of_false (fun h => ?_) ?_
              · have hmessage := h.message
                have hhalfway := @processRestored_halfway cfg (.uri reqUri.getUri) _ _ hagain hlr
                  (.inr hinner)
                rw [honce, processRouteSet_swapped, hhalfway] at hmessage
                have hlen := congrArg (fun tdata => (tdata.hdrs.filterMap Hdr.route?).length) hmessage
                simp only [halfway, swapped, eraseFirst_restored,
                  Marked.filterMap_insertAfterLast (Hdr.route?_route _), List.length_append,
                  List.length_singleton] at hlen
                omega
              · rintro (h | ⟨-, -, h⟩)
                · cases h
                · exact h hinner
            · refine iff_of_true ?_ (.inr ⟨⟨url, hsip⟩, hstop.2, hinner⟩)
              have htwice : processRouteSet cfg (swapped reqUri hdrs route) =
                  (.success, swapped reqUri hdrs route,
                    (getDestInfo cfg route.uri.uri route.uri.uri).2) := by
                have hswapped := @processRestored_swapped cfg (.uri reqUri.getUri) _ _ hagain hlr url hsip
                  hinner
                rw [processRouteSet_swapped, hswapped]
                simp only [swapped, eraseFirst_restored]
                rfl
              constructor
              · rw [honce, restore_swapped]
                rfl
              · rw [honce, restore_swapped, TxData.routes, request,
                  Marked.filterMap_insertBeforeFirst (Hdr.route?_route route),
                  Marked.filterMap_eraseFirst]
                exact List.cons_head?_tail hfirst
              · rw [honce, htwice]
              · rw [honce, htwice]

/-- The SIP URI of this host. -/
def hostUri (addr : Nat) (host : Str) : UriObj := ⟨addr, .sip { SipUri.init false with host := host }⟩

/-- A request to `a` by way of `b`, which is a telephone number. -/
def byTel : TxData :=
  request (.uri (hostUri 0 [97])) [.route ⟨[], ⟨1, .tel ⟨[98], [], [], [], []⟩⟩, []⟩,
    .route ⟨[], hostUri 2 [99], []⟩]

/-- The destination is not found, and restoring takes the wrong URI for the Request-URI. -/
theorem not_reversible_byTel :
    (processRouteSet ⟨[], false⟩ byTel).1 = .noRouteSet ∧
      (restoreStrictRouteSet (processRouteSet ⟨[], false⟩ byTel).2.1).reqUri = .uri (hostUri 2 [99]) ∧
      ¬ Reversible ⟨[], false⟩ byTel := by
  have hrestored : (restoreStrictRouteSet (processRouteSet ⟨[], false⟩ byTel).2.1).reqUri =
      .uri (hostUri 2 [99]) := by decide
  refine ⟨by decide, hrestored, fun h => ?_⟩
  have huri := h.request_uri
  rw [hrestored] at huri
  exact absurd huri (by decide)

end StrictRoute
