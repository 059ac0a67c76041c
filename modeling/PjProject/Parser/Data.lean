import PjProject.Sdp.Session

set_option autoImplicit false

/-! # What the SIP parser builds

URIs, headers and messages as the parser of `pjsip/src/pjsip/sip_parser.c` fills them in. A list of
parameters is a `List Param`, and a counted array the list of its elements. A `pj_str_t` is the list of
its bytes; nothing in the parser tells one with a NULL pointer from an empty one.

The names of headers other than generic ones, and the print and clone functions, are left out: they
follow from the constructor.
-/

namespace SipParser

open Sdp (Str str)

/-- `pjsip_param`. -/
structure Param where
  name : Str
  value : Str
  deriving DecidableEq

/-! ## URIs -/

/-- `pjsip_sip_uri`; `secure` is its virtual table. -/
structure SipUri where
  secure : Bool
  user : Str
  passwd : Str
  host : Str
  port : Int
  userParam : Str
  methodParam : Str
  transportParam : Str
  ttlParam : Int
  lrParam : Bool
  maddrParam : Str
  otherParam : List Param
  headerParam : List Param
  deriving DecidableEq

/-- `pjsip_sip_uri_init`. -/
def SipUri.init (secure : Bool) : SipUri where
  secure := secure
  user := []
  passwd := []
  host := []
  port := 0
  userParam := []
  methodParam := []
  transportParam := []
  ttlParam := -1
  lrParam := false
  maddrParam := []
  otherParam := []
  headerParam := []

/-- The scheme of a SIP URI. -/
def schemeText (secure : Bool) : Str := if secure then str ['s', 'i', 'p', 's'] else str ['s', 'i', 'p']

/-- `pjsip_tel_uri`. -/
structure TelUri where
  number : Str
  context : Str
  extParam : Str
  isubParam : Str
  otherParam : List Param
  deriving DecidableEq

/-- `pjsip_other_uri`. -/
structure OtherUri where
  scheme : Str
  content : Str
  deriving DecidableEq

/-- `pjsip_uri`, but for name addresses. -/
inductive Uri where
  | sip (u : SipUri)
  | tel (u : TelUri)
  | other (u : OtherUri)
  deriving DecidableEq

/-- `pjsip_name_addr`. -/
structure NameAddr where
  display : Str
  uri : Uri
  deriving DecidableEq

/-- What `pjsip_parse_uri` returns: a URI or a name address. -/
inductive AnyUri where
  | uri (u : Uri)
  | nameAddr (a : NameAddr)
  deriving DecidableEq

/-! ## Headers -/

/-- `pjsip_method_e`. -/
inductive MethodId where
  | invite
  | cancel
  | ack
  | bye
  | register
  | options
  | other
  deriving DecidableEq

/-- `pjsip_method`. -/
structure Method where
  id : MethodId
  name : Str
  deriving DecidableEq

/-- `pjsip_media_type`. -/
structure MediaType where
  type : Str
  subtype : Str
  param : List Param
  deriving DecidableEq

/-- `pjsip_contact_hdr`. -/
structure ContactHdr where
  star : Bool
  uri : Option AnyUri
  q1000 : Int
  expires : Int
  otherParam : List Param
  deriving DecidableEq

/-- `pjsip_contact_hdr_init`. -/
def ContactHdr.init : ContactHdr where
  star := false
  uri := none
  q1000 := 0
  expires := -1
  otherParam := []

/-- `pjsip_fromto_hdr`. -/
structure FromToHdr where
  uri : AnyUri
  tag : Str
  otherParam : List Param
  deriving DecidableEq

/-- `pjsip_routing_hdr`. -/
structure RoutingHdr where
  nameAddr : NameAddr
  otherParam : List Param
  deriving DecidableEq

/-- `pjsip_retry_after_hdr`. -/
structure RetryAfterHdr where
  ivalue : Int
  param : List Param
  comment : Str
  deriving DecidableEq

/-- `pjsip_via_hdr`. -/
structure ViaHdr where
  transport : Str
  host : Str
  port : Int
  ttlParam : Int
  rportParam : Int
  maddrParam : Str
  recvdParam : Str
  branchParam : Str
  otherParam : List Param
  comment : Str
  deriving DecidableEq

/-- `pjsip_via_hdr_init`. -/
def ViaHdr.init : ViaHdr where
  transport := []
  host := []
  port := 0
  ttlParam := -1
  rportParam := -1
  maddrParam := []
  recvdParam := []
  branchParam := []
  otherParam := []
  comment := []

/-- `pjsip_digest_credential`. -/
structure DigestCredential where
  realm : Str
  otherParam : List Param
  username : Str
  nonce : Str
  uri : Str
  response : Str
  algorithm : Str
  cnonce : Str
  opaqueValue : Str
  qop : Str
  nc : Str
  deriving DecidableEq

/-- An empty credential. -/
def DigestCredential.zero : DigestCredential where
  realm := []
  otherParam := []
  username := []
  nonce := []
  uri := []
  response := []
  algorithm := []
  cnonce := []
  opaqueValue := []
  qop := []
  nc := []

/-- `pjsip_digest_challenge`. -/
structure DigestChallenge where
  realm : Str
  otherParam : List Param
  domain : Str
  nonce : Str
  opaqueValue : Str
  stale : Bool
  algorithm : Str
  qop : Str
  deriving DecidableEq

/-- An empty challenge. -/
def DigestChallenge.zero : DigestChallenge where
  realm := []
  otherParam := []
  domain := []
  nonce := []
  opaqueValue := []
  stale := false
  algorithm := []
  qop := []

/-- The headers with a list of tags. -/
inductive ArrayKind where
  | accept
  | allow
  | require
  | supported
  | unsupported
  deriving DecidableEq

/-- The headers with a number. -/
inductive IntKind where
  | expires
  | maxForwards
  | minExpires
  deriving DecidableEq

/-- The headers with a scheme and the parameters of it. -/
inductive AuthKind where
  | authorization
  | proxyAuthorization
  | wwwAuthenticate
  | proxyAuthenticate
  deriving DecidableEq

/-- A `pjsip_hdr`. `shared` is the Require or Supported header of `rdata`, which later lines of the
message add to. -/
inductive Hdr where
  | array (kind : ArrayKind) (values : List Str)
  | shared (kind : ArrayKind)
  | int (kind : IntKind) (ivalue : Int)
  | string (name hvalue : Str)
  | callId (id : Str)
  | contentLength (len : Int)
  | contentType (media : MediaType)
  | cseq (cseq : Int) (method : Method)
  | contact (hdr : ContactHdr)
  | fromHdr (hdr : FromToHdr)
  | toHdr (hdr : FromToHdr)
  | recordRoute (hdr : RoutingHdr)
  | route (hdr : RoutingHdr)
  | retryAfter (hdr : RetryAfterHdr)
  | via (hdr : ViaHdr)
  | credential (kind : AuthKind) (scheme : Str) (digest : DigestCredential)
  | challenge (kind : AuthKind) (scheme : Str) (digest : DigestChallenge)
  deriving DecidableEq

/-- `PJSIP_GENERIC_ARRAY_MAX_COUNT`. -/
def genericArrayMaxCount : Nat := 32

/-- `PJSIP_MAX_HNAME_LEN`. -/
def maxHnameLen : Nat := 64

/-- The part of a `pjsip_rx_data` that the parser fills in: `msg_info`. The Require and Supported
headers are kept with their values. -/
structure MsgInfo where
  cid : Option Str
  clen : Option Int
  ctype : Option MediaType
  cseq : Option (Int × Method)
  fromHdr : Option FromToHdr
  toHdr : Option FromToHdr
  maxFwd : Option Int
  require : Option (List Str)
  supported : Option (List Str)
  via : Option ViaHdr
  route : Option RoutingHdr
  recordRoute : Option RoutingHdr
  deriving DecidableEq

/-- The `msg_info` of an `rdata` that has not been parsed. -/
def MsgInfo.zero : MsgInfo where
  cid := none
  clen := none
  ctype := none
  cseq := none
  fromHdr := none
  toHdr := none
  maxFwd := none
  require := none
  supported := none
  via := none
  route := none
  recordRoute := none

/-! ## Messages -/

/-- The request line or the status line. -/
inductive StartLine where
  | request (method : Method) (uri : Uri)
  | status (code : Int) (reason : Str)
  deriving DecidableEq

/-- A part of a multipart body: its headers, its content type and its bytes. -/
structure BodyPart where
  hdr : List Hdr
  contentType : MediaType
  data : Str
  deriving DecidableEq

/-- `pjsip_msg_body`: text, or the parts of a multipart body with their boundary. -/
inductive Body where
  | text (contentType : MediaType) (data : Str)
  | multipart (contentType : MediaType) (boundary : Str) (parts : List BodyPart)
  deriving DecidableEq

/-- `pjsip_msg`. -/
structure SipMsg where
  line : StartLine
  hdr : List Hdr
  body : Option Body
  deriving DecidableEq

/-- `pjsip_parser_err_report`; the exception is always the syntax error of the parser. -/
structure ErrReport where
  line : Nat
  col : Int
  hname : Str
  deriving DecidableEq

end SipParser
