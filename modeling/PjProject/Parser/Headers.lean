import PjProject.Parser.Uri

set_option autoImplicit false

/-! # Header handlers

The handlers of `sip_parser.c` and those of `sip_auth_parser.c`. A handler returns the headers that
are put into the message: one, several for a list of contacts or hops, or none when the values of
the line went into a header that is there already.
-/

namespace SipParser

open Scan
open MachineInt
open Sdp (Str str stricmpEq pjStrtoul)

/-- `pjsip_method_init_np`: the comparison of memory has the length of the token. -/
def methodInit (token : Str) : Method :=
  let names : List Method :=
    [⟨.invite, str ['I', 'N', 'V', 'I', 'T', 'E']⟩, ⟨.cancel, str ['C', 'A', 'N', 'C', 'E', 'L']⟩,
      ⟨.ack, str ['A', 'C', 'K']⟩, ⟨.bye, str ['B', 'Y', 'E']⟩,
      ⟨.register, str ['R', 'E', 'G', 'I', 'S', 'T', 'E', 'R']⟩,
      ⟨.options, str ['O', 'P', 'T', 'I', 'O', 'N', 'S']⟩]
  match names.find? fun m => token.isPrefixOf m.name || stricmpEq token m.name with
  | some m => m
  | none => ⟨.other, token⟩

/-- A change of `msg_info`, if there is an `rdata`. -/
def setInfo (f : MsgInfo → MsgInfo) : Parser Unit := fun c =>
  .ok () { c with rdata := c.rdata.map f }

/-- The `msg_info` of `rdata`. -/
def getInfo : Parser (Option MsgInfo) := fun c => .ok c.rdata c

/-- `parse_hdr_end`. -/
def parseHdrEnd : Parser Unit := do
  let eof ← scanIsEof
  if eof then return ()
  else
    let c ← curChar
    if c = 38 then
      let _ ← scanGetChar
      return ()
    else scanGetNewline

/-- The cursor is at the end of the input or of the line. -/
def atLineEnd : Parser Bool := do
  let eof ← scanIsEof
  let c ← curChar
  return eof || isNewline c

/-! ## Generic headers -/

/-- `pj_scan_get(.., &hdr->values[hdr->count]); hdr->count++`. -/
def addValue (put : List Str → Parser Unit) (values : List Str) : Parser (List Str) := do
  let v ← scanGet notCommaOrNewline
  if values.length < genericArrayMaxCount then
    put (values ++ [v])
    return values ++ [v]
  else throw .outOfBounds

/-- The rest of an array header, behind its first value. -/
def moreValues (put : List Str → Parser Unit) : List Str → Parser (List Str) :=
  scanLoop fun values => do
    let c ← curChar
    if c = 44 then
      let _ ← scanGetChar
      let values ← addValue put values
      if genericArrayMaxCount ≤ values.length then return .inr values else return .inl values
    else return .inr values

/-- `parse_generic_array_hdr`: `put` stores the values. -/
def parseGenericArrayHdr (put : List Str → Parser Unit) (values : List Str) :
    Parser (List Str) := do
  let done ← atLineEnd
  if done then
    parseHdrEnd
    return values
  else if genericArrayMaxCount ≤ values.length then throw .syntaxErr
  else
    let values ← addValue put values
    let values ← moreValues put values
    parseHdrEnd
    return values

/-- The loop of `parse_generic_string_hdr`. -/
def stringFractions : Str → Parser Str :=
  scanLoop fun hvalue => do
    let c ← curChar
    if notNewline.mem c then
      let hvalue ← scanGet notNewline
      let done ← atLineEnd
      if done then return .inr hvalue
      else
        -- mangled, get next fraction
        let next ← scanGet notNewline
        return .inl (hvalue ++ [32] ++ next)
    else return .inr hvalue

/-- `parse_generic_string_hdr`. -/
def parseGenericStringHdr : Parser Str := do
  let hvalue ← stringFractions []
  parseHdrEnd
  return hvalue

/-- `parse_generic_int_hdr`. -/
def parseGenericIntHdr : Parser Int := do
  let tmp ← scanGet digitSpec
  parseHdrEnd
  return strtoi tmp

/-! ## Headers with a list of values -/

/-- `parse_hdr_accept`, `parse_hdr_allow` and `parse_hdr_unsupported`. -/
def parseHdrArray (kind : ArrayKind) : Parser (List Hdr) := do
  let values ← parseGenericArrayHdr (fun _ => return ()) []
  return [.array kind values]

def parseHdrAccept : Parser (List Hdr) := parseHdrArray .accept

def parseHdrAllow : Parser (List Hdr) := parseHdrArray .allow

def parseHdrUnsupported : Parser (List Hdr) := parseHdrArray .unsupported

/-- `parse_hdr_require` and `parse_hdr_supported`: the first line of the message makes the header
of `rdata`, and later lines add to it. -/
def parseHdrShared (kind : ArrayKind) (cell : MsgInfo → Option (List Str))
    (put : List Str → MsgInfo → MsgInfo) : Parser (List Hdr) := do
  let rdata ← getInfo
  match rdata with
  | none => parseHdrArray kind
  | some info =>
      match cell info with
      | some values =>
          let _ ← parseGenericArrayHdr (fun l => setInfo (put l)) values
          return []
      | none =>
          setInfo (put [])
          let _ ← parseGenericArrayHdr (fun l => setInfo (put l)) []
          return [.shared kind]

def parseHdrRequire : Parser (List Hdr) :=
  parseHdrShared .require (·.require) fun l info => { info with require := some l }

def parseHdrSupported : Parser (List Hdr) :=
  parseHdrShared .supported (·.supported) fun l info => { info with supported := some l }

/-! ## Headers with a number or a string -/

def parseHdrExpires : Parser (List Hdr) := do
  let ivalue ← parseGenericIntHdr
  return [.int .expires ivalue]

def parseHdrMinExpires : Parser (List Hdr) := do
  let ivalue ← parseGenericIntHdr
  return [.int .minExpires ivalue]

def parseHdrMaxForwards : Parser (List Hdr) := do
  let ivalue ← parseGenericIntHdr
  setInfo fun info => { info with maxFwd := some ivalue }
  return [.int .maxForwards ivalue]

def parseHdrCallId : Parser (List Hdr) := do
  let id ← scanGet notNewline
  parseHdrEnd
  setInfo fun info => { info with cid := some id }
  return [.callId id]

def parseHdrContentLen : Parser (List Hdr) := do
  let len ← parseGenericIntHdr
  setInfo fun info => { info with clen := some len }
  return [.contentLength len]

def parseHdrCseq : Parser (List Hdr) := do
  let cseq ← scanGet digitSpec
  let method ← scanGet tokenSpec
  parseHdrEnd
  let hdr := (strtoi cseq, methodInit method)
  setInfo fun info => { info with cseq := some hdr }
  return [.cseq hdr.1 hdr.2]

def parseHdrContentType : Parser (List Hdr) := do
  let type ← scanGet tokenSpec
  let _ ← scanGetChar
  let subtype ← scanGet tokenSpec
  let param ← paramList
  parseHdrEnd
  let media : MediaType := ⟨type, subtype, param⟩
  setInfo fun info => { info with ctype := some media }
  return [.contentType media]

/-! ## Retry-After -/

/-- One turn of the loop of `parse_hdr_retry_after`. There is no branch for a character that starts
neither a comment nor a parameter. -/
def retryAfterTurn (hdr : RetryAfterHdr) : Parser (RetryAfterHdr ⊕ RetryAfterHdr) := do
  let done ← atLineEnd
  if done then return .inr hdr
  else
    let c ← curChar
    if c = 40 then
      let comment ← scanGetQuote 40 41
      return .inl { hdr with comment := unquoted comment }
    else if c = 59 then
      let prm ← intParseParam
      return .inl { hdr with param := hdr.param ++ [prm] }
    else return .inl hdr

/-- `parse_hdr_retry_after`. -/
def parseHdrRetryAfter : Parser (List Hdr) := do
  let tmp ← scanGet digitSpec
  let hdr ← scanLoop retryAfterTurn { ivalue := strtoi tmp, param := [], comment := [] }
  parseHdrEnd
  return [.retryAfter hdr]

/-! ## Addresses -/

/-- The `q` parameter of a contact, times 1000. -/
def qvalue (v : Str) : Int :=
  if v.contains 46 then
    int32 (int32 (pjStrtoul (v.takeWhile (· != 46)) * 1000) +
      strtoulMindigit ((v.dropWhile (· != 46)).drop 1) 3)
  else int32 (pjStrtoul v * 1000)

/-- What `int_parse_contact_param` does with a parameter. -/
def ContactHdr.addParam (hdr : ContactHdr) (p : Param) : ContactHdr :=
  if isWord p.name ['q'] ∧ p.value ≠ [] then { hdr with q1000 := qvalue p.value }
  else if isWord p.name ['e', 'x', 'p', 'i', 'r', 'e', 's'] ∧ p.value ≠ [] then
    { hdr with expires := strtoi p.value }
  else { hdr with otherParam := hdr.otherParam ++ [p] }

/-- Parameters that are put into a header. -/
def parseParams {η : Type} (add : η → Param → η) : η → Parser η :=
  whileChar 59 fun hdr => do
    let p ← intParseParam
    return add hdr p

/-- The options of addresses in headers. -/
def hdrUriOption : UriOption := ⟨true, true⟩

/-- One contact. -/
def parseContact : Parser ContactHdr := do
  let c ← curChar
  if c = 42 then
    let _ ← scanGetChar
    return { ContactHdr.init with star := true }
  else
    let uri ← intParseUriOrNameAddr hdrUriOption
    parseParams ContactHdr.addParam { ContactHdr.init with uri := some uri }

/-- `parse_hdr_contact`. -/
def parseHdrContact : Parser (List Hdr) := do
  let l ← commaList parseContact
  parseHdrEnd
  return l.map .contact

/-- What `parse_hdr_fromto` does with a parameter. -/
def FromToHdr.addParam (hdr : FromToHdr) (p : Param) : FromToHdr :=
  if isWord p.name ['t', 'a', 'g'] then { hdr with tag := p.value }
  else { hdr with otherParam := hdr.otherParam ++ [p] }

/-- `parse_hdr_fromto`. -/
def parseHdrFromto : Parser FromToHdr := do
  let uri ← intParseUriOrNameAddr hdrUriOption
  let hdr ← parseParams FromToHdr.addParam { uri := uri, tag := [], otherParam := [] }
  parseHdrEnd
  return hdr

def parseHdrFrom : Parser (List Hdr) := do
  let hdr ← parseHdrFromto
  setInfo fun info => { info with fromHdr := some hdr }
  return [.fromHdr hdr]

def parseHdrTo : Parser (List Hdr) := do
  let hdr ← parseHdrFromto
  setInfo fun info => { info with toHdr := some hdr }
  return [.toHdr hdr]

/-- `parse_hdr_rr_route`. -/
def parseHdrRrRoute : Parser RoutingHdr := do
  let temp ← intParseNameAddr
  let otherParam ← paramList
  return ⟨temp, otherParam⟩

/-- `parse_hdr_rr`. -/
def parseHdrRr : Parser (List Hdr) := do
  let l ← commaList parseHdrRrRoute
  parseHdrEnd
  setInfo fun info => { info with recordRoute := info.recordRoute <|> l.head? }
  return l.map .recordRoute

/-- `parse_hdr_route`. -/
def parseHdrRoute : Parser (List Hdr) := do
  let l ← commaList parseHdrRrRoute
  parseHdrEnd
  setInfo fun info => { info with route := info.route <|> l.head? }
  return l.map .route

/-! ## Via -/

/-- `parse_sip_version`. -/
def parseSipVersion : Parser Unit := do
  let sip ← scanGet alphaSpec
  let c ← scanGetChar
  if c ≠ 47 then throw .syntaxErr
  else
    let version ← scanGetN 3
    if isWord sip ['S', 'I', 'P'] = false ∨ isWord version ['2', '.', '0'] = false then
      throw .syntaxErr
    else return ()

/-- What `int_parse_via_param` does with a parameter. -/
def ViaHdr.addParam (hdr : ViaHdr) (p : Param) : ViaHdr :=
  if isWord p.name ['b', 'r', 'a', 'n', 'c', 'h'] ∧ p.value ≠ [] then
    { hdr with branchParam := p.value }
  else if isWord p.name ['t', 't', 'l'] ∧ p.value ≠ [] then { hdr with ttlParam := strtoi p.value }
  else if isWord p.name ['m', 'a', 'd', 'd', 'r'] ∧ p.value ≠ [] then
    { hdr with maddrParam := p.value }
  else if isWord p.name ['r', 'e', 'c', 'e', 'i', 'v', 'e', 'd'] ∧ p.value ≠ [] then
    { hdr with recvdParam := p.value }
  else if isWord p.name ['r', 'p', 'o', 'r', 't'] then
    { hdr with rportParam := if p.value ≠ [] then strtoi p.value else 0 }
  else { hdr with otherParam := hdr.otherParam ++ [p] }

/-- `int_parse_via_param`. -/
def intParseViaParam : ViaHdr → Parser ViaHdr :=
  whileChar 59 fun hdr => do
    let _ ← scanGetChar
    let p ← parseParamImp viaParamSpec false
    return hdr.addParam p

/-- The comment at the end of a hop. -/
def parseViaComment (hdr : ViaHdr) : Parser ViaHdr := do
  let c ← curChar
  if c = 40 then
    let _ ← scanGetChar
    let comment ← scanGetUntilCh 41
    let _ ← scanGetChar
    return { hdr with comment := comment }
  else return hdr

/-- One hop. -/
def parseVia : Parser ViaHdr := do
  parseSipVersion
  let c ← scanGetChar
  if c ≠ 47 then throw .syntaxErr
  else
    let transport ← scanGet tokenSpec
    let host ← intParseHost
    let port ← parsePort
    let hdr ← intParseViaParam
      { ViaHdr.init with transport := transport, host := host, port := port }
    parseViaComment hdr

/-- `parse_hdr_via`. -/
def parseHdrVia : Parser (List Hdr) := do
  let l ← commaList parseVia
  parseHdrEnd
  setInfo fun info => { info with via := info.via <|> l.head? }
  return l.map .via

/-! ## Authentication -/

/-- What `parse_digest_credential` does with a parameter. -/
def DigestCredential.addParam (cred : DigestCredential) (p : Param) : DigestCredential :=
  if isWord p.name ['u', 's', 'e', 'r', 'n', 'a', 'm', 'e'] then { cred with username := p.value }
  else if isWord p.name ['r', 'e', 'a', 'l', 'm'] then { cred with realm := p.value }
  else if isWord p.name ['n', 'o', 'n', 'c', 'e'] then { cred with nonce := p.value }
  else if isWord p.name ['u', 'r', 'i'] then { cred with uri := p.value }
  else if isWord p.name ['r', 'e', 's', 'p', 'o', 'n', 's', 'e'] then
    { cred with response := p.value }
  else if isWord p.name ['a', 'l', 'g', 'o', 'r', 'i', 't', 'h', 'm'] then
    { cred with algorithm := p.value }
  else if isWord p.name ['c', 'n', 'o', 'n', 'c', 'e'] then { cred with cnonce := p.value }
  else if isWord p.name ['o', 'p', 'a', 'q', 'u', 'e'] then { cred with opaqueValue := p.value }
  else if isWord p.name ['q', 'o', 'p'] then { cred with qop := p.value }
  else if isWord p.name ['n', 'c'] then { cred with nc := p.value }
  else { cred with otherParam := cred.otherParam ++ [p] }

/-- What `parse_digest_challenge` does with a parameter. -/
def DigestChallenge.addParam (chal : DigestChallenge) (p : Param) : DigestChallenge :=
  let value := if p.value.head? = some 34 then unquoted p.value else p.value
  if isWord p.name ['r', 'e', 'a', 'l', 'm'] then { chal with realm := value }
  else if isWord p.name ['d', 'o', 'm', 'a', 'i', 'n'] then { chal with domain := value }
  else if isWord p.name ['n', 'o', 'n', 'c', 'e'] then { chal with nonce := value }
  else if isWord p.name ['o', 'p', 'a', 'q', 'u', 'e'] then { chal with opaqueValue := value }
  else if isWord p.name ['s', 't', 'a', 'l', 'e'] then
    if isWord p.value ['t', 'r', 'u', 'e'] ∨ isWord p.value ['"', 't', 'r', 'u', 'e', '"'] then
      { chal with stale := true }
    else chal
  else if isWord p.name ['a', 'l', 'g', 'o', 'r', 'i', 't', 'h', 'm'] then
    { chal with algorithm := value }
  else if isWord p.name ['q', 'o', 'p'] then { chal with qop := value }
  else { chal with otherParam := chal.otherParam ++ [p] }

/-- The loop of `parse_digest_credential` and `parse_digest_challenge`. -/
def authParams {η : Type} (removeQuote : Bool) (add : η → Param → η) : η → Parser η :=
  scanLoop fun hdr => do
    let p ← pjsipParseParamImp removeQuote
    let eof ← scanIsEof
    let c ← curChar
    if eof = false ∧ c = 44 then
      let _ ← scanGetChar
      return .inl (add hdr p)
    else return .inr (add hdr p)

/-- The scheme of an authentication header. -/
def parseAuthScheme : Parser Str := do
  let c ← curChar
  if c = 34 then
    let scheme ← scanGetQuote 34 34
    return unquoted scheme
  else scanGet tokenSpec

/-- `int_parse_hdr_authorization` and `int_parse_hdr_authenticate`. PGP is a syntax error. -/
def parseHdrAuth {η : Type} (removeQuote : Bool) (add : η → Param → η) (zero : η)
    (hdr : Str → η → Hdr) : Parser (List Hdr) := do
  let scheme ← parseAuthScheme
  if isWord scheme ['D', 'i', 'g', 'e', 's', 't'] then
    let digest ← authParams removeQuote add zero
    parseHdrEnd
    return [hdr scheme digest]
  else throw .syntaxErr

def parseHdrAuthorization : Parser (List Hdr) :=
  parseHdrAuth true DigestCredential.addParam .zero (.credential .authorization)

def parseHdrProxyAuthorization : Parser (List Hdr) :=
  parseHdrAuth true DigestCredential.addParam .zero (.credential .proxyAuthorization)

def parseHdrWwwAuthenticate : Parser (List Hdr) :=
  parseHdrAuth false DigestChallenge.addParam .zero (.challenge .wwwAuthenticate)

def parseHdrProxyAuthenticate : Parser (List Hdr) :=
  parseHdrAuth false DigestChallenge.addParam .zero (.challenge .proxyAuthenticate)

end SipParser
