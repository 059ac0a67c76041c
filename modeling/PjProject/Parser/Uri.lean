import PjProject.Parser.Reader

set_option autoImplicit false

/-! # Parsing parameters and URIs

The functions of `sip_parser.c` below the header handlers, and `tel_uri_parse` of
`sip_tel_uri.c`. `pj_stricmp_alnum` is `pj_stricmp` here, and tokens are unescaped into memory of
their own.
-/

namespace SipParser

open Scan
open Sdp (Str str stricmpEq)

/-- A string equals a constant of the parser, case aside. -/
def isWord (s : Str) (word : List Char) : Bool := stricmpEq s (str word)

/-! ## Loops -/

/-- A loop over the input. -/
def scanLoop {β γ : Type} (body : β → Parser (β ⊕ γ)) : β → Parser γ :=
  Consume.loop (fun c => c.sc.fuel) .diverges body

/-- `while (*scanner->curptr == ch) body`. -/
def whileChar {β : Type} (ch : UInt8) (body : β → Parser β) : β → Parser β :=
  scanLoop fun b => do
    let c ← curChar
    if c = ch then
      let b ← body b
      return .inl b
    else return .inr b

/-- `do body while (*scanner->curptr == ch)`. -/
def doWhileChar {β : Type} (ch : UInt8) (body : β → Parser β) : β → Parser β :=
  scanLoop fun b => do
    let b ← body b
    let c ← curChar
    if c = ch then return .inl b else return .inr b

/-- Elements with a comma between them. -/
def commaList {α : Type} (elem : Parser α) : Parser (List α) :=
  scanLoop (fun l => do
    let a ← elem
    let c ← curChar
    if c ≠ 44 then return .inr (l ++ [a])
    else
      let _ ← scanGetChar
      return .inl (l ++ [a])) []

/-! ## Parameters -/

/-- `parse_param_imp`. -/
def parseParamImp (spec : PjCis) (removeQuote : Bool) : Parser Param := do
  let pname ← getAndUnescape spec
  let c ← curChar
  if c = 61 then
    let _ ← scanGetChar
    let eof ← scanIsEof
    if eof then return ⟨pname, []⟩
    else
      let c ← curChar
      if c = 34 then
        let pvalue ← scanGetQuote 34 34
        return ⟨pname, if removeQuote then unquoted pvalue else pvalue⟩
      else if c = 91 then
        -- the brackets around an IPv6 address are not part of the value
        let _ ← scanGetChar
        let pvalue ← scanGetUntilCh 93
        let _ ← scanGetChar
        return ⟨pname, pvalue⟩
      else if spec.mem c then
        let pvalue ← getAndUnescape spec
        return ⟨pname, pvalue⟩
      else return ⟨pname, []⟩
  else return ⟨pname, []⟩

/-- `pjsip_parse_param_imp`. -/
def pjsipParseParamImp (removeQuote : Bool) : Parser Param := parseParamImp tokenSpec removeQuote

/-- `int_parse_param`. -/
def intParseParam : Parser Param := do
  let _ ← scanGetChar
  pjsipParseParamImp false

/-- `int_parse_uri_param`. -/
def intParseUriParam : Parser Param := do
  let _ ← scanGetChar
  parseParamImp paramCharSpec false

/-- `int_parse_hparam`. -/
def intParseHparam : Parser Param := do
  let _ ← scanGetChar
  let hname ← getAndUnescape hdrCharSpec
  let c ← curChar
  if c = 61 then
    let _ ← scanGetChar
    let eof ← scanIsEof
    let c ← curChar
    if eof = false ∧ hdrCharSpec.mem c then
      let hvalue ← getAndUnescape hdrCharSpec
      return ⟨hname, hvalue⟩
    else return ⟨hname, []⟩
  else return ⟨hname, []⟩

/-- A list of parameters, each behind a semicolon. -/
def paramList : Parser (List Param) :=
  whileChar 59 (fun l => do
    let p ← intParseParam
    return l ++ [p]) []

/-! ## Host and user -/

/-- `int_parse_host`. -/
def intParseHost : Parser Str := do
  let c ← curChar
  if c = 91 then
    let _ ← scanGetChar
    let host ← scanGetUntilCh 93
    let _ ← scanGetChar
    return host
  else scanGet hostSpec

/-- A port behind a colon; 0 if there is none. -/
def parsePort : Parser Int := do
  let c ← curChar
  if c = 58 then
    let _ ← scanGetChar
    let port ← scanGet digitSpec
    return strtoi port
  else return 0

/-- `int_parse_uri_host_port`. -/
def intParseUriHostPort : Parser (Str × Int) := do
  let host ← intParseHost
  let port ← parsePort
  return (host, port)

/-- `int_is_next_user`. -/
def intIsNextUser : Parser Bool := do
  let next ← scanPeek probeUserHostSpec
  return next.2 == 64

/-- `int_parse_user_pass`. -/
def intParseUserPass : Parser (Str × Str) := do
  let user ← getAndUnescape userSpecLenient
  let c ← curChar
  if c = 58 then
    let _ ← scanGetChar
    let pass ← getAndUnescape passwdSpec
    let _ ← scanGetChar
    return (user, pass)
  else
    let _ ← scanGetChar
    return (user, [])

/-! ## URIs -/

/-- What `int_parse_sip_url` does with a parameter. -/
def SipUri.addParam (url : SipUri) (p : Param) : SipUri :=
  if isWord p.name ['u', 's', 'e', 'r'] ∧ p.value ≠ [] then { url with userParam := p.value }
  else if isWord p.name ['m', 'e', 't', 'h', 'o', 'd'] ∧ p.value ≠ [] then
    { url with methodParam := p.value }
  else if isWord p.name ['t', 'r', 'a', 'n', 's', 'p', 'o', 'r', 't'] ∧ p.value ≠ [] then
    { url with transportParam := p.value }
  else if isWord p.name ['t', 't', 'l'] ∧ p.value ≠ [] then { url with ttlParam := strtoi p.value }
  else if isWord p.name ['m', 'a', 'd', 'd', 'r'] ∧ p.value ≠ [] then
    { url with maddrParam := p.value }
  else if isWord p.name ['l', 'r'] then { url with lrParam := true }
  else { url with otherParam := url.otherParam ++ [p] }

/-- A scheme and its colon. -/
def parseScheme : Parser Str := do
  let scheme ← scanGet tokenSpec
  let colon ← scanGetChar
  if colon ≠ 58 then throw .syntaxErr
  else return scheme

/-- The virtual table of a SIP URI: `sip` or `sips`. -/
def schemeSecure (scheme : Str) : Parser Bool :=
  if isWord scheme ['s', 'i', 'p'] then return false
  else if isWord scheme ['s', 'i', 'p', 's'] then return true
  else throw .syntaxErr

/-- The user and the password, if the URI has them. -/
def parseUser (url : SipUri) : Parser SipUri := do
  let isUser ← intIsNextUser
  if isUser then
    let r ← intParseUserPass
    return { url with user := r.1, passwd := r.2 }
  else return url

/-- The parameters of a SIP URI. -/
def parseUriParams : SipUri → Parser SipUri :=
  whileChar 59 fun url => do
    let p ← intParseUriParam
    return url.addParam p

/-- The header parameters of a SIP URI. -/
def parseUriHeaders (url : SipUri) : Parser SipUri := do
  let c ← curChar
  if c = 63 then
    doWhileChar 38 (fun url : SipUri => do
      let p ← intParseHparam
      return { url with headerParam := url.headerParam ++ [p] }) url
  else return url

/-- `if (parse_params) f(v)`. -/
def onlyIf {β : Type} (parseParams : Bool) (f : β → Parser β) (v : β) : Parser β :=
  if parseParams then f v else return v

/-- `int_parse_sip_url`. -/
def intParseSipUrl (parseParams : Bool) : Parser SipUri := do
  let skipWs ← getSkipWs
  setSkipWs 0
  let scheme ← parseScheme
  let secure ← schemeSecure scheme
  let url ← parseUser (SipUri.init secure)
  let hp ← intParseUriHostPort
  let url ← onlyIf parseParams parseUriParams { url with host := hp.1, port := hp.2 }
  let url ← onlyIf parseParams parseUriHeaders url
  setSkipWs skipWs
  scanSkipWhitespace
  return url

/-- What `tel_uri_parse` does with a parameter. -/
def TelUri.addParam (uri : TelUri) (p : Param) : TelUri :=
  if isWord p.name ['i', 's', 'u', 'b'] then { uri with isubParam := p.value }
  else if isWord p.name ['e', 'x', 't'] then { uri with extParam := p.value }
  else if isWord p.name ['p', 'h', 'o', 'n', 'e', '-', 'c', 'o', 'n', 't', 'e', 'x', 't'] then
    { uri with context := p.value }
  else { uri with otherParam := uri.otherParam ++ [p] }

/-- A parameter of a tel URI. -/
def telParam : Parser Param := do
  let _ ← scanGetChar
  let pname ← scanGet paramCharSpec
  let c ← curChar
  if c = 61 then
    let _ ← scanGetChar
    let pvalue ← getAndUnescape telParsingPvalueSpec
    return ⟨pname, pvalue⟩
  else return ⟨pname, []⟩

/-- The parameters of a tel URI. -/
def telParams (uri : TelUri) : Parser TelUri := do
  let c ← curChar
  if c = 59 then
    doWhileChar 59 (fun uri : TelUri => do
      let p ← telParam
      return uri.addParam p) uri
  else return uri

/-- `tel_uri_parse`. -/
def telUriParse (parseParams : Bool) : Parser TelUri := do
  let skipWs ← getSkipWs
  setSkipWs 0
  let token ← parseScheme
  if isWord token ['t', 'e', 'l'] = false then throw .syntaxErr
  else
    let number ← getAndUnescape telNumberSpec
    let uri ← onlyIf parseParams telParams
      { number := number, context := [], extParam := [], isubParam := [], otherParam := [] }
    setSkipWs skipWs
    scanSkipWhitespace
    return uri

/-- `int_parse_other_uri`. -/
def intParseOtherUri : Parser OtherUri := do
  let skipWs ← getSkipWs
  setSkipWs 0
  let scheme ← parseScheme
  let content ← scanGet otherUriContent
  setSkipWs skipWs
  return ⟨scheme, content⟩

/-- The function that `find_uri_handler` finds for a scheme, called. -/
def uriHandler (scheme : Str) (parseParams : Bool) : Parser Uri :=
  if isWord scheme ['s', 'i', 'p'] ∨ isWord scheme ['s', 'i', 'p', 's'] then do
    let u ← intParseSipUrl parseParams
    return .sip u
  else if isWord scheme ['t', 'e', 'l'] then do
    let u ← telUriParse parseParams
    return .tel u
  else do
    let u ← intParseOtherUri
    return .other u

/-- `int_parse_uri`. -/
def intParseUri (parseParams : Bool) : Parser Uri := do
  let next ← scanPeek tokenSpec
  if next.2 ≠ 58 then throw .syntaxErr
  else uriHandler next.1 parseParams

/-- The display name of a name address, if it has one. -/
def parseDisplay : Parser Str := do
  let c ← curChar
  if c = 34 then
    let display ← scanGetQuote 34 34
    return unquoted display
  else if c ≠ 60 then
    let next ← scanPeek displaySpec
    if next.2 = 60 then
      let display ← scanGetUntilCh 60
      return strtrim display
    else return []
  else return []

/-- `int_parse_name_addr`. -/
def intParseNameAddr : Parser NameAddr := do
  let display ← parseDisplay
  scanSkipWhitespace
  let c ← curChar
  if c = 60 then
    let _ ← scanGetChar
    let uri ← intParseUri true
    let c ← scanGetChar
    if c ≠ 62 then throw .syntaxErr
    else return ⟨display, uri⟩
  else if display ≠ [] then throw .syntaxErr
  else
    let uri ← intParseUri true
    return ⟨display, uri⟩

/-- The options of `int_parse_uri_or_name_addr`. -/
structure UriOption where
  asNameAddr : Bool
  inFromToHdr : Bool
  deriving DecidableEq

/-- `int_parse_uri_or_name_addr`. -/
def intParseUriOrNameAddr (opt : UriOption) : Parser AnyUri := do
  scanSkipWhitespace
  let c ← curChar
  if c = 34 ∨ c = 60 then
    let a ← intParseNameAddr
    return .nameAddr a
  else
    let next ← scanPeek displaySpec
    if next.2 = 58 then
      let uri ← uriHandler next.1 (!opt.inFromToHdr)
      return if opt.asNameAddr then .nameAddr ⟨[], uri⟩ else .uri uri
    else
      let a ← intParseNameAddr
      return .nameAddr a

/-- `PJ_TRY` and `PJ_CATCH_ANY`: there is no value if an exception was thrown. -/
def attempt {α : Type} (x : Parser α) (c : Ctx) : Except Stop (Option α × Ctx) :=
  match x c with
  | .ok a c => .ok (some a, c)
  | .error .syntaxErr c => .ok (none, c)
  | .error e _ => .error e

/-- `pjsip_parse_uri`. -/
def pjsipParseUri (buf : Str) (opt : UriOption) : Except Stop (Option AnyUri) := do
  let sc ← pjScanInit buf 0
  let c : Ctx := { sc := sc, lim := buf.length, rdata := none, hname := [] }
  let r ← attempt (intParseUriOrNameAddr opt) c
  let ch ← r.2.sc.charAt r.2.sc.curptr
  if r.2.lim ≤ r.2.sc.curptr ∨ isNewline ch then return r.1 else return none

end SipParser
