import PjProject.Parser.Headers

set_option autoImplicit false

/-! # Parsing header lines

The table of the header handlers, `pjsip_parse_headers`, and the loop over the header lines that
`int_parse_msg` has as well: a line whose handler throws is skipped, and the loop goes on behind it.
-/

namespace SipParser

open Scan
open Sdp (Str str toLower)

/-- The built-in header handlers. -/
inductive Handler where
  | accept
  | allow
  | callId
  | contact
  | contentLen
  | contentType
  | cseq
  | expires
  | hfrom
  | maxForwards
  | minExpires
  | rr
  | route
  | require
  | retryAfter
  | supported
  | hto
  | unsupported
  | via
  | authorization
  | proxyAuthorization
  | wwwAuthenticate
  | proxyAuthenticate
  deriving DecidableEq

/-- The function that is registered. -/
def Handler.parse : Handler → Parser (List Hdr)
  | .accept => parseHdrAccept
  | .allow => parseHdrAllow
  | .callId => parseHdrCallId
  | .contact => parseHdrContact
  | .contentLen => parseHdrContentLen
  | .contentType => parseHdrContentType
  | .cseq => parseHdrCseq
  | .expires => parseHdrExpires
  | .hfrom => parseHdrFrom
  | .maxForwards => parseHdrMaxForwards
  | .minExpires => parseHdrMinExpires
  | .rr => parseHdrRr
  | .route => parseHdrRoute
  | .require => parseHdrRequire
  | .retryAfter => parseHdrRetryAfter
  | .supported => parseHdrSupported
  | .hto => parseHdrTo
  | .unsupported => parseHdrUnsupported
  | .via => parseHdrVia
  | .authorization => parseHdrAuthorization
  | .proxyAuthorization => parseHdrProxyAuthorization
  | .wwwAuthenticate => parseHdrWwwAuthenticate
  | .proxyAuthenticate => parseHdrProxyAuthenticate

/-- A call of `pjsip_register_hdr_parser`. -/
structure HandlerRec where
  hname : Str
  hshortname : Option Str
  handler : Handler

/-- The handlers that `init_parser` and `pjsip_auth_init_parser` register. -/
def handlers : List HandlerRec :=
  [⟨str ['A', 'c', 'c', 'e', 'p', 't'], none, .accept⟩,
    ⟨str ['A', 'l', 'l', 'o', 'w'], none, .allow⟩,
    ⟨str ['C', 'a', 'l', 'l', '-', 'I', 'D'], some (str ['i']), .callId⟩,
    ⟨str ['C', 'o', 'n', 't', 'a', 'c', 't'], some (str ['m']), .contact⟩,
    ⟨str ['C', 'o', 'n', 't', 'e', 'n', 't', '-', 'L', 'e', 'n', 'g', 't', 'h'],
      some (str ['l']), .contentLen⟩,
    ⟨str ['C', 'o', 'n', 't', 'e', 'n', 't', '-', 'T', 'y', 'p', 'e'], some (str ['c']),
      .contentType⟩,
    ⟨str ['C', 'S', 'e', 'q'], none, .cseq⟩,
    ⟨str ['E', 'x', 'p', 'i', 'r', 'e', 's'], none, .expires⟩,
    ⟨str ['F', 'r', 'o', 'm'], some (str ['f']), .hfrom⟩,
    ⟨str ['M', 'a', 'x', '-', 'F', 'o', 'r', 'w', 'a', 'r', 'd', 's'], none, .maxForwards⟩,
    ⟨str ['M', 'i', 'n', '-', 'E', 'x', 'p', 'i', 'r', 'e', 's'], none, .minExpires⟩,
    ⟨str ['R', 'e', 'c', 'o', 'r', 'd', '-', 'R', 'o', 'u', 't', 'e'], none, .rr⟩,
    ⟨str ['R', 'o', 'u', 't', 'e'], none, .route⟩,
    ⟨str ['R', 'e', 'q', 'u', 'i', 'r', 'e'], none, .require⟩,
    ⟨str ['R', 'e', 't', 'r', 'y', '-', 'A', 'f', 't', 'e', 'r'], none, .retryAfter⟩,
    ⟨str ['S', 'u', 'p', 'p', 'o', 'r', 't', 'e', 'd'], some (str ['k']), .supported⟩,
    ⟨str ['T', 'o'], some (str ['t']), .hto⟩,
    ⟨str ['U', 'n', 's', 'u', 'p', 'p', 'o', 'r', 't', 'e', 'd'], none, .unsupported⟩,
    ⟨str ['V', 'i', 'a'], some (str ['v']), .via⟩,
    ⟨str ['A', 'u', 't', 'h', 'o', 'r', 'i', 'z', 'a', 't', 'i', 'o', 'n'], none,
      .authorization⟩,
    ⟨str ['P', 'r', 'o', 'x', 'y', '-', 'A', 'u', 't', 'h', 'o', 'r', 'i', 'z', 'a', 't', 'i', 'o',
      'n'], none, .proxyAuthorization⟩,
    ⟨str ['W', 'W', 'W', '-', 'A', 'u', 't', 'h', 'e', 'n', 't', 'i', 'c', 'a', 't', 'e'], none,
      .wwwAuthenticate⟩,
    ⟨str ['P', 'r', 'o', 'x', 'y', '-', 'A', 'u', 't', 'h', 'e', 'n', 't', 'i', 'c', 'a', 't', 'e'],
      none, .proxyAuthenticate⟩]

/-- `find_handler_imp`: the names under which a handler is registered are its name, the lower case
of it, and its short name. -/
def findHandlerImp (hname : Str) : Option Handler :=
  (handlers.find? fun r =>
    hname == r.hname || hname == r.hname.map toLower || some hname == r.hshortname).map (·.handler)

/-- `find_handler`. -/
def findHandler (hname : Str) : Option Handler :=
  if maxHnameLen ≤ hname.length then none
  else findHandlerImp hname <|> findHandlerImp (hname.map toLower)

/-! ## One header line -/

/-- `hname`, in the function that parses the lines. -/
def setHname (hname : Str) : Parser Unit := fun c => .ok () { c with hname := hname }

/-- The name of a header and its colon. -/
def parseHname : Parser Str := do
  setHname []
  let hname ← scanGet tokenSpec
  setHname hname
  let c ← scanGetChar
  if c ≠ 58 then throw .syntaxErr
  else return hname

/-- What is behind the colon. -/
def parseHvalue (hname : Str) : Parser (List Hdr) :=
  match findHandler hname with
  | some h => h.parse
  | none => do
      let hvalue ← parseGenericStringHdr
      return [.string hname hvalue]

/-- A header line. -/
def parseHdrLine : Parser (List Hdr) := do
  let hname ← parseHname
  parseHvalue hname

/-! ## The loop over the lines -/

/-- One turn of `skipFolded`. -/
def foldedTurn (_ : Unit) : Parser (Unit ⊕ Unit) := do
  scanSkipLine
  let c ← curChar
  if isSpace c then return .inl () else return .inr ()

/-- `do pj_scan_skip_line(scanner); while (IS_SPACE(*scanner->curptr))`. -/
def skipFolded : Parser Unit := scanLoop foldedTurn ()

/-- What the handler of the exception does with the scanner: the line is skipped, and the flags that
a URI parser has changed are put back. It says whether there are more lines. -/
def skipBadLine : Parser Bool := do
  let eof ← scanIsEof
  if eof then setSkipWs 3
  else
    skipFolded
    setSkipWs 3
  let done ← atLineEnd
  return !done

/-- What the loop over the header lines has found: the headers in the message, the Content-Type
header, and the errors. -/
structure Lines where
  hdr : List Hdr
  ctypeHdr : Option MediaType
  errList : List ErrReport
  deriving DecidableEq

/-- Nothing has been found yet. -/
def Lines.empty : Lines where
  hdr := []
  ctypeHdr := none
  errList := []

/-- The headers of a line are put into the message. -/
def Lines.add (l : Lines) (hdr : List Hdr) : Lines where
  hdr := l.hdr ++ hdr
  ctypeHdr := match hdr with
    | .contentType media :: _ => some media
    | _ => l.ctypeHdr
  errList := l.errList

/-- `scanner->line` and the column, counted from 1, of an error; `name` is what was being parsed. -/
def Ctx.report (c : Ctx) (name : Str) : ErrReport where
  line := c.sc.line
  col := (c.sc.curptr : Int) - c.sc.startLine + 1
  hname := name

/-- How the loop over the lines ends: at the end of the header section, or in an exception behind
which there are no more lines. -/
inductive LinesEnd where
  | section (l : Lines)
  | thrown (l : Lines)
  deriving DecidableEq

/-- Behind a line: parse until the end of the input or an empty line. -/
def afterLine (l : Lines) : Parser (Lines ⊕ LinesEnd) := do
  let done ← atLineEnd
  if done then return .inr (.section l) else return .inl l

/-- Behind an exception: parse the next header, if there is one. -/
def afterError (stopOnError : Bool) (l : Lines) : Parser (Lines ⊕ LinesEnd) := do
  if stopOnError then return .inr (.thrown l)
  else
    let more ← skipBadLine
    if more then return .inl l else return .inr (.thrown l)

/-- A line, and what the handler of an exception does about it. -/
def lineTurn (stopOnError : Bool) (l : Lines) : Parser (Lines ⊕ LinesEnd) := fun c =>
  match parseHdrLine c with
  | .ok hdr c => afterLine (l.add hdr) c
  | .error .syntaxErr c =>
      afterError stopOnError { l with errList := l.errList ++ [c.report c.hname] } c
  | .error e c => .error e c

/-- The loop over the header lines. -/
def parseLines (stopOnError : Bool) : Lines → Parser LinesEnd := scanLoop (lineTurn stopOnError)

/-- The empty line behind the header section is eaten. -/
def eatEmptyLine : Parser Unit := do
  let eof ← scanIsEof
  let c ← curChar
  if eof = false ∧ isNewline c then scanGetNewline else return ()

/-- A context for the memory from `begin` on, with the flags of headers. -/
def initCtx (mem : Str) (lim : Nat) (rdata : Option MsgInfo) : Except Stop Ctx := do
  let sc ← pjScanInit mem 3
  return { sc := sc, lim := lim, rdata := rdata, hname := [] }

/-- `pjsip_parse_headers` for the memory from `input` on, up to the position `size`: the headers, and
whether the status is `PJ_SUCCESS`. -/
def pjsipParseHeadersIn (mem : Str) (size : Nat) (stopOnError : Bool) :
    Except Stop (List Hdr × Bool) := do
  let c ← initCtx mem size none
  match parseLines stopOnError Lines.empty c with
  | .ok (.section l) c =>
      let _ ← attempt eatEmptyLine c
      return (l.hdr, true)
  | .ok (.thrown l) _ => return (l.hdr, !stopOnError)
  | .error e _ => .error e

/-- `pjsip_parse_headers` for a string. -/
def pjsipParseHeaders (input : Str) (stopOnError : Bool) : Except Stop (List Hdr × Bool) :=
  pjsipParseHeadersIn input input.length stopOnError

end SipParser

/-! ## Parsing messages

`int_parse_msg` with the body behind the headers, and `pjsip_multipart_parse` of
`sip_multipart.c`. A multipart body is a piece of memory with a NUL behind it; positions in it are
offsets from its first byte, and a read behind the NUL is the fault `outOfBounds`.
-/

namespace SipParser

open Scan
open Sdp (Str str)

/-! ## Multipart bodies -/

/-- `*p`. -/
def byteAt (mem : Str) (p : Nat) : Except Stop UInt8 :=
  if p ≤ mem.length then .ok (mem.getD p 0) else .error .outOfBounds

/-- `while (p != end && q(*p)) ++p`. -/
def runTo (mem : Str) (stop : Nat) (q : UInt8 → Bool) : Nat → Nat → Except Stop Nat
  | 0, _ => .error .diverges
  | fuel + 1, p =>
      if p ≠ stop then do
        let c ← byteAt mem p
        if q c then runTo mem stop q fuel (p + 1) else return p
      else .ok p

/-- The turns no loop over the body uses up. -/
def bodyFuel (mem : Str) : Nat := mem.length + 2

/-- `pj_ansi_strncmp(s, t, n) == 0`, where `n` is the length of `t`. -/
def strncmpEq : Str → Str → Bool
  | _, [] => true
  | [], b :: _ => b == 0
  | a :: s, b :: t => a == b && (a == 0 || strncmpEq s t)

/-- `pj_strstr` from the position `p` on. -/
def strstrFrom (mem delim : Str) (p : Nat) : Option Nat :=
  ((List.range (mem.length + 1 - p)).map (p + ·)).find? fun s =>
    decide (s + delim.length ≤ mem.length) && strncmpEq (mem.drop s) delim

/-- The search for a boundary in the body: the position behind the first `--` that starts a line. -/
def findDashes (mem : Str) : Nat → Nat → Except Stop Nat
  | 0, _ => .error .diverges
  | fuel + 1, p => do
      let p ← runTo mem mem.length (· != 45) (bodyFuel mem) p
      if p = mem.length then findDashes mem fuel (p + 1)
      else
        let c ← byteAt mem (p + 1)
        if c = 45 ∧ (p = 0 ∨ mem.getD (p - 1) 0 = 10) then return p + 2
        else findDashes mem fuel (p + 1)

/-- `pjsip_param_find`. -/
def paramFind (l : List Param) (name : Str) : Option Param :=
  l.find? fun p => Sdp.stricmpEq p.name name

/-- The boundary that the Content-Type header gives. -/
def ctypeBoundary (ctype : MediaType) : Str :=
  match paramFind ctype.param (str ['b', 'o', 'u', 'n', 'd', 'a', 'r', 'y']) with
  | some p =>
      if 2 < p.value.length ∧ p.value.head? = some 34 then unquoted p.value else p.value
  | none => []

/-- The boundary; there is none if the body has no first delimiter either. -/
def findBoundary (mem : Str) (ctype : MediaType) : Except Stop (Option Str) :=
  if ctypeBoundary ctype ≠ [] then .ok (some (ctypeBoundary ctype))
  else do
    let p ← findDashes mem (bodyFuel mem) 0
    if p = mem.length then return none
    else
      let q ← runTo mem mem.length (fun c => !isSpaceC c) (bodyFuel mem) p
      return some ((mem.drop p).take (q - p))

/-- The search for the empty line in `parse_multipart_part`, for the part from `start` to `stop`:
the end of the headers, if there are any, and the start of the body. A part of length -1 or -2 has
its `stop` before its `start`. -/
def headerArea (mem : Str) (start stop : Nat) :
    Nat → Option Nat → Nat → Except Stop (Option Nat × Nat)
  | 0, _, _ => .error .diverges
  | fuel + 1, endHdr, p => do
      let p ← runTo mem stop (· != 10) (bodyFuel mem) p
      if p = stop then return (endHdr, stop)
      else if p = start ∨ (p = start + 1 ∧ mem.getD (p - 1) 0 = 13) then return (some start, p + 1)
      else if p + 1 = stop then headerArea mem start stop fuel (some stop) (p + 1)
      else if (start + 1 ≤ p ∧ mem.getD (p - 1) 0 = 10) ∨
          (start + 2 ≤ p ∧ mem.getD (p - 1) 0 = 13 ∧ mem.getD (p - 2) 0 = 10) then
        return (some (if mem.getD (p - 1) 0 = 13 then p - 1 else p), p + 1)
      else headerArea mem start stop fuel endHdr (p + 1)

/-- The headers of a part. -/
def partHeaders (mem : Str) (start : Nat) (endHdr : Option Nat) : Except Stop (List Hdr) :=
  match endHdr with
  | some e =>
      if start < e then do
        let r ← pjsipParseHeadersIn (mem.drop start) (e - start) false
        return r.1
      else .ok []
  | none => .ok []

/-- The type of a part: that of its last Content-Type header, or what the type of the body
implies. -/
def partType (hdr : List Hdr) (pct : MediaType) : MediaType :=
  let types := hdr.filterMap fun
    | .contentType media => some media
    | _ => none
  match types.getLast? with
  | some media => media
  | none =>
      if isWord pct.subtype ['d', 'i', 'g', 'e', 's', 't'] then
        ⟨str ['m', 'e', 's', 's', 'a', 'g', 'e'], str ['r', 'f', 'c', '8', '2', '2'], []⟩
      else ⟨str ['t', 'e', 'x', 't'], str ['p', 'l', 'a', 'i', 'n'], []⟩

/-- `parse_multipart_part`. -/
def parseMultipartPart (mem : Str) (start stop : Nat) (pct : MediaType) :
    Except Stop BodyPart := do
  let area ← headerArea mem start stop (bodyFuel mem) none start
  let hdr ← partHeaders mem start area.1
  return { hdr := hdr, contentType := partType hdr pct,
           data := (mem.drop area.2).take (stop - area.2) }

/-- `if (*(end_body-1) == c) --end_body`. -/
def trimByte (mem : Str) (c : UInt8) (endBody : Nat) : Nat :=
  if mem.getD (endBody - 1) 0 = c then endBody - 1 else endBody

/-- What stands behind a delimiter: the end of the body, the start of a part, or neither. -/
inductive Delimited where
  | closing
  | part (start : Nat)
  | bad
  deriving DecidableEq

/-- The bytes behind a delimiter that ends at `p`. -/
def afterDelim (mem : Str) (p : Nat) : Except Stop Delimited := do
  let c ← byteAt mem p
  if c = 45 ∧ p + 1 < mem.length ∧ mem.getD (p + 1) 0 = 45 then return .closing
  else
    let p ← runTo mem mem.length isSpace (bodyFuel mem) p
    let c ← byteAt mem p
    let p := if c = 13 then p + 1 else p
    let c ← byteAt mem p
    if c ≠ 10 then return .bad else return .part (p + 1)

/-- A turn of the loop over the parts; the state is the position of a delimiter. -/
def partTurn (mem delim : Str) (ctype : MediaType) (parts : List BodyPart) :
    EStateM Stop Nat (List BodyPart ⊕ Option (List BodyPart)) := fun curptr =>
  match afterDelim mem (curptr + delim.length) with
  | .error e => .error e curptr
  | .ok .closing => .ok (.inr (some parts)) curptr
  | .ok .bad => .ok (.inr none) curptr
  | .ok (.part start) =>
      match strstrFrom mem delim start with
      | none => .ok (.inr none) curptr
      | some next =>
          match parseMultipartPart mem start (trimByte mem 13 (trimByte mem 10 next)) ctype with
          | .error e => .error e curptr
          | .ok part => .ok (.inl (parts ++ [part])) next

/-- The loop over the parts. -/
def parseParts (mem delim : Str) (ctype : MediaType) :
    List BodyPart → EStateM Stop Nat (Option (List BodyPart)) :=
  Consume.loop (fun _ => bodyFuel mem) .diverges (partTurn mem delim ctype)

/-- `pjsip_multipart_parse`. -/
def pjsipMultipartParse (mem : Str) (ctype : MediaType) : Except Stop (Option Body) := do
  if mem = [] then .error .assertion
  else
    let boundary ← findBoundary mem ctype
    match boundary with
    | none => return none
    | some boundary =>
        let delim := [45, 45] ++ boundary
        match strstrFrom mem delim 0 with
        | none => return none
        | some curptr =>
            match parseParts mem delim ctype [] curptr with
            | .error e _ => .error e
            | .ok parts _ => return parts.map (.multipart ctype boundary)

/-! ## Start lines -/

/-- `is_next_sip_version`. -/
def isNextSipVersion : Parser Bool := do
  let next ← scanPeek alphaSpec
  return decide (next.2 = 47 ∨ next.2 = 32 ∨ next.2 = 9) && isWord next.1 ['S', 'I', 'P']

/-- `int_parse_req_line`. -/
def intParseReqLine : Parser StartLine := do
  let token ← scanGet tokenSpec
  let uri ← intParseUri true
  parseSipVersion
  scanGetNewline
  return .request (methodInit token) uri

/-- The reason of a status line. -/
def parseReason : Parser Str := do
  let c ← curChar
  if isNewline c then return [] else scanGet notNewline

/-- `int_parse_status_line`. -/
def intParseStatusLine : Parser StartLine := do
  parseSipVersion
  let token ← scanGet digitSpec
  let reason ← parseReason
  scanGetNewline
  return .status (strtoi token) reason

/-- The newlines in front of a message. -/
def skipLeadingNewlines : Parser Unit :=
  scanLoop (fun _ => do
    let c ← curChar
    if isNewline c then
      scanGetNewline
      return .inl ()
    else return .inr ()) ()

/-- What the message is: nothing, a response (`true`) or a request. -/
def msgKind : Parser (Option Bool) := do
  skipLeadingNewlines
  let eof ← scanIsEof
  if eof then return none
  else
    let isStatus ← isNextSipVersion
    return some isStatus

/-! ## Messages -/

/-- The text of an error in the start line. -/
def startLineName (isStatus : Bool) : Str :=
  if isStatus then str ['S', 't', 'a', 't', 'u', 's', ' ', 'L', 'i', 'n', 'e']
  else str ['R', 'e', 'q', 'u', 'e', 's', 't', ' ', 'L', 'i', 'n', 'e']

/-- The body: the rest of the message, if there is a Content-Type header. -/
def parseBody (ctypeHdr : Option MediaType) (c : Ctx) : Except Stop (Option Body) :=
  match ctypeHdr with
  | none => .ok none
  | some media =>
      if c.sc.curptr = c.lim then .ok none
      else if isWord media.type ['m', 'u', 'l', 't', 'i', 'p', 'a', 'r', 't'] then
        pjsipMultipartParse (c.sc.buf.drop c.sc.curptr) media
      else .ok (some (.text media ((c.sc.buf.drop c.sc.curptr).take (c.lim - c.sc.curptr))))

/-- What `int_parse_msg` leaves: the message, the errors, and what it has put into `rdata`. -/
structure Parsed where
  msg : Option SipMsg
  errList : List ErrReport
  rdata : Option MsgInfo
  deriving DecidableEq

/-- The headers and the body of a message with the start line `line`. -/
def parseAfterStart (isStatus : Bool) (line : StartLine) (c : Ctx) : Except Stop Parsed :=
  match parseLines false Lines.empty c with
  | .error e _ => .error e
  | .ok (.thrown l) c => .ok { msg := none, errList := l.errList, rdata := c.rdata }
  | .ok (.section l) c => do
      let r ← attempt eatEmptyLine c
      match r.1 with
      | none =>
          return { msg := none, errList := l.errList ++ [r.2.report (startLineName isStatus)],
                   rdata := r.2.rdata }
      | some _ =>
          let body ← parseBody l.ctypeHdr r.2
          return { msg := some ⟨line, l.hdr, body⟩, errList := l.errList, rdata := r.2.rdata }

/-- `int_parse_msg`. -/
def intParseMsg (c : Ctx) : Except Stop Parsed := do
  let kind ← attempt msgKind c
  match kind.1 with
  | none => return { msg := none, errList := [kind.2.report []], rdata := kind.2.rdata }
  | some none => return { msg := none, errList := [], rdata := kind.2.rdata }
  | some (some isStatus) =>
      let line ← attempt (if isStatus then intParseStatusLine else intParseReqLine) kind.2
      match line.1 with
      | none =>
          return { msg := none, errList := [line.2.report (startLineName isStatus)],
                   rdata := line.2.rdata }
      | some l => parseAfterStart isStatus l line.2

/-- `pjsip_parse_msg`. -/
def pjsipParseMsg (buf : Str) : Except Stop Parsed := do
  let c ← initCtx buf buf.length none
  intParseMsg c

/-- `pjsip_parse_rdata`. -/
def pjsipParseRdata (buf : Str) (rdata : MsgInfo) : Except Stop Parsed := do
  let c ← initCtx buf buf.length (some rdata)
  intParseMsg c

end SipParser
