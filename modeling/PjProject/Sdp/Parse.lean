import PjProject.Sdp.Session

set_option autoImplicit false

/-! # Parsing a session description

`pjmedia_sdp_parse` of `pjmedia/src/pjmedia/sdp.c`, on the scanner of `PjProject.Scan.Scanner`. A
line parser throws a syntax error; the status that is returned then is the one that the parser has
set at its start (`last_error`), which is the outcome `status`. The scanner's other outcomes stay
what they are.
-/

namespace Sdp

open MachineInt Scan

/-- How parsing can end other than with a session. -/
inductive ParseStop where
  | status (e : Status)
  | scanner (s : Stop)
  deriving DecidableEq

/-- `ctx->last_error = e` before a line is parsed. -/
def onLine {α : Type} (e : Status) (x : Except Stop α) : Except ParseStop α :=
  match x with
  | .ok a => .ok a
  | .error .syntaxErr => .error (.status e)
  | .error s => .error (.scanner s)

/-! ## Line parsers -/

/-- `if (*(scanner->curptr + 1) != '=') on_scanner_error(scanner)`. -/
def checkEqual (sc : PjScanner) : Except Stop Unit := do
  let c ← sc.charAt (sc.curptr + 1)
  if c = 61 then return () else .error .syntaxErr

/-- `pj_scan_get_until_ch` with the text of the token. -/
def untilCh (sc : PjScanner) (ch : Int) : Except Stop (PjScanner × Str) := do
  let r ← pjScanGetUntilCh sc ch
  return (r.1, r.1.text r.2)

/-- `pj_scan_get_until_chr` with the text of the token. -/
def untilChr (sc : PjScanner) (spec : Str) : Except Stop (PjScanner × Str) := do
  let r ← pjScanGetUntilChr sc spec
  return (r.1, r.1.text r.2)

/-- `pj_scan_get(scanner, &cs_token, ...)` with the text of the token. -/
def getToken (sc : PjScanner) : Except Stop (PjScanner × Str) := do
  let r ← pjScanGet sc csToken
  return (r.1, r.1.text r.2)

/-- A field that ends at a space, and the space. -/
def fieldAndSpace (sc : PjScanner) : Except Stop (PjScanner × Str) := do
  let r ← untilCh sc 32
  let c ← pjScanGetChar r.1
  return (c.1, r.2)

/-- `" \t\r\n"`. -/
def endOfField : Str := [32, 9, 13, 10]

/-- `parse_version`. -/
def parseVersion (sc : PjScanner) : Except Stop PjScanner := do
  checkEqual sc
  let c ← sc.charAt (sc.curptr + 2)
  if c = 48 then pjScanSkipLine sc else .error .syntaxErr

/-- `parse_origin`. -/
def parseOrigin (sc : PjScanner) : Except Stop (PjScanner × Origin) := do
  checkEqual sc
  let sc ← pjScanAdvanceN sc 2 false
  let user ← fieldAndSpace sc
  let id ← fieldAndSpace user.1
  let version ← fieldAndSpace id.1
  let netType ← fieldAndSpace version.1
  let addrType ← fieldAndSpace netType.1
  let addr ← untilChr addrType.1 endOfField
  let sc ← pjScanSkipLine addr.1
  return (sc, ⟨user.2, uint32 (pjStrtoul id.2), uint32 (pjStrtoul version.2), netType.2, addrType.2,
    addr.2⟩)

/-- `parse_time`. -/
def parseTime (sc : PjScanner) : Except Stop (PjScanner × Nat × Nat) := do
  checkEqual sc
  let sc ← pjScanAdvanceN sc 2 false
  let start ← fieldAndSpace sc
  let stop ← untilChr start.1 endOfField
  let sc ← pjScanSkipLine stop.1
  return (sc, uint32 (pjStrtoul start.2), uint32 (pjStrtoul stop.2))

/-- `parse_generic_line`. -/
def parseGenericLine (sc : PjScanner) : Except Stop (PjScanner × Str) := do
  checkEqual sc
  let sc ← pjScanAdvanceN sc 2 false
  let s ← untilChr sc [13, 10]
  let sc ← pjScanGetNewline s.1
  return (sc, s.2)

/-- `parse_connection_info`. -/
def parseConnectionInfo (sc : PjScanner) : Except Stop (PjScanner × Conn) := do
  let sc ← pjScanAdvanceN sc 2 false
  let netType ← fieldAndSpace sc
  let addrType ← fieldAndSpace netType.1
  let addr ← untilChr addrType.1 (47 :: endOfField)
  let sc ← pjScanSkipLine addr.1
  return (sc, ⟨netType.2, addrType.2, addr.2⟩)

/-- `parse_bandwidth_info`. -/
def parseBandwidthInfo (sc : PjScanner) : Except Stop (PjScanner × Bandw) := do
  let sc ← pjScanAdvanceN sc 2 false
  let modifier ← untilCh sc 58
  let c ← pjScanGetChar modifier.1
  let value ← untilChr c.1 endOfField
  let sc ← pjScanSkipLine value.1
  return (sc, ⟨modifier.2, uint32 (pjStrtoul value.2)⟩)

/-- The port count of `parse_media`. -/
def parsePortCount (sc : PjScanner) : Except Stop (PjScanner × Nat) := do
  let c ← sc.charAt sc.curptr
  if c = 47 then
    let r ← pjScanGetChar sc
    let r ← getToken r.1
    return (r.1, uint32 (pjStrtoul r.2))
  else return (sc, 0)

/-- The format list of `parse_media`. A format too many is ignored. -/
def parseFmts : Nat → PjScanner → List Str → Except Stop (PjScanner × List Str)
  | 0, _, _ => .error .diverges
  | fuel + 1, sc, fmt => do
      let c ← sc.charAt sc.curptr
      if c = 32 then
        let r ← pjScanGetChar sc
        let c ← r.1.charAt r.1.curptr
        if c = 13 ∨ c = 10 then return (r.1, fmt)
        else
          let r ← getToken r.1
          parseFmts fuel r.1 (if fmt.length < maxFmt then fmt ++ [r.2] else fmt)
      else return (sc, fmt)

/-- `if (pj_scan_get_char(scanner) != ' ') PJ_THROW(SYNTAX_ERROR)`. -/
def expectSpace (sc : PjScanner) : Except Stop PjScanner := do
  let r ← pjScanGetChar sc
  if r.2 = 32 then return r.1 else .error .syntaxErr

/-- `parse_media`. -/
def parseMedia (sc : PjScanner) : Except Stop (PjScanner × MediaDesc) := do
  checkEqual sc
  let sc ← pjScanAdvanceN sc 2 false
  let media ← fieldAndSpace sc
  let port ← getToken media.1
  let count ← parsePortCount port.1
  let sc ← expectSpace count.1
  let transport ← untilChr sc endOfField
  let fmt ← parseFmts transport.1.fuel transport.1 []
  let sc ← pjScanSkipLine fmt.1
  return (sc, ⟨media.2, pjStrtoul port.2 % 65536, count.2, transport.2, fmt.2⟩)

/-- The `':'` that `parse_attr` skips if it is there. -/
def skipColon (sc : PjScanner) : Except Stop PjScanner := do
  let c ← sc.charAt sc.curptr
  if c = 58 then
    let r ← pjScanGetChar sc
    return r.1
  else return sc

/-- The value of `parse_attr`. -/
def parseAttrValue (sc : PjScanner) : Except Stop (PjScanner × Str) := do
  let c ← sc.charAt sc.curptr
  if c ≠ 0 ∧ c ≠ 13 ∧ c ≠ 10 then
    let sc ← skipColon sc
    let c ← sc.charAt sc.curptr
    if c ≠ 13 ∧ c ≠ 10 then untilChr sc [13, 10] else return (sc, [])
  else return (sc, [])

/-- `parse_attr`. -/
def parseAttr (sc : PjScanner) : Except Stop (PjScanner × Attr) := do
  checkEqual sc
  let sc ← pjScanAdvanceN sc 2 false
  let name ← getToken sc
  let value ← parseAttrValue name.1
  let sc ← pjScanSkipLine value.1
  return (sc, ⟨name.2, value.2⟩)

/-! ## The session -/

/-- What the lines `a`, `b` and `c` are added to: the session, its last media line, or a media
line that did not fit into the session. -/
inductive Target where
  | session
  | media
  | ignored (m : Media)
  deriving DecidableEq

/-- The session parsed so far. -/
structure ParseState where
  session : Session
  target : Target
  deriving DecidableEq

/-- The session before the first line. -/
def Session.zero : Session :=
  ⟨⟨[], 0, 0, [], [], []⟩, [], none, [], 0, 0, [], []⟩

/-- The media line that is parsed is changed. -/
def ParseState.onMedia (st : ParseState) (f : Media → Media) : ParseState :=
  { st with session := { st.session with media := st.session.media.modifyLast f } }

def ParseState.addAttr (st : ParseState) (a : Attr) : ParseState :=
  match st.target with
  | .session => { st with session := { st.session with attr := attrAdd st.session.attr a } }
  | .media => st.onMedia fun m => m.addAttr a
  | .ignored m => { st with target := .ignored (m.addAttr a) }

def ParseState.setConn (st : ParseState) (c : Conn) : ParseState :=
  match st.target with
  | .session => { st with session := { st.session with conn := some c } }
  | .media => st.onMedia fun m => { m with conn := some c }
  | .ignored m => { st with target := .ignored { m with conn := some c } }

/-- The bandwidths of the target. -/
def ParseState.bandw (st : ParseState) : List Bandw :=
  match st.target with
  | .session => st.session.bandw
  | .media => (st.session.media.getLast?.map (·.bandw)).getD []
  | .ignored m => m.bandw

/-- `bandw[bandw_count++] = bandw`, without a check of the count. -/
def ParseState.addBandw (st : ParseState) (b : Bandw) : Except ParseStop ParseState :=
  if st.bandw.length < maxBandw then
    .ok (match st.target with
      | .session => { st with session := { st.session with bandw := st.session.bandw ++ [b] } }
      | .media => st.onMedia fun m => { m with bandw := m.bandw ++ [b] }
      | .ignored m => { st with target := .ignored { m with bandw := m.bandw ++ [b] } })
  else .error (.scanner .outOfBounds)

def ParseState.addMedia (st : ParseState) (d : MediaDesc) : ParseState :=
  let m : Media := ⟨d, none, [], []⟩
  if st.session.media.length < maxMedia then
    ⟨{ st.session with media := st.session.media ++ [m] }, .media⟩
  else { st with target := .ignored m }

/-- Newlines at the end of the message. -/
def trailingNewlines : Nat → PjScanner → Except Stop PjScanner
  | 0, _ => .error .diverges
  | fuel + 1, sc =>
      if sc.curptr ≥ sc.endPos then .ok sc
      else do
        let c ← sc.charAt sc.curptr
        if c ≠ 13 ∧ c ≠ 10 then .error .syntaxErr
        else
          let r ← pjScanGetChar sc
          trailingNewlines fuel r.1

/-- The `switch` of `pjmedia_sdp_parse` over the first character of a line. -/
def parseLine (sc : PjScanner) (st : ParseState) : Except ParseStop (PjScanner × ParseState) := do
  let c ← onLine .einsdp (sc.charAt sc.curptr)
  if c = 97 then
    let r ← onLine .einattr (parseAttr sc)
    return (r.1, st.addAttr r.2)
  else if c = 111 then
    let r ← onLine .einorigin (parseOrigin sc)
    return (r.1, { st with session := { st.session with origin := r.2 } })
  else if c = 115 then
    let r ← onLine .einsdp (parseGenericLine sc)
    return (r.1, { st with session := { st.session with name := r.2 } })
  else if c = 99 then
    let r ← onLine .einconn (parseConnectionInfo sc)
    return (r.1, st.setConn r.2)
  else if c = 116 then
    let r ← onLine .eintime (parseTime sc)
    return (r.1, { st with session := { st.session with start := r.2.1, stop := r.2.2 } })
  else if c = 109 then
    let r ← onLine .einmedia (parseMedia sc)
    return (r.1, st.addMedia r.2)
  else if c = 118 then
    let sc ← onLine .einver (parseVersion sc)
    return (sc, st)
  else if c = 13 ∨ c = 10 then
    let r ← onLine .einsdp (pjScanGetChar sc)
    let sc ← onLine .einsdp (trailingNewlines r.1.fuel r.1)
    return (sc, st)
  else if c = 98 then
    let r ← onLine .einbandw (parseBandwidthInfo sc)
    let st ← st.addBandw r.2
    return (r.1, st)
  else if 97 ≤ c ∧ c ≤ 122 then
    let r ← onLine .einsdp (parseGenericLine sc)
    return (r.1, st)
  else .error (.status .einsdp)

/-- The main loop of `pjmedia_sdp_parse`. -/
def parseLoop : Nat → PjScanner → ParseState → Except ParseStop ParseState
  | 0, _, _ => .error (.scanner .diverges)
  | fuel + 1, sc, st =>
      if sc.curptr ≥ sc.endPos then .ok st
      else do
        let r ← parseLine sc st
        parseLoop fuel r.1 r.2

/-- The leading newlines that are ignored. -/
def leadingNewlines : Nat → PjScanner → Except Stop PjScanner
  | 0, _ => .error .diverges
  | fuel + 1, sc => do
      let c ← sc.charAt sc.curptr
      if c = 13 ∨ c = 10 then
        let r ← pjScanGetChar sc
        leadingNewlines fuel r.1
      else return sc

/-! ## Direction of the session -/

/-- A direction that a session hands down to its media lines. -/
def isSessionDir (a : Attr) : Bool :=
  a.name == strSendonly || a.name == strRecvonly || a.name == strInactive

/-- A direction of a media line. -/
def isMediaDir (a : Attr) : Bool := a.name == strSendrecv || isSessionDir a

/-- `apply_media_direction`. -/
def applyMediaDirection (sdp : Session) : Session :=
  match sdp.attr.find? isSessionDir with
  | none => sdp
  | some a =>
      { sdp with attr := sdp.attr.eraseP isSessionDir
                 media := sdp.media.map fun m => if m.attr.any isMediaDir then m else m.addAttr a }

/-- `pjmedia_sdp_parse`. -/
def sdpParse (buf : Str) : Except ParseStop Session := do
  let sc ← onLine .einsdp (pjScanInit buf 0)
  let sc ← onLine .einsdp (leadingNewlines sc.fuel sc)
  let st ← parseLoop sc.fuel sc ⟨.zero, .session⟩
  return applyMediaDirection st.session

end Sdp
