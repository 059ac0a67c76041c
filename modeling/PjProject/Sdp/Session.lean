import PjProject.Library.MachineInt
import PjProject.Scan.Scanner

set_option autoImplicit false

/-! # Session descriptions

The data of `pjmedia/include/pjmedia/sdp.h` and the functions of `pjmedia/src/pjmedia/sdp.c` that
work on it: attributes, `rtpmap`, cloning with deactivation and validation.

A `pj_str_t` is the list of its bytes. A counted array is the list of its elements, so cloning a
description is the identity. `unsigned long` is 64 bits wide; what is stored in an `unsigned` or
a `pj_uint32_t` is reduced by `uint32`.
-/

namespace Sdp

open MachineInt Scan

/-- The bytes of a `pj_str_t`. -/
abbrev Str := List UInt8

/-- A string constant of the source. -/
def str (l : List Char) : Str := l.map fun c => c.toNat.toUInt8

/-- `PJMEDIA_MAX_SDP_FMT`. -/
def maxFmt : Nat := 32

/-- `PJMEDIA_MAX_SDP_BANDW`. -/
def maxBandw : Nat := 4

/-- `PJMEDIA_MAX_SDP_ATTR`, which is `PJMEDIA_MAX_SDP_FMT*2 + 4`. -/
def maxAttr : Nat := 68

/-- `PJMEDIA_MAX_SDP_MEDIA`. -/
def maxMedia : Nat := 16

/-- `pjmedia_sdp_attr`. -/
structure Attr where
  name : Str
  value : Str
  deriving DecidableEq

/-- `pjmedia_sdp_conn`. -/
structure Conn where
  netType : Str
  addrType : Str
  addr : Str
  deriving DecidableEq

/-- `pjmedia_sdp_bandw`. -/
structure Bandw where
  modifier : Str
  value : Nat
  deriving DecidableEq

/-- The `desc` of a `pjmedia_sdp_media`: its `m=` line. -/
structure MediaDesc where
  media : Str
  port : Nat
  portCount : Nat
  transport : Str
  fmt : List Str
  deriving DecidableEq

/-- `pjmedia_sdp_media`. -/
structure Media where
  desc : MediaDesc
  conn : Option Conn
  bandw : List Bandw
  attr : List Attr
  deriving DecidableEq

/-- The `origin` of a session. -/
structure Origin where
  user : Str
  id : Nat
  version : Nat
  netType : Str
  addrType : Str
  addr : Str
  deriving DecidableEq

/-- `pjmedia_sdp_session`. `start` and `stop` are its `time`. -/
structure Session where
  origin : Origin
  name : Str
  conn : Option Conn
  bandw : List Bandw
  start : Nat
  stop : Nat
  attr : List Attr
  media : List Media
  deriving DecidableEq

/-- The error statuses of the SDP functions. -/
inductive Status where
  | einval
  | ebug
  | einstate
  | enoinitial
  | enoactive
  | emissingrtpmap
  | einorigin
  | einname
  | einconn
  | einmedia
  | enofmt
  | emissingconn
  | einpt
  | einver
  | eintime
  | einsdp
  | einbandw
  | einattr
  | einvansmedia
  | einvanstp
  | eansnomedia
  | enomedia
  | noanscodec
  | noansunknown
  deriving DecidableEq

/-- How a call can go wrong other than by returning a status: a `pj_assert` is false, or it writes
behind the end of an array. -/
inductive Fault where
  | assertion
  | outOfBounds
  deriving DecidableEq

/-! ## Strings -/

/-- `pj_isdigit`. -/
def isDigit (c : UInt8) : Bool := 48 ≤ c && c ≤ 57

/-- `value * 10 + (c - '0')` in an `unsigned long`. -/
@[irreducible] def addDigit (value : Nat) (c : UInt8) : Nat :=
  (value * 10 + (c.toNat - 48)) % 18446744073709551616

/-- `pj_strtoul`, and `pj_strtoul2` with the base 10. -/
def pjStrtoul (s : Str) : Nat := (s.takeWhile isDigit).foldl addDigit 0

/-- `(unsigned)pj_strtoul(s)`. -/
def ptOf (s : Str) : Nat := uint32 (pjStrtoul s)

/-- `*s.ptr`; the byte of an empty string is taken to be its terminating NUL. -/
def firstChar (s : Str) : UInt8 := s.headD 0

/-- `pj_tolower`. -/
def toLower (c : UInt8) : UInt8 := if 65 ≤ c && c ≤ 90 then c + 32 else c

/-- `pj_ansi_strnicmp(s, t, n) == 0` for the common length `n`: the comparison ends at a NUL. -/
def strnicmpEq : Str → Str → Bool
  | a :: s, b :: t => toLower a == toLower b && (a == 0 || strnicmpEq s t)
  | _, _ => true

/-- `pj_stricmp(s, t) == 0`. -/
def stricmpEq (s t : Str) : Bool := s.length == t.length && strnicmpEq s t

/-! ## Attributes -/

def strRtpmap : Str := str ['r', 't', 'p', 'm', 'a', 'p']

def strFmtp : Str := str ['f', 'm', 't', 'p']

def strInactive : Str := str ['i', 'n', 'a', 'c', 't', 'i', 'v', 'e']

def strSendrecv : Str := str ['s', 'e', 'n', 'd', 'r', 'e', 'c', 'v']

def strSendonly : Str := str ['s', 'e', 'n', 'd', 'o', 'n', 'l', 'y']

def strRecvonly : Str := str ['r', 'e', 'c', 'v', 'o', 'n', 'l', 'y']

/-- The test of `pjmedia_sdp_attr_find`. -/
def attrIs (name : Str) (fmt : Option Str) (a : Attr) : Bool :=
  a.name == name &&
    match fmt with
    | some f => ptOf a.value == ptOf f
    | none => true

/-- `pjmedia_sdp_attr_find`. -/
def attrFind (l : List Attr) (name : Str) (fmt : Option Str) : Option Attr :=
  l.find? (attrIs name fmt)

/-- `pjmedia_sdp_media_find_attr`, and `find_attr2` for a constant name. -/
def Media.findAttr (m : Media) (name : Str) (fmt : Option Str) : Option Attr :=
  attrFind m.attr name fmt

/-- `pjmedia_sdp_attr_add`. A full array keeps its attributes. -/
def attrAdd (l : List Attr) (a : Attr) : List Attr :=
  if l.length < maxAttr then l ++ [a] else l

/-- `pjmedia_sdp_media_add_attr`. -/
def Media.addAttr (m : Media) (a : Attr) : Media := { m with attr := attrAdd m.attr a }

/-- `pjmedia_sdp_attr_remove_all`. -/
def attrRemoveAll (l : List Attr) (name : Str) : List Attr := l.filter fun a => a.name != name

/-- `pjmedia_sdp_media_remove_all_attr`. -/
def Media.removeAllAttr (m : Media) (name : Str) : Media :=
  { m with attr := attrRemoveAll m.attr name }

/-- `pjmedia_sdp_attr_remove` of the attribute that `pjmedia_sdp_attr_find` has returned. The
attributes of one array are distinct objects, so only this one is removed. -/
def attrRemove (l : List Attr) (name : Str) (fmt : Option Str) : List Attr :=
  l.eraseP (attrIs name fmt)

/-- `find_attr2` and, if there is one, `pjmedia_sdp_media_remove_attr` of it. -/
def Media.removeAttr (m : Media) (name : Str) (fmt : Option Str) : Media :=
  { m with attr := attrRemove m.attr name fmt }

/-! ## The `rtpmap` attribute -/

/-- The characters of `TOKEN`, by their codes. -/
def tokenChars : Str := [33, 35, 36, 37, 38, 39, 42, 43, 45, 46, 94, 95, 96, 123, 124, 125, 126]

/-- A letter: `pj_cis_add_alpha`. -/
def isAlpha (c : UInt8) : Bool := (65 ≤ c && c ≤ 90) || (97 ≤ c && c ≤ 122)

/-- `cs_token`. -/
def csToken : PjCis where
  mem c := isAlpha c || isDigit c || tokenChars.contains c
  mem_zero := by decide

/-- `cs_digit`. -/
def csDigit : PjCis where
  mem := isDigit
  mem_zero := by decide

/-- `pjmedia_sdp_rtpmap`. -/
structure Rtpmap where
  pt : Str
  encName : Str
  clockRate : Nat
  param : Str
  deriving DecidableEq

/-- What `pjmedia_sdp_attr_get_rtpmap` has stored when it starts to parse. -/
def Rtpmap.init : Rtpmap := ⟨[], [], 0, []⟩

/-- The part of `pjmedia_sdp_attr_get_rtpmap` behind the clock rate. -/
def rtpmapParam (sc : PjScanner) (r : Rtpmap) : Rtpmap :=
  if sc.charAt sc.curptr = .ok 47 then
    match pjScanGetChar sc with
    | .ok (sc, _) => { r with param := sc.buf.drop sc.curptr }
    | .error _ => r
  else r

/-- The part behind the encoding name: `'/'` and the clock rate. -/
def rtpmapClock (sc : PjScanner) (r : Rtpmap) : Rtpmap :=
  match pjScanGetChar sc with
  | .error _ => r
  | .ok (sc, c) =>
      if c ≠ 47 then r
      else match pjScanGet sc csDigit with
        | .error _ => r
        | .ok (sc, token) =>
            rtpmapParam sc { r with clockRate := uint32 (pjStrtoul (sc.text token)) }

/-- `pjmedia_sdp_attr_get_rtpmap`. Its callers do not look at the status, so what counts is what
it has stored when the text is not that of an `rtpmap`. An empty value fails an assertion. -/
def attrGetRtpmap (a : Attr) : Except Fault Rtpmap :=
  if a.value.length = 0 then .error .assertion
  else
    -- Parsing with PJ_SCAN_AUTOSKIP_WS; an exception ends it where it stands.
    match pjScanInit a.value 1 with
    | .error _ => .ok .init
    | .ok sc =>
        match pjScanGet sc csToken with
        | .error _ => .ok .init
        | .ok (sc, pt) =>
            let r := { Rtpmap.init with pt := sc.text pt }
            match pjScanGet sc csToken with
            | .error _ => .ok r
            | .ok (sc, enc) => .ok (rtpmapClock sc { r with encName := sc.text enc })

/-! ## Deactivation -/

/-- `pjmedia_sdp_media_deactivate`. -/
def Media.deactivate (m : Media) : Media :=
  { m with desc := { m.desc with port := 0 }, attr := [] }

/-- `pjmedia_sdp_media_clone_deactivate`. -/
def Media.cloneDeactivate (m : Media) : Media := m.deactivate

/-! ## Validation -/

def strIN : Str := str ['I', 'N']

def strIP4 : Str := str ['I', 'P', '4']

def strIP6 : Str := str ['I', 'P', '6']

/-- `CHECK`. -/
def check (c : Bool) (e : Status) : Except Status Unit := if c then .ok () else .error e

/-- `validate_sdp_conn`. -/
def validateSdpConn (c : Conn) : Except Status Unit := do
  check (c.netType == strIN) .einconn
  check (c.addrType == strIP4 || c.addrType == strIP6) .einconn
  check (c.addr.length != 0) .einconn

/-- The connection line that may be there. -/
def validateConn? : Option Conn → Except Status Unit
  | some c => validateSdpConn c
  | none => .ok ()

/-- The check of one payload type. -/
def validateFmt (m : Media) (f : Str) : Except Status Unit :=
  if isDigit (firstChar f) then do
    check (ptOf f ≤ 127) .einpt
    check (!(m.desc.port != 0 && 96 ≤ ptOf f) || (m.findAttr strRtpmap (some f)).isSome)
      .emissingrtpmap
  else .ok ()

/-- The check of one media line. -/
def validateMedia (strict : Bool) (sdp : Session) (m : Media) : Except Status Unit := do
  check (m.desc.media.length != 0) .einmedia
  check (m.desc.transport.length != 0) .einmedia
  check (m.desc.fmt.length != 0 || m.desc.port == 0) .enofmt
  validateConn? m.conn
  check (!(m.conn.isNone && sdp.conn.isNone && (strict || m.desc.port != 0))) .emissingconn
  m.desc.fmt.forM (validateFmt m)

/-- `pjmedia_sdp_validate2`. -/
def validate2 (sdp : Session) (strict : Bool) : Except Status Unit := do
  check (sdp.origin.user.length != 0) .einorigin
  check (sdp.origin.netType == strIN) .einorigin
  check (sdp.origin.addrType == strIP4 || sdp.origin.addrType == strIP6) .einorigin
  check (sdp.origin.addr.length != 0) .einorigin
  check (sdp.name.length != 0) .einname
  validateConn? sdp.conn
  sdp.media.forM (validateMedia strict sdp)

/-- `pjmedia_sdp_validate`. -/
def validate (sdp : Session) : Except Status Unit := validate2 sdp true

/-- `pjmedia_sdp_transport_cmp`. -/
def transportCmp (t1 t2 : Str) : Bool :=
  let rtpAvp := str ['R', 'T', 'P', '/', 'A', 'V', 'P']
  let rtpSavp := str ['R', 'T', 'P', '/', 'S', 'A', 'V', 'P']
  stricmpEq t1 t2 ||
    ((stricmpEq t1 rtpAvp || stricmpEq t1 rtpSavp) && (stricmpEq t2 rtpAvp || stricmpEq t2 rtpSavp))

end Sdp
