import PjProject.Scan.Runs
import PjProject.Library.MachineInt
import PjProject.Library.Consume
import PjProject.Parser.Data

set_option autoImplicit false

/-! # Reading

The handlers of `sip_parser.c` are written as programs over `Ctx`, the parse context: they read with
the operations of `pj_scanner`, and the `PJ_THROW` of `on_syntax_error` is the exception
`syntaxErr`. The scanner stays where the exception left it.

The bytes of `sc.buf` are the memory from `begin` on, up to a NUL behind them. The scanner ends at
`lim`: at that NUL for a whole message, before it for the header section of a part of a body. Most
operations do not look at `lim`; those that do are defined here.
-/

namespace SipParser

open Scan Scan.PjScanner
open Sdp (Str str)

/-- `pjsip_parse_ctx`, and the variable `hname` of the functions that parse a list of headers. -/
structure Ctx where
  sc : PjScanner
  lim : Nat
  rdata : Option MsgInfo
  hname : Str
  deriving DecidableEq

/-- A function of the parser. -/
abbrev Parser (α : Type) := EStateM Stop Ctx α

/-- `while (PJ_SCAN_CHECK_EOF(s) && p(*s)) ++s`, for the end `lim`. -/
def skipWhileTo (sc : PjScanner) (lim : Nat) (p : UInt8 → Bool) : Nat → Nat → Except Stop Nat
  | 0, _ => .error .diverges
  | fuel + 1, s =>
      if s ≠ lim then do
        let c ← sc.charAt s
        if p c then skipWhileTo sc lim p fuel (s + 1) else return s
      else .ok s

/-! ## The operations -/

/-- An operation that only looks. -/
def look {α : Type} (f : PjScanner → Nat → Except Stop α) : Parser α := fun c =>
  match f c.sc c.lim with
  | .ok a => .ok a c
  | .error e => .error e c

/-- An operation that moves the cursor. -/
def move {α : Type} (f : PjScanner → Nat → Except Stop (PjScanner × α)) : Parser α := fun c =>
  match f c.sc c.lim with
  | .ok (sc, a) => .ok a { c with sc := sc }
  | .error e => .error e c

/-- The bytes of the token that an operation finds. -/
def withText (r : PjScanner × PjStr) : PjScanner × Str := (r.1, r.1.text r.2)

/-- `*scanner->curptr`. -/
def curChar : Parser UInt8 := look fun sc _ => sc.charAt sc.curptr

/-- `pj_scan_is_eof`. -/
def scanIsEof : Parser Bool := look fun sc lim => .ok (decide (lim ≤ sc.curptr))

/-- `pj_scan_get`. -/
def scanGet (spec : PjCis) : Parser Str := move fun sc _ => do return withText (← pjScanGet sc spec)

/-- `pj_scan_get_char`. -/
def scanGetChar : Parser Int := move fun sc _ => pjScanGetChar sc

/-- `pj_scan_get_newline`. -/
def scanGetNewline : Parser Unit := move fun sc _ => do return (← pjScanGetNewline sc, ())

/-- `pj_scan_skip_whitespace`. -/
def scanSkipWhitespace : Parser Unit := move fun sc _ => do return (← pjScanSkipWhitespace sc, ())

/-- `scanner->skip_ws`. -/
def getSkipWs : Parser Nat := look fun sc _ => .ok sc.skipWs

/-- `scanner->skip_ws = flags`. -/
def setSkipWs (flags : Nat) : Parser Unit := move fun sc _ => .ok ({ sc with skipWs := flags }, ())

/-- `pj_scan_peek`. -/
def scanPeek (spec : PjCis) : Parser (Str × UInt8) := look fun sc lim =>
  if lim ≤ sc.curptr then .error .syntaxErr
  else do
    let s ← sc.skipWhile spec.mem sc.fuel sc.curptr
    let c ← sc.charAt s
    return (sc.text (sc.strset3 s), c)

/-- `pj_scan_get_n`. -/
def scanGetN (n : Nat) : Parser Str := move fun sc lim =>
  if lim < sc.curptr + n then .error .syntaxErr
  else do
    let out : PjStr := ⟨sc.curptr, n⟩
    let sc ← autoSkip { sc with curptr := sc.curptr + n } sc.skips
    return withText (sc, out)

/-- `pj_scan_get_until_ch`. -/
def scanGetUntilCh (untilChar : UInt8) : Parser Str := move fun sc lim =>
  if lim ≤ sc.curptr then .error .syntaxErr
  else do
    let s ← skipWhileTo sc lim (fun c => c != untilChar) sc.fuel sc.curptr
    let out := sc.strset3 s
    let sc ← autoSkip { sc with curptr := s } sc.skips
    return withText (sc, out)

/-- The main loop of `pj_scan_get_quotes`. -/
def quoteLoopTo (sc : PjScanner) (lim : Nat) (endQuote : UInt8) : Nat → Nat → Except Stop Nat
  | 0, _ => .error .diverges
  | fuel + 1, s => do
      let s ← skipWhileTo sc lim (fun c => c != 10 && c != endQuote) sc.fuel s
      let c ← sc.charAt s
      if c = endQuote then
        let p ← sc.charAtInt ((s : Int) - 1)
        if p = 92 then
          let q : Int := (s : Int) - 2
          let r ← backslashes sc sc.fuel q
          if (q - r) % 2 = 1 then return s else quoteLoopTo sc lim endQuote fuel (s + 1)
        else return s
      else return s

/-- `pj_scan_get_quote`. -/
def scanGetQuote (beginQuote endQuote : UInt8) : Parser Str := move fun sc lim => do
  let c ← sc.charAt sc.curptr
  if c ≠ beginQuote then .error .syntaxErr
  else
    let s ← quoteLoopTo sc lim endQuote sc.fuel (sc.curptr + 1)
    let c ← sc.charAt s
    if c ≠ endQuote then .error .syntaxErr
    else
      let out := sc.strset3 (s + 1)
      let sc ← autoSkip { sc with curptr := s + 1 } sc.skips
      return withText (sc, out)

/-- `pj_scan_skip_line`. -/
def scanSkipLine : Parser Unit := move fun sc lim => do
  let s ← sc.skipWhile (fun c => c != 10 && c != 0) sc.fuel sc.curptr
  let c ← sc.charAt s
  if c = 10 then
    return ({ sc with curptr := s + 1, startLine := s + 1, line := sc.line + 1 }, ())
  else return ({ sc with curptr := lim }, ())

/-! ## Character sets -/

def isAlpha (c : UInt8) : Bool := (65 ≤ c && c ≤ 90) || (97 ≤ c && c ≤ 122)

def isAlnum (c : UInt8) : Bool := isAlpha c || Sdp.isDigit c

/-- `pj_isspace`. -/
def isSpaceC (c : UInt8) : Bool := c == 32 || (9 ≤ c && c ≤ 13)

/-- A set of alphanumeric characters and the characters of a string. -/
def alnumAnd (l : List Char) : PjCis where
  mem c := (isAlnum c || (str l).contains c) && c != 0
  mem_zero := by simp

/-- All characters but NUL and those of a string: what `pj_cis_invert` leaves. -/
def allBut (l : List Char) : PjCis where
  mem c := !(str l).contains c && c != 0
  mem_zero := by simp

/-- `pjsip_DIGIT_SPEC`. -/
def digitSpec : PjCis where
  mem := Sdp.isDigit
  mem_zero := Sdp.csDigit.mem_zero

/-- `pjsip_ALPHA_SPEC`. -/
def alphaSpec : PjCis where
  mem := isAlpha
  mem_zero := by decide

/-- `pjsip_NOT_NEWLINE`. -/
def notNewline : PjCis := allBut ['\r', '\n']

/-- `pjsip_NOT_COMMA_OR_NEWLINE`. -/
def notCommaOrNewline : PjCis := allBut [',', '\r', '\n']

/-- `TOKEN`. -/
def tokenChars : List Char := ['-', '.', '!', '%', '*', '_', '\x60', '\'', '~', '+']

/-- `MARK`. -/
def markChars : List Char := ['-', '_', '.', '!', '~', '*', '\'', '(', ')']

/-- `pjsip_TOKEN_SPEC`. -/
def tokenSpec : PjCis := alnumAnd tokenChars

/-- `pjsip_VIA_PARAM_SPEC`. -/
def viaParamSpec : PjCis := alnumAnd (tokenChars ++ [':'])

/-- `pjsip_HOST_SPEC`. -/
def hostSpec : PjCis := alnumAnd ['_', '-', '.']

/-- `pjsip_PARAM_CHAR_SPEC`. -/
def paramCharSpec : PjCis := alnumAnd (['[', ']', '/', ':', '&', '+', '$'] ++ markChars ++ ['%'])

/-- `pjsip_HDR_CHAR_SPEC`. -/
def hdrCharSpec : PjCis :=
  alnumAnd (['[', ']', '/', '?', ':', '+', '$'] ++ markChars ++ ['%'])

/-- `pjsip_USER_SPEC_LENIENT`. -/
def userSpecLenient : PjCis :=
  alnumAnd (markChars ++ ['%'] ++ ['&', '=', '+', '$', ',', ';', '?', '/'] ++ ['#'])

/-- `pjsip_PASSWD_SPEC`. -/
def passwdSpec : PjCis := alnumAnd (markChars ++ ['%'] ++ ['&', '=', '+', '$', ','])

/-- `pjsip_PROBE_USER_HOST_SPEC`. -/
def probeUserHostSpec : PjCis := allBut ['@', ' ', '\n', '>']

/-- `pjsip_DISPLAY_SPEC`. -/
def displaySpec : PjCis := allBut [':', '\r', '\n', '<']

/-- `pjsip_OTHER_URI_CONTENT`. -/
def otherUriContent : PjCis :=
  alnumAnd ['#', '?', ';', ':', '@', '&', '=', '+', '-', '_', '.', '!', '~', '*', '\'', '(', ')',
    '%', '$', ',', '/', '%']

/-- `pjsip_TEL_NUMBER_SPEC`: the characters of `NUMBER_SPEC`. -/
def telNumberSpec : PjCis where
  mem c := (str ['0', '1', '2', '3', '4', '5', '6', '7', '8', '9', 'a', 'A', 'b', 'B', 'c', 'C', 'd',
    'D', 'e', 'E', 'f', 'F', '*', '#', '-', '.', '(', ')', '+']).contains c && c != 0
  mem_zero := by simp

/-- `pjsip_TEL_PARSING_PVALUE_SPEC`: the characters of `URIC` and of a parameter value, and `=`. -/
def telParsingPvalueSpec : PjCis :=
  alnumAnd (['/', ':', '@', '&', '$', ',', '+'] ++ markChars ++ ['%'] ++ ['[', ']', '+'] ++
    ['[', ']', '/', ':', '&', '+', '$'] ++ ['='])

/-! ## Strings -/

/-- `pj_str_unescape`. -/
def strUnescape : Str → Str
  | a :: h :: l :: s =>
      if a = 37 ∧ isXdigit h ∧ isXdigit l then
        ((hexDigitToVal h <<< 4) + hexDigitToVal l) :: strUnescape s
      else a :: strUnescape (h :: l :: s)
  | s => s

/-- `pj_strtrim`. -/
def strtrim (s : Str) : Str :=
  ((s.dropWhile isSpaceC).reverse.dropWhile isSpaceC).reverse

/-- `(int)pj_strtoul(s)`. -/
def strtoi (s : Str) : Int := MachineInt.int32 (Sdp.pjStrtoul s)

/-- `pj_strtoul_mindigit`; only its lower bits are used. -/
def strtoulMindigit (s : Str) (mindig : Nat) : Int :=
  s.foldl (fun value c => value * 10 + (charVal c - 48)) 0 * 10 ^ (mindig - s.length)

/-- A quoted string without its quotes: `++ptr` and `slen -= 2`. -/
def unquoted (s : Str) : Str := (s.drop 1).take (s.length - 2)

/-- `parser_get_and_unescape`. -/
def getAndUnescape (spec : PjCis) : Parser Str := do
  let token ← scanGet spec
  return strUnescape token

end SipParser
