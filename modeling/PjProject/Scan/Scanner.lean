import Mathlib.Data.List.Basic
import Mathlib.Tactic

set_option autoImplicit false

/-! # The text scanner

`pj_scanner` of `pjlib-util/src/pjlib-util/scanner.c`, on which the SIP, SDP and XML parsers are
built. The input is the bytes from `begin` to `end`, with a NUL byte at `end`; most loops have no
other end-of-input check than this byte.

A position is its offset from `begin`, so `begin` is 0 and `end` is the number of bytes of `buf`.
Reading the position `end` gives the NUL; reading or writing beyond it is the fault
`outOfBounds`. Pointer sums do not wrap around the address space, and the line counter is
unbounded. A syntax error calls the scanner's callback and leaves the scanner as it was: it is
the outcome `syntaxErr`, so that a parser whose callback throws ends there.
-/

namespace Scan

/-- How an operation can end other than by returning: a syntax error, an access outside the
buffer, a false `pj_assert`, or a loop that has not ended. -/
inductive Stop where
  | syntaxErr
  | outOfBounds
  | assertion
  | diverges
  deriving DecidableEq

/-- `pj_cis_t`: a set of characters. NUL is never a member, which the functions that build these
sets take care of. -/
structure PjCis where
  mem : UInt8 → Bool
  mem_zero : mem 0 = false

/-- `pj_str_t` inside the buffer: a start position and a length. -/
structure PjStr where
  ptr : Nat
  slen : Nat
  deriving DecidableEq

/-- `pj_scanner`. `skipWs` are the option flags. -/
structure PjScanner where
  buf : List UInt8
  curptr : Nat
  line : Nat
  startLine : Nat
  skipWs : Nat
  deriving DecidableEq

/-! ## Characters -/

/-- `PJ_SCAN_IS_SPACE`. -/
def isSpace (c : UInt8) : Bool := c == 32 || c == 9

/-- `PJ_SCAN_IS_NEWLINE`. -/
def isNewline (c : UInt8) : Bool := c == 13 || c == 10

/-- `PJ_SCAN_IS_PROBABLY_SPACE`. A `char` is signed: the bytes from 128 on are negative. -/
def isProbablySpace (c : UInt8) : Bool := c ≤ 32 || 128 ≤ c

/-- A `char` as an `int`. -/
def charVal (c : UInt8) : Int := if c < 128 then c.toNat else (c.toNat : Int) - 256

/-- `pj_isxdigit`. -/
def isXdigit (c : UInt8) : Bool :=
  (48 ≤ c && c ≤ 57) || (65 ≤ c && c ≤ 70) || (97 ≤ c && c ≤ 102)

/-- `pj_hex_digit_to_val`. -/
def hexDigitToVal (c : UInt8) : UInt8 :=
  if c ≤ 57 then (c - 48) &&& 15 else if c ≤ 70 then (c - 65 + 10) &&& 15
  else (c - 97 + 10) &&& 15

/-! ## Reading and writing the buffer -/

namespace PjScanner

/-- The position `end`. -/
def endPos (sc : PjScanner) : Nat := sc.buf.length

/-- `*s`. -/
def charAt (sc : PjScanner) (s : Nat) : Except Stop UInt8 :=
  if s ≤ sc.endPos then .ok (sc.buf.getD s 0) else .error .outOfBounds

/-- `*s` for a position that can be before `begin`. -/
def charAtInt (sc : PjScanner) (s : Int) : Except Stop UInt8 :=
  if 0 ≤ s then sc.charAt s.toNat else .error .outOfBounds

/-- `*s = c`. The terminating NUL may only be overwritten by itself. -/
def setAt (sc : PjScanner) (s : Nat) (c : UInt8) : Except Stop PjScanner :=
  if s < sc.endPos then .ok { sc with buf := sc.buf.set s c }
  else if s = sc.endPos ∧ c = 0 then .ok sc
  else .error .outOfBounds

/-- `pj_memmove(dst, start, n)` to an earlier position. -/
def moveBytes (sc : PjScanner) (dst start n : Nat) : PjScanner :=
  { sc with buf := sc.buf.take dst ++ (sc.buf.drop start).take n ++ sc.buf.drop (dst + n) }

/-- `while (p(*s)) ++s`. -/
def skipWhile (sc : PjScanner) (p : UInt8 → Bool) : Nat → Nat → Except Stop Nat
  | 0, _ => .error .diverges
  | fuel + 1, s => do
      let c ← sc.charAt s
      if p c then skipWhile sc p fuel (s + 1) else return s

/-- `while (PJ_SCAN_CHECK_EOF(s) && p(*s)) ++s`. -/
def skipWhileIn (sc : PjScanner) (p : UInt8 → Bool) : Nat → Nat → Except Stop Nat
  | 0, _ => .error .diverges
  | fuel + 1, s =>
      if s ≠ sc.endPos then do
        let c ← sc.charAt s
        if p c then skipWhileIn sc p fuel (s + 1) else return s
      else .ok s

/-- The fuel no loop over the buffer uses up. -/
def fuel (sc : PjScanner) : Nat := sc.buf.length + 2

/-- `pj_strset3(out, curptr, s)`. -/
def strset3 (sc : PjScanner) (s : Nat) : PjStr := ⟨sc.curptr, s - sc.curptr⟩

/-- The bytes of a token. -/
def text (sc : PjScanner) (t : PjStr) : List UInt8 := (sc.buf.drop t.ptr).take t.slen

end PjScanner

open PjScanner

/-! ## Whitespace -/

/-- The loop of `pj_scan_skip_whitespace` over several lines. -/
def skipNewlines : Nat → PjScanner → Nat → Except Stop (PjScanner × Nat)
  | 0, _, _ => .error .diverges
  | fuel + 1, sc, s => do
      let c ← sc.charAt s
      if c = 13 then
        let c ← sc.charAt (s + 1)
        let s := if c = 10 then s + 2 else s + 1
        skipNewlines fuel { sc with line := sc.line + 1, curptr := s, startLine := s } s
      else if c = 10 then
        let s := s + 1
        skipNewlines fuel { sc with line := sc.line + 1, curptr := s, startLine := s } s
      else if isSpace c then
        let s ← sc.skipWhile isSpace sc.fuel (s + 1)
        skipNewlines fuel sc s
      else return (sc, s)

/-- The header continuation of `pj_scan_skip_whitespace`: a new line that starts with a space
belongs to the line before it. -/
def skipContinuation (sc : PjScanner) (s : Nat) : Except Stop PjScanner := do
  let sc := { sc with curptr := s }
  let c ← sc.charAt s
  let s := if c = 13 then s + 1 else s
  let c ← sc.charAt s
  let s := if c = 10 then s + 1 else s
  let sc := { sc with startLine := s }
  let c ← sc.charAt s
  if isSpace c then
    let t ← sc.skipWhile isSpace sc.fuel (s + 1)
    return { sc with line := sc.line + 1, curptr := t }
  else return sc

/-- `pj_scan_skip_whitespace`. -/
def pjScanSkipWhitespace (sc : PjScanner) : Except Stop PjScanner := do
  let s ← sc.skipWhile isSpace sc.fuel sc.curptr
  let c ← sc.charAt s
  let (sc, s) ←
    if isNewline c ∧ sc.skipWs &&& 4 ≠ 0 then skipNewlines sc.fuel sc s else .ok (sc, s)
  let c ← sc.charAt s
  if isNewline c ∧ sc.skipWs &&& 3 = 3 then skipContinuation sc s
  else return { sc with curptr := s }

/-- The end of most operations: `if (PJ_SCAN_IS_PROBABLY_SPACE(*s) && skip) skip_whitespace`. -/
def autoSkip (sc : PjScanner) (skip : Bool) : Except Stop PjScanner := do
  let c ← sc.charAt sc.curptr
  if isProbablySpace c && skip then pjScanSkipWhitespace sc else return sc

/-- `scanner->skip_ws` as a condition. -/
def PjScanner.skips (sc : PjScanner) : Bool := sc.skipWs != 0

/-- `pj_scan_init`. -/
def pjScanInit (buf : List UInt8) (options : Nat) : Except Stop PjScanner :=
  let sc : PjScanner :=
    { buf := buf, curptr := 0, line := 1, startLine := 0, skipWs := options }
  if sc.skips then pjScanSkipWhitespace sc else .ok sc

/-- `pj_scan_skip_line`. `strchr` ends at the first NUL. -/
def pjScanSkipLine (sc : PjScanner) : Except Stop PjScanner := do
  let s ← sc.skipWhile (fun c => c != 10 && c != 0) sc.fuel sc.curptr
  let c ← sc.charAt s
  if c = 10 then return { sc with curptr := s + 1, startLine := s + 1, line := sc.line + 1 }
  else return { sc with curptr := sc.endPos }

/-! ## Peeking -/

/-- `pj_scan_peek`: the token and the character after it. -/
def pjScanPeek (sc : PjScanner) (spec : PjCis) : Except Stop (PjStr × UInt8) :=
  if sc.curptr ≥ sc.endPos then .error .syntaxErr
  else do
    let s ← sc.skipWhile spec.mem sc.fuel sc.curptr
    let c ← sc.charAt s
    return (sc.strset3 s, c)

/-- `pj_scan_peek_n`. Here and in `pj_scan_get_n` the sum does not wrap around the address space. -/
def pjScanPeekN (sc : PjScanner) (len : Nat) : Except Stop (PjStr × UInt8) :=
  if sc.curptr + len > sc.endPos then .error .syntaxErr
  else do
    let c ← sc.charAt (sc.curptr + len)
    return (⟨sc.curptr, len⟩, c)

/-- `pj_scan_peek_until`. -/
def pjScanPeekUntil (sc : PjScanner) (spec : PjCis) : Except Stop (PjStr × UInt8) :=
  if sc.curptr ≥ sc.endPos then .error .syntaxErr
  else do
    let s ← sc.skipWhileIn (fun c => !spec.mem c) sc.fuel sc.curptr
    let c ← sc.charAt s
    return (sc.strset3 s, c)

/-! ## Getting a token -/

/-- `pj_scan_get`. -/
def pjScanGet (sc : PjScanner) (spec : PjCis) : Except Stop (PjScanner × PjStr) := do
  let c ← sc.charAt sc.curptr
  if spec.mem c = false then .error .syntaxErr
  else
    let s ← sc.skipWhile spec.mem sc.fuel (sc.curptr + 1)
    let out := sc.strset3 s
    let sc ← autoSkip { sc with curptr := s } sc.skips
    return (sc, out)

/-- `%` and two hexadecimal digits stand at `s`. -/
def isEscape (sc : PjScanner) (s : Nat) (c : UInt8) : Except Stop Bool :=
  if c = 37 ∧ s + 3 ≤ sc.endPos then do
    let h ← sc.charAt (s + 1)
    let l ← sc.charAt (s + 2)
    return isXdigit h && isXdigit l
  else .ok false

/-- The escape at `s`, if there is one, is written at `dst` as the character it stands for. -/
def unescapeOne (sc : PjScanner) (esc : Bool) (s dst : Nat) :
    Except Stop (PjScanner × Nat × Nat) :=
  if esc then do
    let h ← sc.charAt (s + 1)
    let l ← sc.charAt (s + 2)
    let sc ← sc.setAt dst ((hexDigitToVal h <<< 4) + hexDigitToVal l)
    return (sc, s + 3, dst + 1)
  else .ok (sc, s, dst)

/-- A `%` that starts no escape and the character after it are copied as they are. -/
def copyTwo (sc : PjScanner) (s dst : Nat) : Except Stop (PjScanner × Nat × Nat) := do
  let c ← sc.charAt s
  let sc ← sc.setAt dst c
  let c ← sc.charAt (s + 1)
  let sc ← sc.setAt (dst + 1) c
  return (sc, s + 2, dst + 2)

/-- The run of characters of `spec` at `s` is moved to `dst`. -/
def unescapeRun (spec : PjCis) (sc : PjScanner) (s dst : Nat) :
    Except Stop (PjScanner × Nat × Nat) := do
  let c ← sc.charAt s
  if spec.mem c then
    let t ← sc.skipWhile spec.mem sc.fuel (s + 1)
    return (sc.moveBytes dst s (t - s), t, dst + (t - s))
  else return (sc, s, dst)

/-- The loop of `pj_scan_get_unescape`: reads at `s` and writes at `dst`. -/
def unescapeLoop (spec : PjCis) :
    Nat → PjScanner → Nat → Nat → Except Stop (PjScanner × Nat × Nat)
  | 0, _, _, _ => .error .diverges
  | fuel + 1, sc, s, dst => do
      let c ← sc.charAt s
      let esc ← isEscape sc s c
      if c = 37 ∧ esc = false then copyTwo sc s dst
      else
        let r ← unescapeOne sc esc s dst
        let r ← unescapeRun spec r.1 r.2.1 r.2.2
        let c ← r.1.charAt r.2.1
        if c = 37 then unescapeLoop spec fuel r.1 r.2.1 r.2.2 else return r

/-- `pj_scan_get_unescape`. -/
def pjScanGetUnescape (sc : PjScanner) (spec : PjCis) : Except Stop (PjScanner × PjStr) :=
  if spec.mem 37 then .error .assertion
  else do
    let c ← sc.charAt sc.curptr
    if spec.mem c = false ∧ c ≠ 37 then .error .syntaxErr
    else
      let start := sc.curptr
      let (sc, s, dst) ← unescapeLoop spec sc.fuel sc start start
      let sc ← autoSkip { sc with curptr := s } sc.skips
      return (sc, ⟨start, dst - start⟩)

/-- `while (r != scanner->begin && *r == '\\') --r`. -/
def backslashes (sc : PjScanner) : Nat → Int → Except Stop Int
  | 0, _ => .error .diverges
  | fuel + 1, r =>
      if r ≠ 0 then do
        let c ← sc.charAtInt r
        if c = 92 then backslashes sc fuel (r - 1) else return r
      else .ok r

/-- The main loop of `pj_scan_get_quotes`: the position of the first end quote that no odd number
of backslashes precedes, or where the search stops. -/
def quoteLoop (sc : PjScanner) (endQuote : UInt8) : Nat → Nat → Except Stop Nat
  | 0, _ => .error .diverges
  | fuel + 1, s => do
      let s ← sc.skipWhileIn (fun c => c != 10 && c != endQuote) sc.fuel s
      let c ← sc.charAt s
      if c = endQuote then
        let p ← sc.charAtInt ((s : Int) - 1)
        if p = 92 then
          let q : Int := (s : Int) - 2
          let r ← backslashes sc sc.fuel q
          if (q - r) % 2 = 1 then return s else quoteLoop sc endQuote fuel (s + 1)
        else return s
      else return s

/-- `pj_scan_get_quotes`: `quotes` are the pairs of a begin and an end quote. -/
def pjScanGetQuotes (sc : PjScanner) (quotes : List (UInt8 × UInt8)) :
    Except Stop (PjScanner × PjStr) :=
  if quotes = [] then .error .assertion
  else do
    let c ← sc.charAt sc.curptr
    match quotes.find? fun q => q.1 == c with
    | none => .error .syntaxErr
    | some q =>
        let s ← quoteLoop sc q.2 sc.fuel (sc.curptr + 1)
        let c ← sc.charAt s
        if c ≠ q.2 then .error .syntaxErr
        else
          let out := sc.strset3 (s + 1)
          let sc ← autoSkip { sc with curptr := s + 1 } sc.skips
          return (sc, out)

/-- `pj_scan_get_quote`. -/
def pjScanGetQuote (sc : PjScanner) (beginQuote endQuote : UInt8) :
    Except Stop (PjScanner × PjStr) :=
  pjScanGetQuotes sc [(beginQuote, endQuote)]

/-- `pj_scan_get_n`. -/
def pjScanGetN (sc : PjScanner) (n : Nat) : Except Stop (PjScanner × PjStr) :=
  if sc.curptr + n > sc.endPos then .error .syntaxErr
  else do
    let out : PjStr := ⟨sc.curptr, n⟩
    let sc ← autoSkip { sc with curptr := sc.curptr + n } sc.skips
    return (sc, out)

/-- `pj_scan_get_char`. -/
def pjScanGetChar (sc : PjScanner) : Except Stop (PjScanner × Int) := do
  let chr ← sc.charAt sc.curptr
  if chr = 0 then .error .syntaxErr
  else
    let sc ← autoSkip { sc with curptr := sc.curptr + 1 } sc.skips
    return (sc, charVal chr)

/-- `pj_scan_get_newline`. -/
def pjScanGetNewline (sc : PjScanner) : Except Stop PjScanner := do
  let c ← sc.charAt sc.curptr
  if isNewline c = false then .error .syntaxErr
  else
    let s := if c = 13 then sc.curptr + 1 else sc.curptr
    let c ← sc.charAt s
    let s := if c = 10 then s + 1 else s
    return { sc with curptr := s, line := sc.line + 1, startLine := s }

/-- The family of `pj_scan_get_until`: the token ends where `stop` holds, or at `end`. -/
def scanUntil (sc : PjScanner) (stop : UInt8 → Bool) : Except Stop (PjScanner × PjStr) :=
  if sc.curptr ≥ sc.endPos then .error .syntaxErr
  else do
    let s ← sc.skipWhileIn (fun c => !stop c) sc.fuel sc.curptr
    let out := sc.strset3 s
    let sc ← autoSkip { sc with curptr := s } sc.skips
    return (sc, out)

/-- `pj_scan_get_until`. -/
def pjScanGetUntil (sc : PjScanner) (spec : PjCis) : Except Stop (PjScanner × PjStr) :=
  scanUntil sc spec.mem

/-- `pj_scan_get_until_ch`. -/
def pjScanGetUntilCh (sc : PjScanner) (untilChar : Int) : Except Stop (PjScanner × PjStr) :=
  scanUntil sc fun c => charVal c == untilChar

/-- `pj_scan_get_until_chr`. -/
def pjScanGetUntilChr (sc : PjScanner) (untilSpec : List UInt8) :
    Except Stop (PjScanner × PjStr) :=
  scanUntil sc fun c => untilSpec.contains c

/-- `pj_scan_advance_n`. -/
def pjScanAdvanceN (sc : PjScanner) (n : Nat) (skipWs : Bool) : Except Stop PjScanner :=
  if sc.curptr + n > sc.endPos then .error .syntaxErr
  else autoSkip { sc with curptr := sc.curptr + n } skipWs

end Scan
