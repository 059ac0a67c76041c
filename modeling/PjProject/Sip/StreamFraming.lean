import PjProject.Library.Run
import PjProject.Scan.Rest
import PjProject.Sdp.Session

set_option autoImplicit false

/-! # SIP messages on a stream

`pjsip_find_msg` of `pjsip/src/pjsip/sip_parser.c`, which looks for a message at the beginning of
what has been received, and `pjsip_tpmgr_receive_packet` of `pjsip/src/pjsip/sip_transport.c`, which
gives the messages to the parser one after the other, with `on_data_read` of `sip_transport_tcp.c`,
which keeps what is left in front of the next read. An `int` has 32 bits, and a pointer 64.

The scanner of `pjsip_find_msg` has its `end` at the empty line, where there is no NUL: it reads the
bytes behind as well, up to the end of the packet. Its `end` counts in `pj_scan_advance_n` only.
Parsing a message changes nothing outside of it and is left out.
-/

namespace Sip

open MachineInt Scan
open Sdp (isDigit csDigit pjStrtoul toLower)

/-- `PJSIP_MAX_PKT_LEN`. -/
def maxPktLen : Nat := 4000

/-! ## The length of a message -/

/-- `pj_strstr(&cur_msg, "\n\r\n")`. -/
def endHdrPos : List UInt8 → Option Nat
  | [] => none
  | c :: l => if [10, 13, 10].isPrefixOf (c :: l) then some 0 else (endHdrPos l).map (· + 1)

/-- `pj_strchr` from the place `s` on. -/
def pjStrchr (buf : List UInt8) (s : Nat) (chr : UInt8) : Option Nat :=
  ((buf.drop s).findIdx? (· == chr)).map (s + ·)

/-- `"Content-Length"`, in lower case. -/
def contentLengthStr : List UInt8 := Sdp.str "content-length".toList

/-- The length of the name of a Content-Length header at the beginning of a line. -/
def clenName (line : List UInt8) : Option Nat :=
  if toLower (line.headD 0) = 99 ∧ (line.take 14).map toLower = contentLengthStr then some 14
  else if toLower (line.headD 0) = 108 ∧ line.getD 1 0 ∈ [32, 9, 58] then some 1
  else none

/-- The `PJ_TRY` block: the digits of the header at `line`, whose name has `n` characters. -/
def scanClen (buf : List UInt8) (line hdrEnd n : Nat) : Except Stop (List UInt8) := do
  let sc ← pjScanInit (buf.drop line) 3
  if line + sc.curptr + n > hdrEnd then .error .syntaxErr
  else
    let sc ← pjScanAdvanceN sc n true
    let c ← pjScanGetChar sc
    if c.2 ≠ 58 then .error .syntaxErr
    else
      let strClen ← pjScanGet c.1 csDigit
      let _ ← pjScanGetNewline strClen.1
      return strClen.1.text strClen.2

/-- `content_length` after the line. -/
def contentLength (buf : List UInt8) (line hdrEnd : Nat) : Except Stop Int :=
  match clenName (buf.drop line) with
  | none => .ok (-1)
  | some n =>
      match scanClen buf line hdrEnd n with
      | .ok digits => .ok (int32 (pjStrtoul digits))
      | .error .syntaxErr => .ok (-1)
      | .error s => .error s

/-- The loop of `pjsip_find_msg` over the lines. -/
def clenLoop (buf : List UInt8) (hdrEnd : Nat) : Nat → Option Nat → Except Stop Int
  | 0, _ => .error .diverges
  | _ + 1, none => .ok (-1)
  | fuel + 1, some line =>
      if line < hdrEnd then do
        let clen ← contentLength buf (line + 1) hdrEnd
        if clen ≠ -1 then return clen
        else clenLoop buf hdrEnd fuel (pjStrchr buf (line + 1) 10)
      else .ok (-1)

/-- A difference of pointers as a `pj_size_t`. -/
def toSize (n : Int) : Nat := if 0 ≤ n then n.toNat else (n + 18446744073709551616).toNat

/-- What `pjsip_find_msg` returns: `PJ_SUCCESS` with the size, `PJSIP_EPARTIALMSG`, or
`PJSIP_EMISSINGHDR`. -/
inductive FindMsg where
  | success (msgSize : Nat)
  | epartialmsg
  | emissinghdr
  deriving DecidableEq

/-- `pjsip_find_msg`. -/
def pjsipFindMsg (buf : List UInt8) (isDatagram : Bool) : Except Stop FindMsg :=
  if isDatagram then .ok (.success buf.length)
  else
    match endHdrPos buf with
    | none => .ok .epartialmsg
    | some pos => do
        let clen ← clenLoop buf (pos + 1) (buf.length + 1) (pjStrchr buf 0 10)
        if clen = -1 then return .emissinghdr
        else
          let msgSize := toSize ((pos + 3 : Nat) + clen)
          return if msgSize ≤ buf.length then .success msgSize else .epartialmsg

/-! ## The messages of a packet -/

/-- What `pjsip_tpmgr_receive_packet` has done: the bytes it has processed, the fragments that it has
given to the parser, the places in the packet where it has written NUL, and whether it has reported
`PJSIP_ERXOVERFLOW`. -/
structure Received where
  total : Nat
  fragments : List (List UInt8)
  nuls : List Nat
  overflow : Bool
  deriving DecidableEq

/-- The loop of `pjsip_tpmgr_receive_packet` for a packet of `len` bytes. -/
def receiveLoop (datagram : Bool) (len : Nat) :
    Nat → List UInt8 → Received → Except Stop Received
  | 0, _, _ => .error .diverges
  | fuel + 1, currentPkt, r =>
      if currentPkt = [] then .ok r
      else
        let p := currentPkt.dropWhile isNewline
        let r := { r with total := r.total + (currentPkt.length - p.length) }
        if p = [] then .ok r
        else do
          let status ← if datagram then .ok (.success p.length) else pjsipFindMsg p false
          match status with
          | .success size =>
              receiveLoop datagram len fuel (p.drop size)
                { r with
                  total := r.total + size
                  fragments := r.fragments ++ [p.take size]
                  nuls := r.nuls ++ [r.total + size] }
          | _ =>
              if p.length = maxPktLen then return { r with total := len, overflow := true }
              else return r

/-- `pjsip_tpmgr_receive_packet`. -/
def pjsipTpmgrReceivePacket (datagram : Bool) (pkt : List UInt8) : Except Stop Received :=
  if pkt = [] then .error .assertion
  else receiveLoop datagram pkt.length (pkt.length + 1) pkt ⟨0, [], [pkt.length], false⟩

/-! ## The reads of a connection -/

/-- A connection: the bytes that are kept, and all fragments. -/
structure Connection where
  remainder : List UInt8
  fragments : List (List UInt8)
  deriving DecidableEq

/-- `on_data_read`. -/
def onDataRead (c : Connection) (data : List UInt8) : Except Stop Connection := do
  let pkt := c.remainder ++ data
  let r ← pjsipTpmgrReceivePacket false pkt
  return ⟨pkt.drop r.total, c.fragments ++ r.fragments⟩

end Sip

/-! ## The Content-Length header on a stream

What `pjsip_find_msg` reads of the header section, in terms of its text: `lengthField` is the number
of one line (`contentLength_eq`), and `FirstLength` the first one of the section
(`clenLoop_spec`). No scan leaves the buffer, and no loop is without end.
-/

namespace Sip

open MachineInt Scan Outcome
open Sdp (isDigit csDigit pjStrtoul toLower)

variable {buf : List UInt8} {pos line n : Nat}

/-! ## The empty line -/

theorem endHdrPos_eq_some {l : List UInt8} {p : Nat} (h : endHdrPos l = some p) :
    ∃ pre rest, l = pre ++ 10 :: 13 :: 10 :: rest ∧ pre.length = p := by
  induction l generalizing p with
  | nil => cases h
  | cons c l ih =>
      unfold endHdrPos at h
      split at h
      · rename_i hpre
        cases h
        rcases List.isPrefixOf_iff_prefix.mp hpre with ⟨rest, hrest⟩
        exact ⟨[], rest, hrest.symm, rfl⟩
      · rcases Option.map_eq_some_iff.mp h with ⟨p', hp', rfl⟩
        rcases ih hp' with ⟨pre, rest, hl, hlen⟩
        refine ⟨c :: pre, rest, ?_, congrArg (· + 1) hlen⟩
        rw [hl]
        rfl

/-- The section ends where it does, whatever follows. -/
theorem endHdrPos_append {l : List UInt8} {p : Nat} (h : endHdrPos l = some p) (x : List UInt8) :
    endHdrPos (l ++ x) = some p := by
  induction l generalizing p with
  | nil => cases h
  | cons c l ih =>
      unfold endHdrPos at h
      rw [List.cons_append, endHdrPos]
      split at h
      · rename_i hpre
        have hpre' : [10, 13, 10].isPrefixOf (c :: (l ++ x)) = true :=
          List.isPrefixOf_iff_prefix.mpr
            ((List.isPrefixOf_iff_prefix.mp hpre).trans (List.prefix_append (c :: l) x))
        rw [if_pos hpre']
        exact h
      · rename_i hpre
        rcases Option.map_eq_some_iff.mp h with ⟨p', hp', rfl⟩
        have hlen : 3 ≤ l.length := by
          rcases endHdrPos_eq_some hp' with ⟨pre, rest, hl, _⟩
          rw [hl, List.length_append]
          simp only [List.length_cons]
          omega
        have hpre' : ¬ [10, 13, 10].isPrefixOf (c :: (l ++ x)) = true := by
          intro hcon
          refine hpre (List.isPrefixOf_iff_prefix.mpr ?_)
          refine List.prefix_of_prefix_length_le (List.isPrefixOf_iff_prefix.mp hcon)
            (List.prefix_append (c :: l) x) ?_
          simp only [List.length_cons, List.length_nil]
          omega
        rw [if_neg hpre', ih hp']
        rfl

/-! ## Lines -/

/-- `line` is the start of a line of the section that ends at `pos`, behind the place `s`. -/
structure LineStart (buf : List UInt8) (pos s line : Nat) : Prop where
  after : s < line
  inside : line ≤ pos + 1
  newline : buf.getD (line - 1) 0 = 10

theorem pjStrchr_eq_none {s : Nat} (h : pjStrchr buf s 10 = none) :
    ∀ i, s ≤ i → buf.getD i 0 ≠ 10 := by
  intro i hi hc
  have hnone := Option.map_eq_none_iff.mp h
  rw [List.findIdx?_eq_none_iff] at hnone
  have hlt : i < buf.length := lt_of_char_ne (by rw [hc]; decide)
  have hmem : (10 : UInt8) ∈ buf.drop s := by
    rw [← hc, getD_of_lt hlt, List.mem_drop_iff_getElem]
    exact ⟨i - s, by omega, by congr 1; omega⟩
  exact absurd (hnone 10 hmem) (by decide)

theorem pjStrchr_eq_some {s i : Nat} (h : pjStrchr buf s 10 = some i) :
    s ≤ i ∧ i < buf.length ∧ buf.getD i 0 = 10 ∧ ∀ j, s ≤ j → j < i → buf.getD j 0 ≠ 10 := by
  rcases Option.map_eq_some_iff.mp h with ⟨k, hk, rfl⟩
  rcases List.findIdx?_eq_some_iff_getElem.mp hk with ⟨hlt, hc, hbefore⟩
  rw [List.length_drop] at hlt
  have hget : ∀ j, s ≤ j → (hj : j - s < (buf.drop s).length) →
      buf.getD j 0 = (buf.drop s)[j - s] := by
    intro j hsj hj
    rw [List.length_drop] at hj
    rw [getD_of_lt (by omega), List.getElem_drop]
    congr 1
    omega
  refine ⟨Nat.le_add_right _ _, by omega, ?_, fun j hsj hj hcj => ?_⟩
  · rw [hget _ (Nat.le_add_right _ _) (by rw [List.length_drop]; omega)]
    rw [beq_iff_eq] at hc
    rw [← hc]
    congr 1
    omega
  · rw [hget j hsj (by rw [List.length_drop]; omega)] at hcj
    have hne := hbefore (j - s) (by omega)
    rw [hcj] at hne
    exact hne rfl

/-! ## One line -/

/-- The number of a line, if it is a Content-Length header: the name, a colon, digits and a line end,
with white space between them. -/
def lengthField (line : List UInt8) : Option (List UInt8) :=
  match clenName line with
  | none => none
  | some n =>
      match afterLws (line.drop n) with
      | [] => none
      | c :: rest =>
          if c = 58 then
            let value := afterLws rest
            if value.takeWhile isDigit ≠ [] ∧
                isNewline ((afterLws (value.dropWhile isDigit)).headD 0) = true then
              some (value.takeWhile isDigit)
            else none
          else none

theorem charVal_eq_colon (c : UInt8) : charVal c = 58 ↔ c = 58 := by
  unfold charVal
  constructor
  · intro h
    split at h
    · exact UInt8.toNat_inj.mp (by exact_mod_cast h)
    · have := c.toNat_lt
      omega
  · rintro rfl
    rfl

theorem takeWhile_ne_nil_iff {p : UInt8 → Bool} (h0 : p 0 = false) (l : List UInt8) :
    l.takeWhile p ≠ [] ↔ p (l.headD 0) = true := by
  cases l with
  | nil =>
      rw [List.headD_nil, h0]
      exact ⟨fun h => absurd rfl h, nofun⟩
  | cons c l =>
      rw [List.headD_cons]
      by_cases hc : p c = true
      · rw [List.takeWhile_cons_of_pos hc]
        exact ⟨fun _ => hc, fun _ => nofun⟩
      · rw [List.takeWhile_cons_of_neg hc]
        exact ⟨fun h => absurd rfl h, fun h => absurd h hc⟩

theorem head_of_toLower {l : List UInt8} {c : UInt8} (h : toLower (l.headD 0) = c)
    (hc : c = 99 ∨ c = 108) :
    isSpace (l.headD 0) = false ∧ isNewline (l.headD 0) = false ∧ l ≠ [] := by
  have hne : ∀ x : UInt8, toLower x = x → x ≠ c → l.headD 0 ≠ x := by
    rintro x hx hxc rfl
    exact hxc (hx.symm.trans h)
  have hsp : l.headD 0 ≠ 32 ∧ l.headD 0 ≠ 9 ∧ l.headD 0 ≠ 13 ∧ l.headD 0 ≠ 10 ∧ l.headD 0 ≠ 0 := by
    refine ⟨hne 32 rfl ?_, hne 9 rfl ?_, hne 13 rfl ?_, hne 10 rfl ?_, hne 0 rfl ?_⟩ <;>
      · rcases hc with rfl | rfl
        · decide
        · decide
  refine ⟨?_, ?_, ?_⟩
  · unfold isSpace
    rw [beq_eq_false_iff_ne.mpr hsp.1, beq_eq_false_iff_ne.mpr hsp.2.1]
    rfl
  · unfold isNewline
    rw [beq_eq_false_iff_ne.mpr hsp.2.2.1, beq_eq_false_iff_ne.mpr hsp.2.2.2.1]
    rfl
  · rintro rfl
    exact hsp.2.2.2.2 rfl

/-- The name of the header stands in its line. -/
theorem clenName_cases {l : List UInt8} (h : clenName l = some n) :
    n ≤ l.length ∧ (∀ i < n, l.getD i 0 ≠ 10) ∧
      isSpace (l.headD 0) = false ∧ isNewline (l.headD 0) = false := by
  unfold clenName at h
  split at h
  · rename_i hname
    cases h
    rcases head_of_toLower hname.1 (Or.inl rfl) with ⟨hs, hn, _⟩
    have hlen : 14 ≤ l.length := by
      have := congrArg List.length hname.2
      rw [List.length_map, List.length_take] at this
      have hstr : contentLengthStr.length = 14 := by decide
      omega
    refine ⟨hlen, fun i hi h10 => ?_, hs, hn⟩
    -- A line feed is not among the characters of the name.
    have hmem : toLower 10 ∈ (l.take 14).map toLower := by
      refine List.mem_map_of_mem ?_
      rw [← h10, getD_of_lt (by omega)]
      exact List.mem_take_iff_getElem.mpr ⟨i, by omega, rfl⟩
    rw [hname.2] at hmem
    exact absurd hmem (by decide)
  · split at h
    · rename_i hname
      cases h
      rcases head_of_toLower hname.1 (Or.inr rfl) with ⟨hs, hn, hne⟩
      refine ⟨List.length_pos_iff.mpr hne, fun i hi h10 => ?_, hs, hn⟩
      obtain rfl : i = 0 := by omega
      rw [getD_eq_headD, List.drop_zero] at h10
      rw [h10] at hn
      cases hn
    · cases h

/-- What the scanner finds in a line. -/
theorem scanClen_eq {hdrEnd : Nat} (hname : clenName (buf.drop line) = some n)
    (hroom : line + n ≤ hdrEnd) :
    scanClen buf line hdrEnd n =
      match lengthField (buf.drop line) with
      | some digits => .ok digits
      | none => .error .syntaxErr := by
  rcases clenName_cases hname with ⟨hn, _, hs, hnl⟩
  rcases init_headerAt (buf.drop line) with ⟨sc, hinit, hat, hbuf⟩
  -- The line starts with its name.
  have hstart : afterLws (buf.drop line) = buf.drop line := by
    cases hl : buf.drop line with
    | nil => rfl
    | cons c l =>
        rw [hl] at hs hnl
        exact afterLws_of_head hs hnl
  rw [hstart] at hat
  have hcur : sc.curptr = 0 := by
    have hrest := congrArg List.length hat.rest
    rw [hbuf, List.length_drop, List.length_drop] at hrest
    have hle := hat.cur
    rw [hbuf, List.length_drop] at hle
    omega
  rcases hat.advance hn with ⟨sc1, hadv, hat1, hbuf1⟩
  unfold scanClen lengthField
  rw [hname, hinit, ok_bind, hcur, if_neg (by omega), hadv, ok_bind]
  dsimp only
  generalize afterLws ((buf.drop line).drop n) = rest at hat1 ⊢
  cases rest with
  | nil =>
      rw [hat1.getChar_zero rfl]
      rfl
  | cons c rest =>
      dsimp only
      by_cases hzero : c = 0
      · rw [hat1.getChar_zero hzero, if_neg (by rw [hzero]; decide)]
        rfl
      · rcases hat1.getChar hzero with ⟨sc2, hchar, hat2, hbuf2⟩
        rw [hchar, ok_bind]
        dsimp only
        by_cases hcolon : c = 58
        · rw [if_neg (not_not.mpr ((charVal_eq_colon c).mpr hcolon)), if_pos hcolon]
          generalize afterLws rest = value at hat2 ⊢
          by_cases hdigit : isDigit (value.headD 0) = true
          · have hne := (takeWhile_ne_nil_iff (p := isDigit) rfl value).mpr hdigit
            rcases hat2.get csDigit hdigit with ⟨sc3, hget, hat3, hbuf3⟩
            rw [show csDigit.mem = isDigit from rfl] at hget hat3
            have htext : sc3.text ⟨sc2.curptr, (value.takeWhile isDigit).length⟩ =
                value.takeWhile isDigit := by
              unfold PjScanner.text
              rw [hbuf3]
              exact hat2.text csDigit
            rw [hget, ok_bind]
            dsimp only
            have hnewline := hat3.newline
            by_cases hnl3 : isNewline ((afterLws (value.dropWhile isDigit)).headD 0) = true
            · rw [if_pos hnl3] at hnewline
              rcases hnewline with ⟨sc4, hend, _, _⟩
              rw [hend, ok_bind, if_pos ⟨hne, hnl3⟩]
              exact congrArg Except.ok htext
            · rw [if_neg hnl3] at hnewline
              rw [hnewline, if_neg fun h => hnl3 h.2]
              rfl
          · rw [hat2.get_none csDigit (Bool.eq_false_iff.mpr hdigit),
              if_neg fun h => hdigit ((takeWhile_ne_nil_iff rfl value).mp h.1)]
            rfl
        · rw [if_pos fun h => hcolon ((charVal_eq_colon c).mp h), if_neg hcolon]

/-- `contentLength` in terms of the text. -/
theorem contentLength_eq {hdrEnd : Nat}
    (hroom : ∀ n, clenName (buf.drop line) = some n → line + n ≤ hdrEnd) :
    contentLength buf line hdrEnd = .ok (match lengthField (buf.drop line) with
      | some digits => int32 (pjStrtoul digits)
      | none => -1) := by
  unfold contentLength
  cases hname : clenName (buf.drop line) with
  | none =>
      unfold lengthField
      rw [hname]
  | some n =>
      dsimp only
      rw [scanClen_eq hname (hroom n hname)]
      cases lengthField (buf.drop line) with
      | none => rfl
      | some digits => rfl

/-! ## The lines of a section -/

/-- The number that `pjsip_find_msg` takes from a line. -/
def clenAt (buf : List UInt8) (line : Nat) : Int :=
  match lengthField (buf.drop line) with
  | some digits => int32 (pjStrtoul digits)
  | none => -1

/-- The name of a header stands in the section. -/
theorem name_inside {rest : List UInt8} {pre : List UInt8} (hbuf : buf = pre ++ 10 :: 13 :: 10 :: rest)
    (hpre : pre.length = pos) (hline : line ≤ pos + 1) {n : Nat}
    (hname : clenName (buf.drop line) = some n) : line + n ≤ pos + 1 := by
  rcases clenName_cases hname with ⟨_, hno, _, hnl⟩
  have hlf : buf.getD pos 0 = 10 := by
    rw [hbuf, getD_eq_headD, List.drop_left' hpre]
    rfl
  have hcr : buf.getD (pos + 1) 0 = 13 := by
    rw [hbuf, getD_eq_headD, ← List.drop_drop, List.drop_left' hpre]
    rfl
  -- Otherwise the line feed is in the name, or the line is the empty one.
  by_contra hcon
  rcases Nat.lt_or_ge pos line with hlt | hle
  · obtain rfl : line = pos + 1 := by omega
    rw [← getD_eq_headD, hcr] at hnl
    cases hnl
  · refine hno (pos - line) (by omega) ?_
    rw [getD_eq_headD, List.drop_drop, ← getD_eq_headD]
    rw [show line + (pos - line) = pos by omega]
    exact hlf

/-- **The loop over the lines** takes the first number that is not `-1`. -/
theorem clenLoop_spec {pre rest : List UInt8} (hbuf : buf = pre ++ 10 :: 13 :: 10 :: rest)
    (hpre : pre.length = pos) : ∀ (fuel s : Nat), buf.length + 1 ≤ fuel + s → s ≤ buf.length →
    ∃ clen, clenLoop buf (pos + 1) fuel (pjStrchr buf s 10) = .ok clen ∧
      ((clen = -1 ∧ ∀ line, LineStart buf pos s line → clenAt buf line = -1) ∨
        (clen ≠ -1 ∧ ∃ line, LineStart buf pos s line ∧ clenAt buf line = clen ∧
          ∀ j, LineStart buf pos s j → j < line → clenAt buf j = -1)) := by
  intro fuel
  induction fuel with
  | zero =>
      intro s hfuel hs
      omega
  | succ fuel ih =>
      intro s hfuel hs
      cases hchr : pjStrchr buf s 10 with
      | none =>
          refine ⟨-1, rfl, Or.inl ⟨rfl, fun line hline => ?_⟩⟩
          have hafter := hline.after
          exact absurd hline.newline (pjStrchr_eq_none hchr (line - 1) (by omega))
      | some i =>
          rcases pjStrchr_eq_some hchr with ⟨hsi, hlt, hi, hbefore⟩
          -- A line that starts behind `s` starts at `i + 1` or behind it.
          have hfirst : ∀ line, LineStart buf pos s line → line ≠ i + 1 →
              LineStart buf pos (i + 1) line := by
            intro line hline hne
            refine ⟨?_, hline.inside, hline.newline⟩
            by_contra hcon
            have hafter := hline.after
            exact hbefore (line - 1) (by omega) (by omega) hline.newline
          rw [clenLoop]
          by_cases hhdr : i < pos + 1
          · have hclen : contentLength buf (i + 1) (pos + 1) = .ok (clenAt buf (i + 1)) :=
              contentLength_eq fun n hname => name_inside hbuf hpre (by omega) hname
            have hstart : LineStart buf pos s (i + 1) := ⟨by omega, by omega, hi⟩
            rw [if_pos hhdr, hclen, ok_bind]
            by_cases hone : clenAt buf (i + 1) = -1
            · rw [if_neg (not_not.mpr hone)]
              rcases ih (i + 1) (by omega) hlt with ⟨clen, hloop, hcases⟩
              refine ⟨clen, hloop, ?_⟩
              rcases hcases with ⟨hm, hall⟩ | ⟨hm, line, hline, hval, hearlier⟩
              · refine Or.inl ⟨hm, fun line hline => ?_⟩
                by_cases hne : line = i + 1
                · rw [hne]
                  exact hone
                · exact hall line (hfirst line hline hne)
              · refine Or.inr ⟨hm, line, ⟨?_, hline.inside, hline.newline⟩, hval,
                  fun j hj hlt => ?_⟩
                · have := hline.after
                  omega
                · by_cases hne : j = i + 1
                  · rw [hne]
                    exact hone
                  · exact hearlier j (hfirst j hj hne) hlt
            · rw [if_pos hone]
              refine ⟨_, rfl, Or.inr ⟨hone, i + 1, hstart, rfl, fun j hj hjlt => ?_⟩⟩
              have hj' := hfirst j hj (by omega)
              have := hj'.after
              omega
          · refine ⟨-1, if_neg hhdr, Or.inl ⟨rfl, fun line hline => ?_⟩⟩
            have hinside := hline.inside
            have hafter := hline.after
            exact absurd hline.newline (hbefore (line - 1) (by omega) (by omega))

/-! ## `pjsip_find_msg` -/

/-- The number of the first Content-Length header, or `-1`. -/
inductive FirstLength (buf : List UInt8) (pos : Nat) : Int → Prop where
  | missing : (∀ line, LineStart buf pos 0 line → clenAt buf line = -1) → FirstLength buf pos (-1)
  | found {clen : Int} (line : Nat) : LineStart buf pos 0 line → clenAt buf line = clen →
      clen ≠ -1 → (∀ j, LineStart buf pos 0 j → j < line → clenAt buf j = -1) →
      FirstLength buf pos clen

theorem FirstLength.unique {clen clen' : Int} (h : FirstLength buf pos clen)
    (h' : FirstLength buf pos clen') : clen = clen' := by
  cases h with
  | missing hall =>
      cases h' with
      | missing _ => rfl
      | found line hline hval hne _ => exact absurd (hval.symm.trans (hall line hline)) hne
  | found line hline hval hne hearlier =>
      cases h' with
      | missing hall => exact absurd (hval.symm.trans (hall line hline)) hne
      | found line' hline' hval' hne' hearlier' =>
          rcases Nat.lt_trichotomy line line' with hlt | rfl | hlt
          · exact absurd (hval.symm.trans (hearlier' line hline hlt)) hne
          · exact hval.symm.trans hval'
          · exact absurd (hval'.symm.trans (hearlier line' hline' hlt)) hne'

/-- **`pjsip_find_msg`** on a stream, in terms of the section and of its Content-Length. -/
theorem findMsg_eq (h : endHdrPos buf = some pos) :
    ∃ clen, FirstLength buf pos clen ∧ pjsipFindMsg buf false = .ok (
      if clen = -1 then .emissinghdr
      else if toSize ((pos + 3 : Nat) + clen) ≤ buf.length then
        .success (toSize ((pos + 3 : Nat) + clen))
      else .epartialmsg) := by
  rcases endHdrPos_eq_some h with ⟨pre, rest, hbuf, hpre⟩
  rcases clenLoop_spec hbuf hpre (buf.length + 1) 0 (Nat.le_refl _) (Nat.zero_le _) with
    ⟨clen, hloop, hcases⟩
  have hfirst : FirstLength buf pos clen := by
    rcases hcases with ⟨rfl, hall⟩ | ⟨hne, line, hline, hval, hearlier⟩
    · exact FirstLength.missing hall
    · exact FirstLength.found line hline hval hne hearlier
  refine ⟨clen, hfirst, ?_⟩
  unfold pjsipFindMsg
  rw [if_neg Bool.false_ne_true, h]
  dsimp only
  rw [hloop, ok_bind]
  by_cases hm : clen = -1
  · rw [if_pos hm, if_pos hm]
    rfl
  · rw [if_neg hm, if_neg hm]
    rfl

theorem findMsg_none (h : endHdrPos buf = none) :
    pjsipFindMsg buf false = .ok .epartialmsg := by
  unfold pjsipFindMsg
  rw [if_neg Bool.false_ne_true, h]

end Sip
