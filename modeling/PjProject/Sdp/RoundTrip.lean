import PjProject.Scan.Rest
import PjProject.Sdp.Parse
import PjProject.Sdp.Print
import Mathlib.Data.List.ModifyLast
import Mathlib.Data.List.TakeWhile

set_option autoImplicit false

/-! # Printing and parsing

`sdp_print_parse`: a session whose strings are legal for their fields is parsed back from what is
printed. A line parser is run on the text of its line first; `Parses` says what a piece of text
does to the parser's state, and the session's text is composed of such pieces.

A tab ends the addresses and the transport as a space does, so it is not legal there:
`tab_ends_address`.
-/

namespace Sdp

open MachineInt Scan Outcome

/-! ## Numbers -/

theorem isDigit_ofNat {d : Nat} (hd : d < 10) : isDigit (UInt8.ofNat (d + 48)) = true := by
  have ht : (UInt8.ofNat (d + 48)).toNat = d + 48 := by
    rw [UInt8.toNat_ofNat']
    omega
  simp only [isDigit, Bool.and_eq_true, decide_eq_true_eq, UInt8.le_iff_toNat_le, ht]
  exact ⟨by simp, by simp; omega⟩

theorem addDigit_ofNat {v d : Nat} (hd : d < 10) (hv : v * 10 + d < 18446744073709551616) :
    addDigit v (UInt8.ofNat (d + 48)) = v * 10 + d := by
  have ht : (UInt8.ofNat (d + 48)).toNat = d + 48 := by
    rw [UInt8.toNat_ofNat']
    omega
  unfold addDigit
  rw [ht]
  omega

theorem utoaLoop_digits (fuel : Nat) : ∀ val, ∀ x ∈ utoaLoop fuel val, isDigit x = true := by
  induction fuel with
  | zero => exact nofun
  | succ fuel ih =>
      intro val x hx
      rcases List.mem_cons.mp hx with rfl | hx
      · exact isDigit_ofNat (Nat.mod_lt _ (by omega))
      · split at hx
        · exact ih _ x hx
        · exact absurd hx (List.not_mem_nil)

/-- The digits are read from the last one on. -/
theorem utoaLoop_value (fuel : Nat) : ∀ val, val < 10 ^ fuel → val < 18446744073709551616 →
    (utoaLoop fuel val).foldr (fun c v => addDigit v c) 0 = val := by
  induction fuel with
  | zero =>
      intro val h _
      have h : val < 1 := h
      have h0 : val = 0 := by omega
      rw [h0]
      rfl
  | succ fuel ih =>
      intro val h hlt
      rw [Nat.pow_succ] at h
      have hmod : val % 10 < 10 := Nat.mod_lt _ (by omega)
      rw [utoaLoop, List.foldr_cons]
      by_cases hpos : val / 10 > 0
      · rw [if_pos hpos, ih (val / 10) (by omega) (by omega), addDigit_ofNat hmod (by omega)]
        omega
      · rw [if_neg hpos, List.foldr_nil, addDigit_ofNat hmod (by omega)]
        omega

theorem pjUtoa_digits (n : Nat) : ∀ x ∈ pjUtoa n, isDigit x = true :=
  fun x hx => utoaLoop_digits 20 n x (List.mem_reverse.mp hx)

theorem pjStrtoul_pjUtoa {n : Nat} (h : n < 4294967296) : pjStrtoul (pjUtoa n) = n := by
  have hall : (pjUtoa n).takeWhile isDigit = pjUtoa n :=
    List.takeWhile_eq_self_iff.mpr (pjUtoa_digits n)
  unfold pjStrtoul
  rw [hall, pjUtoa, List.foldl_reverse]
  exact utoaLoop_value 20 n (by omega) (by omega)

/-! ## Legal strings -/

/-- None of the characters occurs in the string. -/
def Without (bad : List UInt8) (s : Str) : Prop := ∀ x ∈ s, x ∉ bad

/-- A string of token characters that is not empty. -/
def IsToken (s : Str) : Prop := s ≠ [] ∧ ∀ x ∈ s, csToken.mem x = true

instance (bad : List UInt8) (s : Str) : Decidable (Without bad s) :=
  List.decidableBAll (fun x => x ∉ bad) s

instance (s : Str) : Decidable (IsToken s) :=
  @instDecidableAnd _ _ inferInstance (List.decidableBAll (fun x => csToken.mem x = true) s)

/-- A legal connection line. `blank` are the characters that its address may not have. -/
structure LegalConn (blank : List UInt8) (c : Conn) : Prop where
  netType : Without [0, 13, 10, 32] c.netType
  addrType : Without [0, 13, 10, 32] c.addrType
  addr : Without ([0, 13, 10, 47] ++ blank) c.addr

structure LegalBandw (b : Bandw) : Prop where
  modifier : Without [0, 13, 10, 58] b.modifier
  value : b.value < 4294967296

structure LegalAttr (a : Attr) : Prop where
  name : IsToken a.name
  value : Without [0, 13, 10] a.value

structure LegalDesc (blank : List UInt8) (d : MediaDesc) : Prop where
  media : Without [0, 13, 10, 32] d.media
  port : d.port < 65536
  portCount : d.portCount ≠ 1
  portCount_lt : d.portCount < 4294967296
  transport : Without ([0, 13, 10] ++ blank) d.transport
  fmt : ∀ f ∈ d.fmt, IsToken f
  fmt_le : d.fmt.length ≤ maxFmt

structure LegalMedia (blank : List UInt8) (m : Media) : Prop where
  desc : LegalDesc blank m.desc
  conn : ∀ c, m.conn = some c → LegalConn blank c
  bandw : ∀ b ∈ m.bandw, LegalBandw b
  bandw_le : m.bandw.length ≤ maxBandw
  attr : ∀ a ∈ m.attr, LegalAttr a
  attr_le : m.attr.length ≤ maxAttr

structure LegalOrigin (blank : List UInt8) (o : Origin) : Prop where
  user : Without [0, 13, 10, 32] o.user
  id : o.id < 4294967296
  version : o.version < 4294967296
  netType : Without [0, 13, 10, 32] o.netType
  addrType : Without [0, 13, 10, 32] o.addrType
  addr : Without ([0, 13, 10] ++ blank) o.addr

/-- A legal session. A session-level direction would be handed down to the media lines. -/
structure LegalSession (blank : List UInt8) (ses : Session) : Prop where
  origin : LegalOrigin blank ses.origin
  name : Without [0, 13, 10] ses.name
  conn : ∀ c, ses.conn = some c → LegalConn blank c
  bandw : ∀ b ∈ ses.bandw, LegalBandw b
  bandw_le : ses.bandw.length ≤ maxBandw
  start : ses.start < 4294967296
  stop : ses.stop < 4294967296
  attr : ∀ a ∈ ses.attr, LegalAttr a
  attr_le : ses.attr.length ≤ maxAttr
  direction : ∀ a ∈ ses.attr, isMediaDir a = false
  media : ∀ m ∈ ses.media, LegalMedia blank m
  media_le : ses.media.length ≤ maxMedia

/-! ## Fields -/

variable {sc : PjScanner} {tok rest : Str} {c : UInt8}

theorem text_of_buf {sc sc' : PjScanner} (hb : sc'.buf = sc.buf) (t : PjStr) :
    sc'.text t = sc.text t := by
  unfold PjScanner.text
  rw [hb]

theorem charVal_beq (x : UInt8) {ch : UInt8} (hch : ch < 128) :
    (charVal x == (ch.toNat : Int)) = (x == ch) := by
  have hlt : ch.toNat < 128 := hch
  have hx := x.toNat_lt
  have hiff : charVal x = (ch.toNat : Int) ↔ x = ch := by
    rw [← UInt8.toNat_inj]
    unfold charVal
    by_cases hs : x < 128
    · rw [if_pos hs]
      omega
    · have hs' : ¬ x.toNat < 128 := hs
      rw [if_neg hs]
      omega
  rw [Bool.eq_iff_iff, beq_iff_eq, beq_iff_eq]
  exact hiff

theorem at_untilCh {ch : UInt8} (h : At sc (tok ++ ch :: rest)) (hch : ch < 128)
    (htok : ch ∉ tok) : ∃ sc', untilCh sc ch.toNat = .ok (sc', tok) ∧ At sc' (ch :: rest) := by
  have hstop : ∀ x, (charVal x == ((ch.toNat : Nat) : Int)) = (x == ch) :=
    fun x => charVal_beq x hch
  rcases h.scanUntil (fun c => charVal c == ((ch.toNat : Nat) : Int))
    (fun x hx => by rw [hstop]; exact beq_false_of_ne fun hx' => htok (hx' ▸ hx))
    (by rw [hstop]; exact beq_self_eq_true ch) with ⟨sc', hs, hat, hb⟩
  refine ⟨sc', ?_, hat⟩
  unfold untilCh pjScanGetUntilCh
  rw [hs, ok_bind]
  show Except.ok (sc', sc'.text _) = _
  rw [text_of_buf hb, h.text]

theorem at_untilChr {spec : Str} (h : At sc (tok ++ c :: rest)) (htok : Without spec tok)
    (hc : c ∈ spec) : ∃ sc', untilChr sc spec = .ok (sc', tok) ∧ At sc' (c :: rest) := by
  rcases h.scanUntil (fun c => spec.contains c)
    (fun x hx => by simpa using htok x hx) (by simpa using hc) with ⟨sc', hs, hat, hb⟩
  refine ⟨sc', ?_, hat⟩
  unfold untilChr pjScanGetUntilChr
  rw [hs, ok_bind]
  show Except.ok (sc', sc'.text _) = _
  rw [text_of_buf hb, h.text]

theorem at_getToken (h : At sc (tok ++ c :: rest)) (htok : IsToken tok)
    (hc : csToken.mem c = false) : ∃ sc', getToken sc = .ok (sc', tok) ∧ At sc' (c :: rest) := by
  rcases h.get htok.1 htok.2 hc with ⟨sc', hs, hat, hb⟩
  refine ⟨sc', ?_, hat⟩
  unfold getToken
  rw [hs, ok_bind]
  show Except.ok (sc', sc'.text _) = _
  rw [text_of_buf hb, h.text]

theorem at_fieldAndSpace (h : At sc (tok ++ 32 :: rest)) (htok : Without [0, 13, 10, 32] tok) :
    ∃ sc', fieldAndSpace sc = .ok (sc', tok) ∧ At sc' rest := by
  have hnot : (32 : UInt8) ∉ tok := fun hx => htok 32 hx (by decide)
  rcases at_untilCh h (by decide) hnot with ⟨sc1, hs1, hat1⟩
  rcases hat1.getChar (by decide) with ⟨sc2, hs2, hat2, -⟩
  refine ⟨sc2, ?_, hat2⟩
  unfold fieldAndSpace
  rw [show untilCh sc 32 = .ok (sc1, tok) from hs1, ok_bind, hs2, ok_bind]
  rfl

theorem without_digits {bad : List UInt8} (hbad : bad.any isDigit = false) (n : Nat) :
    Without bad (pjUtoa n) := by
  intro x hx hb
  have h1 := List.any_eq_true.mpr ⟨x, hb, pjUtoa_digits n x hx⟩
  rw [hbad] at h1
  cases h1

theorem isToken_digits (n : Nat) : IsToken (pjUtoa n) := by
  refine ⟨pjUtoa_ne_nil n, fun x hx => ?_⟩
  have h1 := pjUtoa_digits n x hx
  simp [csToken, h1]

/-- The start of a line. -/
theorem at_lineStart {x : UInt8} (h : At sc (x :: 61 :: rest)) :
    checkEqual sc = .ok () ∧ ∃ sc', pjScanAdvanceN sc 2 false = .ok sc' ∧ At sc' rest := by
  rcases (show At sc ([x, 61] ++ rest) from h).advance with ⟨sc', hs, hat, -⟩
  refine ⟨?_, sc', hs, hat⟩
  unfold checkEqual
  rw [h.charAt 1 (by simp), ok_bind]
  rfl

/-- The end of a line. -/
theorem at_lineEnd (h : At sc (crlf ++ rest)) : ∃ sc', pjScanSkipLine sc = .ok sc' ∧ At sc' rest := by
  rcases (show At sc ([13] ++ 10 :: rest) from h).skipLine (by simp) with ⟨sc', hs, hat, -⟩
  exact ⟨sc', hs, hat⟩

theorem Without.mono {bad bad' : List UInt8} {s : Str} (h : Without bad s)
    (hsub : bad'.all bad.contains = true) : Without bad' s :=
  fun x hx hb => h x hx (List.contains_iff_mem.mp (List.all_eq_true.mp hsub x hb))

/-! ## Lines -/

theorem at_parseVersion (h : At sc (versionText ++ rest)) :
    ∃ sc', parseVersion sc = .ok sc' ∧ At sc' rest := by
  rcases (show At sc ([118, 61, 48, 13] ++ 10 :: rest) from h).skipLine (by simp) with
    ⟨sc', hs, hat, -⟩
  have heq := (at_lineStart (show At sc (118 :: 61 :: 48 :: 13 :: 10 :: rest) from h)).1
  refine ⟨sc', ?_, hat⟩
  unfold parseVersion
  rw [heq, ok_bind, h.charAt 2 (by simp [versionText]), ok_bind]
  exact hs

theorem at_parseOrigin {o : Origin} (ho : LegalOrigin [32, 9] o) (h : At sc (originText o ++ rest)) :
    ∃ sc', parseOrigin sc = .ok (sc', o) ∧ At sc' rest := by
  simp only [originText, List.append_assoc, List.cons_append, List.nil_append] at h
  rcases at_lineStart h with ⟨heq, sc0, h0, hat0⟩
  rcases at_fieldAndSpace hat0 ho.user with ⟨sc1, h1, hat1⟩
  rcases at_fieldAndSpace hat1 (without_digits (by decide) o.id) with ⟨sc2, h2, hat2⟩
  rcases at_fieldAndSpace hat2 (without_digits (by decide) o.version) with ⟨sc3, h3, hat3⟩
  rcases at_fieldAndSpace hat3 ho.netType with ⟨sc4, h4, hat4⟩
  rcases at_fieldAndSpace hat4 ho.addrType with ⟨sc5, h5, hat5⟩
  rcases at_untilChr (show At sc5 (o.addr ++ 13 :: 10 :: rest) from hat5)
    (ho.addr.mono (by decide)) (show (13 : UInt8) ∈ endOfField by decide) with ⟨sc6, h6, hat6⟩
  rcases at_lineEnd hat6 with ⟨sc7, h7, hat7⟩
  refine ⟨sc7, ?_, hat7⟩
  unfold parseOrigin
  simp only [heq, h0, h1, h2, h3, h4, h5, h6, h7, ok_bind]
  rw [pjStrtoul_pjUtoa ho.id, pjStrtoul_pjUtoa ho.version, uint32_natCast ho.id,
    uint32_natCast ho.version]
  rfl

theorem at_parseTime {start stop : Nat} (h1 : start < 4294967296) (h2 : stop < 4294967296)
    (h : At sc (timeText start stop ++ rest)) :
    ∃ sc', parseTime sc = .ok (sc', start, stop) ∧ At sc' rest := by
  simp only [timeText, List.append_assoc, List.cons_append, List.nil_append] at h
  rcases at_lineStart h with ⟨heq, sc0, hs0, hat0⟩
  rcases at_fieldAndSpace hat0 (without_digits (by decide) start) with ⟨sc1, hs1, hat1⟩
  rcases at_untilChr (show At sc1 (pjUtoa stop ++ 13 :: 10 :: rest) from hat1)
    (without_digits (by decide) stop) (show (13 : UInt8) ∈ endOfField by decide) with
    ⟨sc2, hs2, hat2⟩
  rcases at_lineEnd hat2 with ⟨sc3, hs3, hat3⟩
  refine ⟨sc3, ?_, hat3⟩
  unfold parseTime
  simp only [heq, hs0, hs1, hs2, hs3, ok_bind]
  rw [pjStrtoul_pjUtoa h1, pjStrtoul_pjUtoa h2, uint32_natCast h1, uint32_natCast h2]
  rfl

theorem at_parseName {name : Str} (hn : Without [0, 13, 10] name) (h : At sc (nameText name ++ rest)) :
    ∃ sc', parseGenericLine sc = .ok (sc', name) ∧ At sc' rest := by
  simp only [nameText, List.append_assoc, List.cons_append, List.nil_append] at h
  rcases at_lineStart h with ⟨heq, sc0, hs0, hat0⟩
  rcases at_untilChr (show At sc0 (name ++ 13 :: 10 :: rest) from hat0) (hn.mono (by decide))
    (show (13 : UInt8) ∈ [13, 10] by decide) with ⟨sc1, hs1, hat1⟩
  rcases hat1.newline with ⟨sc2, hs2, hat2, -⟩
  refine ⟨sc2, ?_, hat2⟩
  unfold parseGenericLine
  simp only [heq, hs0, hs1, hs2, ok_bind]
  rfl

theorem upToNul_of_without {s zs : Str} (h : Without zs s) (hzero : 0 ∈ zs) : upToNul s = s := by
  rw [upToNul, List.takeWhile_eq_self_iff]
  intro c hc
  have hne : c ≠ 0 := by
    rintro rfl
    exact h 0 hc hzero
  simpa using hne

theorem at_parseConn {conn : Conn} (hc : LegalConn [32, 9] conn) (h : At sc (connText conn ++ rest)) :
    ∃ sc', parseConnectionInfo sc = .ok (sc', conn) ∧ At sc' rest := by
  simp only [connText, upToNul_of_without hc.netType (by decide),
    upToNul_of_without hc.addrType (by decide), upToNul_of_without hc.addr (by decide),
    List.append_assoc, List.cons_append, List.nil_append] at h
  rcases at_lineStart h with ⟨-, sc0, hs0, hat0⟩
  rcases at_fieldAndSpace hat0 hc.netType with ⟨sc1, hs1, hat1⟩
  rcases at_fieldAndSpace hat1 hc.addrType with ⟨sc2, hs2, hat2⟩
  rcases at_untilChr (show At sc2 (conn.addr ++ 13 :: 10 :: rest) from hat2)
    (hc.addr.mono (by decide)) (show (13 : UInt8) ∈ 47 :: endOfField by decide) with
    ⟨sc3, hs3, hat3⟩
  rcases at_lineEnd hat3 with ⟨sc4, hs4, hat4⟩
  refine ⟨sc4, ?_, hat4⟩
  unfold parseConnectionInfo
  simp only [hs0, hs1, hs2, hs3, hs4, ok_bind]
  rfl

theorem at_parseBandw {b : Bandw} (hb : LegalBandw b) (h : At sc (bandwText b ++ rest)) :
    ∃ sc', parseBandwidthInfo sc = .ok (sc', b) ∧ At sc' rest := by
  simp only [bandwText, List.append_assoc, List.cons_append, List.nil_append] at h
  rcases at_lineStart h with ⟨-, sc0, hs0, hat0⟩
  rcases at_untilCh hat0 (by decide) (fun hx => hb.modifier 58 hx (by decide)) with ⟨sc1, hs1, hat1⟩
  rcases hat1.getChar (by decide) with ⟨sc2, hs2, hat2, -⟩
  rcases at_untilChr (show At sc2 (pjUtoa b.value ++ 13 :: 10 :: rest) from hat2)
    (without_digits (by decide) b.value) (show (13 : UInt8) ∈ endOfField by decide) with
    ⟨sc3, hs3, hat3⟩
  rcases at_lineEnd hat3 with ⟨sc4, hs4, hat4⟩
  refine ⟨sc4, ?_, hat4⟩
  have hs1 : untilCh sc0 58 = .ok (sc1, b.modifier) := hs1
  unfold parseBandwidthInfo
  simp only [hs0, hs1, hs2, hs3, hs4, ok_bind]
  rw [pjStrtoul_pjUtoa hb.value, uint32_natCast hb.value]
  rfl

/-- An attribute without a value ends at its name; a value stands behind a colon. -/
theorem at_parseAttrValue {value : Str} (hv : Without [0, 13, 10] value)
    (h : At sc ((if value.length ≠ 0 then [58] ++ value else []) ++ (crlf ++ rest))) :
    ∃ sc', parseAttrValue sc = .ok (sc', value) ∧ At sc' (crlf ++ rest) := by
  cases value with
  | nil =>
      have h : At sc (13 :: 10 :: rest) := h
      refine ⟨sc, ?_, h⟩
      unfold parseAttrValue
      rw [h.head, ok_bind]
      rfl
  | cons x value =>
      have h : At sc (58 :: (x :: value ++ 13 :: 10 :: rest)) := h
      rcases h.getChar (by decide) with ⟨sc1, hs1, hat1, -⟩
      have hx : x ≠ 13 ∧ x ≠ 10 := by
        have hmem := hv x List.mem_cons_self
        simp only [List.mem_cons, List.not_mem_nil, or_false, not_or] at hmem
        exact hmem.2
      have hat1' : At sc1 (x :: (value ++ 13 :: 10 :: rest)) := hat1
      rcases at_untilChr hat1 (hv.mono (by decide)) (show (13 : UInt8) ∈ [13, 10] by decide) with
        ⟨sc2, hs2, hat2⟩
      have hcolon : skipColon sc = .ok sc1 := by
        unfold skipColon
        rw [h.head, ok_bind, if_pos rfl, hs1]
        rfl
      refine ⟨sc2, ?_, hat2⟩
      unfold parseAttrValue
      rw [h.head, ok_bind, if_pos (by decide), hcolon, ok_bind, hat1'.head, ok_bind, if_pos hx]
      exact hs2

theorem at_parseAttr {a : Attr} (ha : LegalAttr a) (h : At sc (attrText a ++ rest)) :
    ∃ sc', parseAttr sc = .ok (sc', a) ∧ At sc' rest := by
  simp only [attrText, List.append_assoc, List.cons_append, List.nil_append] at h
  rcases at_lineStart h with ⟨heq, sc0, hs0, hat0⟩
  -- The name is followed by a colon or by the end of the line.
  have hnext : ∃ c l, (if a.value.length ≠ 0 then 58 :: a.value else []) ++ (crlf ++ rest) = c :: l ∧
      csToken.mem c = false := by
    split
    · exact ⟨58, _, rfl, by decide⟩
    · exact ⟨13, _, rfl, by decide⟩
  rcases hnext with ⟨c, l, hl, hc⟩
  rw [hl] at hat0
  rcases at_getToken hat0 ha.name hc with ⟨sc1, hs1, hat1⟩
  rw [← hl] at hat1
  rcases at_parseAttrValue ha.value hat1 with ⟨sc2, hs2, hat2⟩
  rcases at_lineEnd hat2 with ⟨sc3, hs3, hat3⟩
  refine ⟨sc3, ?_, hat3⟩
  unfold parseAttr
  simp only [heq, hs0, hs1, hs2, hs3, ok_bind]
  rfl

theorem at_parsePortCount {count : Nat} (h1 : count ≠ 1) (h2 : count < 4294967296)
    (h : At sc ((if count > 1 then [47] ++ pjUtoa count else []) ++ 32 :: rest)) :
    ∃ sc', parsePortCount sc = .ok (sc', count) ∧ At sc' (32 :: rest) := by
  by_cases hgt : count > 1
  · rw [if_pos hgt] at h
    have h : At sc (47 :: (pjUtoa count ++ 32 :: rest)) := h
    rcases h.getChar (by decide) with ⟨sc1, hs1, hat1, -⟩
    rcases at_getToken hat1 (isToken_digits count) (by decide) with ⟨sc2, hs2, hat2⟩
    refine ⟨sc2, ?_, hat2⟩
    unfold parsePortCount
    rw [h.head, ok_bind, if_pos rfl]
    simp only [hs1, hs2, ok_bind]
    rw [pjStrtoul_pjUtoa h2, uint32_natCast h2]
    rfl
  · rw [if_neg hgt] at h
    have h : At sc (32 :: rest) := h
    have h0 : count = 0 := by omega
    refine ⟨sc, ?_, h⟩
    unfold parsePortCount
    rw [h.head, ok_bind, h0]
    rfl

/-- The character behind the transport or a format is a space or ends the line. -/
theorem fmts_next (rest : Str) (fmt : List Str) : ∃ c l, (fmt.flatMap fun f => 32 :: f) ++ (crlf ++ rest) = c :: l ∧
    c ∈ endOfField ∧ csToken.mem c = false := by
  cases fmt with
  | nil => exact ⟨13, _, rfl, by decide, by decide⟩
  | cons f fmt => exact ⟨32, _, rfl, by decide, by decide⟩

theorem at_parseFmts (fmt : List Str) : ∀ (fuel : Nat) (sc : PjScanner) (acc : List Str),
    (∀ f ∈ fmt, IsToken f) → acc.length + fmt.length ≤ maxFmt → fmt.length < fuel →
    At sc ((fmt.flatMap fun f => 32 :: f) ++ (crlf ++ rest)) →
    ∃ sc', parseFmts fuel sc acc = .ok (sc', acc ++ fmt) ∧ At sc' (crlf ++ rest) := by
  induction fmt with
  | nil =>
      intro fuel sc acc _ _ hfuel h
      have h : At sc (13 :: 10 :: rest) := h
      cases fuel with
      | zero => exact absurd hfuel (Nat.not_lt_zero _)
      | succ fuel =>
          refine ⟨sc, ?_, h⟩
          rw [parseFmts, h.head, ok_bind, List.append_nil]
          rfl
  | cons f fmt ih =>
      intro fuel sc acc htok hlen hfuel h
      rw [List.length_cons] at hlen hfuel
      cases fuel with
      | zero => exact absurd hfuel (Nat.not_lt_zero _)
      | succ fuel =>
          have hf := htok f List.mem_cons_self
          simp only [List.flatMap_cons, List.cons_append, List.append_assoc] at h
          rcases h.getChar (by decide) with ⟨sc1, hs1, hat1, -⟩
          -- A format starts with a token character, so it does not end the line.
          obtain ⟨x, f', rfl⟩ : ∃ x f', f = x :: f' := List.exists_cons_of_ne_nil hf.1
          have hx : ¬ (x = 13 ∨ x = 10) := by
            have hmem := hf.2 x List.mem_cons_self
            rintro (rfl | rfl) <;> exact absurd hmem (by decide)
          rcases fmts_next rest fmt with ⟨c, l, hl, -, hc⟩
          have hat1' := hat1
          rw [hl] at hat1'
          rcases at_getToken hat1' hf hc with ⟨sc2, hs2, hat2⟩
          rw [← hl] at hat2
          rcases ih fuel sc2 (acc ++ [x :: f']) (fun g hg => htok g (List.mem_cons_of_mem _ hg))
            (by rw [List.length_append, List.length_singleton]; omega) (by omega) hat2 with
            ⟨sc3, hs3, hat3⟩
          refine ⟨sc3, ?_, hat3⟩
          have hhead := (show At sc1 (x :: (f' ++ ((fmt.flatMap fun f => 32 :: f) ++ (crlf ++ rest))))
            from hat1).head
          rw [parseFmts, h.head, ok_bind, if_pos rfl, hs1, ok_bind, hhead, ok_bind, if_neg hx, hs2,
            ok_bind, if_pos (by unfold maxFmt at hlen ⊢; omega), hs3, List.append_assoc]
          rfl

theorem at_expectSpace (h : At sc (32 :: rest)) : ∃ sc', expectSpace sc = .ok sc' ∧ At sc' rest := by
  rcases h.getChar (by decide) with ⟨sc', hs, hat, -⟩
  refine ⟨sc', ?_, hat⟩
  unfold expectSpace
  rw [hs, ok_bind]
  rfl

theorem at_parseMedia {d : MediaDesc} (hd : LegalDesc [32, 9] d) (h : At sc (mediaLine d ++ rest)) :
    ∃ sc', parseMedia sc = .ok (sc', d) ∧ At sc' rest := by
  simp only [mediaLine, List.append_assoc, List.cons_append, List.nil_append] at h
  rcases at_lineStart h with ⟨heq, sc0, hs0, hat0⟩
  rcases at_fieldAndSpace hat0 hd.media with ⟨sc1, hs1, hat1⟩
  -- The port is followed by its count or by a space.
  have hnext : ∀ l : Str, ∃ c l', (if d.portCount > 1 then 47 :: pjUtoa d.portCount else []) ++
      32 :: l = c :: l' ∧ csToken.mem c = false := by
    intro l
    split
    · exact ⟨47, _, rfl, by decide⟩
    · exact ⟨32, _, rfl, by decide⟩
  rcases hnext (d.transport ++ ((d.fmt.flatMap fun f => 32 :: f) ++ (crlf ++ rest))) with
    ⟨c, l, hl, hc⟩
  rw [hl] at hat1
  rcases at_getToken hat1 (isToken_digits d.port) hc with ⟨sc2, hs2, hat2⟩
  rw [← hl] at hat2
  rcases at_parsePortCount hd.portCount hd.portCount_lt hat2 with ⟨sc3, hs3, hat3⟩
  rcases at_expectSpace hat3 with ⟨sc4, hs4, hat4⟩
  rcases fmts_next rest d.fmt with ⟨c', l', hl', hc', -⟩
  rw [hl'] at hat4
  rcases at_untilChr hat4 (hd.transport.mono (by decide)) hc' with ⟨sc5, hs5, hat5⟩
  rw [← hl'] at hat5
  have hfuel : d.fmt.length < sc5.fuel := by
    have hlen := hat5.length
    have hflat : d.fmt.length ≤ (d.fmt.flatMap fun f => 32 :: f).length := by
      generalize d.fmt = fmt
      induction fmt with
      | nil => exact le_rfl
      | cons f fmt ih =>
          rw [List.flatMap_cons, List.length_append, List.length_cons, List.length_cons]
          omega
    rw [List.length_append] at hlen
    unfold PjScanner.fuel
    omega
  rcases at_parseFmts d.fmt sc5.fuel sc5 [] hd.fmt (by simpa using hd.fmt_le) hfuel hat5 with
    ⟨sc6, hs6, hat6⟩
  rcases at_lineEnd hat6 with ⟨sc7, hs7, hat7⟩
  refine ⟨sc7, ?_, hat7⟩
  unfold parseMedia
  simp only [heq, hs0, hs1, hs2, hs3, hs4, hs5, hs6, hs7, ok_bind, List.nil_append]
  have hport := hd.port
  rw [pjStrtoul_pjUtoa (by omega), Nat.mod_eq_of_lt hport]
  rfl

/-! ## Composing lines -/

/-- The text takes the parser from one state to another, whatever follows it. -/
def Parses (text : Str) (st st' : ParseState) : Prop :=
  ∀ (sc : PjScanner) (rest : Str) (fuel : Nat), At sc (text ++ rest) → (text ++ rest).length < fuel →
    ∃ sc' fuel', At sc' rest ∧ rest.length < fuel' ∧ parseLoop fuel sc st = parseLoop fuel' sc' st'

variable {st st' : ParseState}

theorem Parses.nil (st : ParseState) : Parses [] st st :=
  fun sc _ fuel h hf => ⟨sc, fuel, h, hf, rfl⟩

theorem Parses.append {t1 t2 : Str} {st'' : ParseState} (h1 : Parses t1 st st')
    (h2 : Parses t2 st' st'') : Parses (t1 ++ t2) st st'' := by
  intro sc rest fuel h hf
  rw [List.append_assoc] at h hf
  rcases h1 sc (t2 ++ rest) fuel h hf with ⟨sc1, fuel1, hat1, hf1, heq1⟩
  rcases h2 sc1 rest fuel1 hat1 hf1 with ⟨sc2, fuel2, hat2, hf2, heq2⟩
  exact ⟨sc2, fuel2, hat2, hf2, heq1.trans heq2⟩

/-- One round of the parser's loop. -/
theorem Parses.line {text : Str} (hne : text ≠ [])
    (hline : ∀ sc rest, At sc (text ++ rest) →
      ∃ sc', parseLine sc st = .ok (sc', st') ∧ At sc' rest) : Parses text st st' := by
  intro sc rest fuel h hf
  have hpos := List.length_pos_iff.mpr hne
  have hlen := h.length
  rw [List.length_append] at hf hlen
  cases fuel with
  | zero => exact absurd hf (Nat.not_lt_zero _)
  | succ fuel =>
      rcases hline sc rest h with ⟨sc', hs, hat⟩
      refine ⟨sc', fuel, hat, by omega, ?_⟩
      rw [parseLoop, if_neg (by unfold PjScanner.endPos; omega), hs, ok_bind]

/-- The lines of an array, whose states are indexed by the elements parsed so far. -/
theorem Parses.list {α : Type} {text : α → Str} (state : List α → ParseState) (n : Nat)
    {Legal : α → Prop} (hone : ∀ acc a, acc.length < n → Legal a →
      Parses (text a) (state acc) (state (acc ++ [a]))) (l : List α) :
    ∀ acc, (∀ a ∈ l, Legal a) → acc.length + l.length ≤ n →
      Parses (l.flatMap text) (state acc) (state (acc ++ l)) := by
  induction l with
  | nil =>
      intro acc _ _
      rw [List.append_nil]
      exact Parses.nil _
  | cons a l ih =>
      intro acc hl hn
      rw [List.length_cons] at hn
      have hrest := ih (acc ++ [a]) (fun b hb => hl b (List.mem_cons_of_mem a hb))
        (by rw [List.length_append, List.length_singleton]; omega)
      rw [List.append_assoc] at hrest
      rw [List.flatMap_cons]
      exact (hone acc a (by omega) (hl a List.mem_cons_self)).append hrest

/-- A line whose first letter says its kind: the parser of the kind ends behind it, and what it gives is
stored. -/
theorem Parses.kind {α : Type} {text tail : Str} {c : UInt8} {v : α}
    {read : PjScanner → Except Stop (PjScanner × α)} (htext : text = c :: tail)
    (hread : ∀ {sc rest}, At sc (text ++ rest) → ∃ sc', read sc = .ok (sc', v) ∧ At sc' rest)
    (hkind : ∀ {sc sc'}, sc.charAt sc.curptr = .ok c → read sc = .ok (sc', v) →
      parseLine sc st = .ok (sc', st')) : Parses text st st' := by
  subst htext
  refine Parses.line (List.cons_ne_nil _ _) fun sc rest h => ?_
  rcases hread h with ⟨sc', hs, hat⟩
  exact ⟨sc', hkind h.head hs, hat⟩

theorem parses_attr (st : ParseState) {a : Attr} (ha : LegalAttr a) : Parses (attrText a) st (st.addAttr a) := by
  refine Parses.kind rfl (at_parseAttr ha) fun hc hs => ?_
  unfold parseLine
  rw [hc]
  show (onLine .einattr (parseAttr _) >>= _) = _
  rw [hs]
  rfl

theorem parses_conn (st : ParseState) {conn : Conn} (hc : LegalConn [32, 9] conn) :
    Parses (connText conn) st (st.setConn conn) := by
  refine Parses.kind rfl (at_parseConn hc) fun hhead hs => ?_
  unfold parseLine
  rw [hhead]
  show (onLine .einconn (parseConnectionInfo _) >>= _) = _
  rw [hs]
  rfl

theorem parses_bandw {b : Bandw} (hb : LegalBandw b) (hadd : st.addBandw b = .ok st') :
    Parses (bandwText b) st st' := by
  refine Parses.kind rfl (at_parseBandw hb) fun hc hs => ?_
  unfold parseLine
  rw [hc]
  show (onLine .einbandw (parseBandwidthInfo _) >>= _) = _
  rw [hs]
  show (st.addBandw b >>= _) = _
  rw [hadd]
  rfl

theorem parses_mediaLine (st : ParseState) {d : MediaDesc} (hd : LegalDesc [32, 9] d) :
    Parses (mediaLine d) st (st.addMedia d) := by
  refine Parses.kind rfl (at_parseMedia hd) fun hc hs => ?_
  unfold parseLine
  rw [hc]
  show (onLine .einmedia (parseMedia _) >>= _) = _
  rw [hs]
  rfl

theorem parses_version (st : ParseState) : Parses versionText st st := by
  refine Parses.line (by simp [versionText]) fun sc rest h => ?_
  rcases at_parseVersion h with ⟨sc', hs, hat⟩
  refine ⟨sc', ?_, hat⟩
  unfold parseLine
  rw [(show At sc (118 :: _) from h).head]
  show (onLine .einver (parseVersion sc) >>= _) = _
  rw [hs]
  rfl

theorem parses_origin (st : ParseState) {o : Origin} (ho : LegalOrigin [32, 9] o) :
    Parses (originText o) st { st with session := { st.session with origin := o } } := by
  refine Parses.kind rfl (at_parseOrigin ho) fun hc hs => ?_
  unfold parseLine
  rw [hc]
  show (onLine .einorigin (parseOrigin _) >>= _) = _
  rw [hs]
  rfl

theorem parses_name (st : ParseState) {name : Str} (hn : Without [0, 13, 10] name) :
    Parses (nameText name) st { st with session := { st.session with name := name } } := by
  refine Parses.kind rfl (at_parseName hn) fun hc hs => ?_
  unfold parseLine
  rw [hc]
  show (onLine .einsdp (parseGenericLine _) >>= _) = _
  rw [hs]
  rfl

theorem parses_time (st : ParseState) {start stop : Nat} (h1 : start < 4294967296) (h2 : stop < 4294967296) :
    Parses (timeText start stop) st
      { st with session := { st.session with start := start, stop := stop } } := by
  refine Parses.kind rfl (at_parseTime h1 h2) fun hc hs => ?_
  unfold parseLine
  rw [hc]
  show (onLine .eintime (parseTime _) >>= _) = _
  rw [hs]
  rfl

theorem attrAdd_of_lt {l : List Attr} {a : Attr} (h : l.length < maxAttr) :
    attrAdd l a = l ++ [a] := by
  rw [attrAdd, if_pos h]

/-! ## Media lines -/

/-- The parser behind the `m=` line of `m`, the last one of the session. -/
def mediaState (ses : Session) (ms : List Media) (m : Media) : ParseState :=
  ⟨{ ses with media := ms ++ [m] }, .media⟩

theorem parses_media (ses : Session) (ms : List Media) {m : Media} (hm : LegalMedia [32, 9] m)
    (hms : ms.length < maxMedia) {target : Target} :
    Parses (mediaText m) ⟨{ ses with media := ms }, target⟩ (mediaState ses ms m) := by
  have hline : Parses (mediaLine m.desc) ⟨{ ses with media := ms }, target⟩
      (mediaState ses ms ⟨m.desc, none, [], []⟩) := by
    have h := parses_mediaLine ⟨{ ses with media := ms }, target⟩ hm.desc
    rwa [ParseState.addMedia, if_pos hms] at h
  have hconn : Parses (connText? m.conn) (mediaState ses ms ⟨m.desc, none, [], []⟩)
      (mediaState ses ms ⟨m.desc, m.conn, [], []⟩) := by
    cases hc : m.conn with
    | none => exact Parses.nil _
    | some c =>
        have h := parses_conn (mediaState ses ms ⟨m.desc, none, [], []⟩) (hm.conn c hc)
        simp only [ParseState.setConn, mediaState, ParseState.onMedia, List.modifyLast_concat] at h
        exact h
  have hbandw : Parses (m.bandw.flatMap bandwText) (mediaState ses ms ⟨m.desc, m.conn, [], []⟩)
      (mediaState ses ms ⟨m.desc, m.conn, m.bandw, []⟩) := by
    refine Parses.list (fun acc => mediaState ses ms ⟨m.desc, m.conn, acc, []⟩) maxBandw
      (fun acc b hacc hb => parses_bandw hb ?_) m.bandw [] hm.bandw
      (by simpa using hm.bandw_le)
    have hlt : (mediaState ses ms ⟨m.desc, m.conn, acc, []⟩).bandw.length < maxBandw := by
      simpa [ParseState.bandw, mediaState] using hacc
    rw [ParseState.addBandw, if_pos hlt]
    simp only [mediaState, ParseState.onMedia, List.modifyLast_concat]
  have hattr : Parses (m.attr.flatMap attrText) (mediaState ses ms ⟨m.desc, m.conn, m.bandw, []⟩)
      (mediaState ses ms m) := by
    refine Parses.list (fun acc => mediaState ses ms ⟨m.desc, m.conn, m.bandw, acc⟩) maxAttr
      (fun acc a hacc ha => ?_) m.attr [] hm.attr (by simpa using hm.attr_le)
    have h := parses_attr (mediaState ses ms ⟨m.desc, m.conn, m.bandw, acc⟩) ha
    simp only [ParseState.addAttr, mediaState, ParseState.onMedia, List.modifyLast_concat, Media.addAttr,
      attrAdd_of_lt hacc] at h
    exact h
  exact ((hline.append hconn).append hbandw).append hattr

/-! ## The session -/

/-- The parser behind the media lines `ms`. -/
def linesState (ses : Session) (ms : List Media) : ParseState :=
  ⟨{ ses with media := ms }, if ms = [] then .session else .media⟩

theorem parses_sessionText {ses : Session} (h : LegalSession [32, 9] ses) :
    Parses (sessionText ses) ⟨.zero, .session⟩ (linesState ses ses.media) := by
  let z := Session.zero
  let s1 : Session := { z with origin := ses.origin }
  let s2 : Session := { s1 with name := ses.name }
  let s3 : Session := { s2 with conn := ses.conn }
  let s4 : Session := { s3 with bandw := ses.bandw }
  let s5 : Session := { s4 with start := ses.start, stop := ses.stop }
  let s6 : Session := { s5 with attr := ses.attr }
  have horigin : Parses (versionText ++ originText ses.origin) ⟨z, .session⟩ ⟨s1, .session⟩ :=
    (parses_version _).append (parses_origin _ h.origin)
  have hname : Parses (nameText ses.name) ⟨s1, .session⟩ ⟨s2, .session⟩ := parses_name _ h.name
  have hconn : Parses (connText? ses.conn) ⟨s2, .session⟩ ⟨s3, .session⟩ := by
    cases hc : ses.conn with
    | none =>
        have hs : s3 = s2 := by simp only [s3, hc]; rfl
        rw [hs]
        exact Parses.nil _
    | some c =>
        have hs : s3 = { s2 with conn := some c } := by simp only [s3, hc]
        rw [hs]
        exact parses_conn _ (h.conn c hc)
  have hbandw : Parses (ses.bandw.flatMap bandwText) ⟨s3, .session⟩ ⟨s4, .session⟩ := by
    refine Parses.list (fun acc => ⟨{ s3 with bandw := acc }, .session⟩) maxBandw
      (fun acc b hacc hb => parses_bandw hb ?_) ses.bandw [] h.bandw (by simpa using h.bandw_le)
    exact if_pos hacc
  have htime : Parses (timeText ses.start ses.stop) ⟨s4, .session⟩ ⟨s5, .session⟩ :=
    parses_time _ h.start h.stop
  have hattr : Parses (ses.attr.flatMap attrText) ⟨s5, .session⟩ ⟨s6, .session⟩ := by
    refine Parses.list (fun acc => ⟨{ s5 with attr := acc }, .session⟩) maxAttr
      (fun acc a hacc ha => ?_) ses.attr [] h.attr (by simpa using h.attr_le)
    have ht := parses_attr ⟨{ s5 with attr := acc }, .session⟩ ha
    simp only [ParseState.addAttr, attrAdd_of_lt hacc] at ht
    exact ht
  have hmedia : Parses (ses.media.flatMap mediaText) ⟨s6, .session⟩ (linesState ses ses.media) := by
    refine Parses.list (linesState ses) maxMedia (fun ms m hms hm => ?_) ses.media [] h.media
      (by simpa using h.media_le)
    have ht : linesState ses (ms ++ [m]) = mediaState ses ms m := by
      simp [linesState, mediaState]
    rw [ht]
    exact parses_media ses ms hm hms
  exact ((((((horigin.append hname).append hconn).append hbandw).append htime).append hattr).append
    hmedia)

/-- A session without a direction of its own is left as it is. -/
theorem applyMediaDirection_of_none {ses : Session} (h : ∀ a ∈ ses.attr, isMediaDir a = false) :
    applyMediaDirection ses = ses := by
  have hnone : ses.attr.find? isSessionDir = none := by
    rw [List.find?_eq_none]
    intro a ha hd
    have hdir := h a ha
    rw [isMediaDir, hd, Bool.or_true] at hdir
    cases hdir
  rw [applyMediaDirection, hnone]

/-- At the end of the text the loop returns its state. -/
theorem parseLoop_end {fuel : Nat} (h : At sc []) (hf : 0 < fuel) : parseLoop fuel sc st = .ok st := by
  have hlen := h.length
  cases fuel with
  | zero => exact absurd hf (Nat.lt_irrefl 0)
  | succ fuel =>
      rw [List.length_nil] at hlen
      rw [parseLoop, if_pos (by unfold PjScanner.endPos; omega)]

theorem leadingNewlines_none {fuel : Nat} (h : At sc (c :: rest)) (hc : ¬ (c = 13 ∨ c = 10)) :
    leadingNewlines (fuel + 1) sc = .ok sc := by
  rw [leadingNewlines, h.head, ok_bind, if_neg hc]
  rfl

/-- A text that takes the parser from the beginning to `st'` is parsed to the session of `st'`. -/
theorem sdpParse_of_parses (hc : ¬ (c = 13 ∨ c = 10))
    (h : Parses (c :: rest) ⟨.zero, .session⟩ st') :
    sdpParse (c :: rest) = .ok (applyMediaDirection st'.session) := by
  have hinit : pjScanInit (c :: rest) 0 = .ok ⟨c :: rest, 0, 1, 0, 0⟩ := rfl
  generalize hsc : (⟨c :: rest, 0, 1, 0, 0⟩ : PjScanner) = sc at hinit
  have hat : At sc (c :: rest ++ []) := by
    rw [← hsc, List.append_nil]
    exact ⟨rfl, Nat.zero_le _, rfl⟩
  have hfuel : (c :: rest ++ []).length < sc.fuel := by
    have hlen := hat.length
    unfold PjScanner.fuel
    omega
  rcases h sc [] sc.fuel hat hfuel with ⟨sc', fuel', hat', hf', heq⟩
  have hlead : leadingNewlines sc.fuel sc = .ok sc :=
    leadingNewlines_none (show At sc (c :: (rest ++ [])) from hat) hc
  unfold sdpParse
  rw [hinit]
  show (onLine .einsdp (leadingNewlines sc.fuel sc) >>= _) = _
  rw [hlead]
  show (parseLoop sc.fuel sc ⟨.zero, .session⟩ >>= _) = _
  rw [heq, parseLoop_end hat' hf', ok_bind]
  rfl

/-- **Print and parse.** What is printed of a legal session is parsed back to it. -/
theorem sdp_print_parse (ses : Session) (size : Nat) (text : Str) (h : LegalSession [32, 9] ses)
    (hp : sdpPrint ses size = .ok text) : sdpParse text = .ok ses := by
  rw [printSession_eq hp]
  have hparse := sdpParse_of_parses (by decide) (parses_sessionText h)
  rw [show (linesState ses ses.media).session = ses from rfl,
    applyMediaDirection_of_none h.direction] at hparse
  exact hparse

/-- A session with one media line and the given origin address. -/
def plainSdp (addr : Str) : Session where
  origin := ⟨[45], 7, 1, strIN, strIP4, addr⟩
  name := [45]
  conn := some ⟨strIN, strIP4, [49]⟩
  bandw := [⟨[65, 83], 64⟩]
  start := 0
  stop := 0
  attr := []
  media := [⟨⟨[97], 4000, 2, [82], [[48], [56]]⟩, none, [], [⟨strRtpmap, [48, 32, 80]⟩]⟩]

/-- The example is legal whenever its addresses and its transport are. -/
theorem plainSdp_legal {blank addr : Str} (ha : Without ([0, 13, 10] ++ blank) addr)
    (hc : Without ([0, 13, 10, 47] ++ blank) [49]) (ht : Without ([0, 13, 10] ++ blank) [82]) :
    LegalSession blank (plainSdp addr) := by
  have hword : Without [0, 13, 10, 32] [45] ∧ Without [0, 13, 10, 32] strIN ∧
      Without [0, 13, 10, 32] strIP4 ∧ Without [0, 13, 10, 32] [97] := by decide
  have hnum : 7 < 4294967296 ∧ 1 < 4294967296 ∧ 0 < 4294967296 := by decide
  have hattr : LegalAttr ⟨strRtpmap, [48, 32, 80]⟩ := ⟨by decide, by decide⟩
  constructor
  case origin => exact ⟨hword.1, hnum.1, hnum.2.1, hword.2.1, hword.2.2.1, ha⟩
  case name => exact (by decide : Without [0, 13, 10] [45])
  case conn =>
    intro c hcs
    cases hcs
    exact ⟨hword.2.1, hword.2.2.1, hc⟩
  case bandw =>
    intro b hb
    rw [List.mem_singleton.mp hb]
    exact ⟨by decide, by decide⟩
  case bandw_le => exact (by decide : 1 ≤ maxBandw)
  case start => exact hnum.2.2
  case stop => exact hnum.2.2
  case attr => exact nofun
  case attr_le => exact Nat.zero_le _
  case direction => exact nofun
  case media =>
    intro m hm
    rw [List.mem_singleton.mp hm]
    refine ⟨⟨hword.2.2.2, by decide, by decide, by decide, ht, by decide, by decide⟩, nofun, nofun,
      by decide, fun a ha => ?_, by decide⟩
    rw [List.mem_singleton.mp ha]
    exact hattr
  case media_le => exact (by decide : 1 ≤ maxMedia)

theorem sdp_print_parse_plain :
    ∃ text, sdpPrint (plainSdp [49]) 1000 = .ok text ∧ sdpParse text = .ok (plainSdp [49]) :=
  ⟨_, rfl, sdp_print_parse (plainSdp [49]) 1000 _
    (plainSdp_legal (by decide) (by decide) (by decide)) rfl⟩

/-- An address with a tab, which is neither a space nor the end of a line, is cut off at it. -/
theorem tab_ends_address :
    LegalSession [32] (plainSdp [49, 9, 50]) ∧
      ∃ text, sdpPrint (plainSdp [49, 9, 50]) 1000 = .ok text ∧
        sdpParse text ≠ .ok (plainSdp [49, 9, 50]) := by
  refine ⟨plainSdp_legal (by decide) (by decide) (by decide), sessionText (plainSdp [49, 9, 50]),
    by decide +kernel, ?_⟩
  have hparse : sdpParse (sessionText (plainSdp [49, 9, 50])) = .ok (plainSdp [49]) := by
    decide +kernel
  rw [hparse]
  exact fun h => by cases h

end Sdp
