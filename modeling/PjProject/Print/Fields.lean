import PjProject.Print.Agreement
import PjProject.Print.Framing

set_option autoImplicit false

/-! # Printed headers are fields

A header whose strings have no line end is printed on one line, behind its name. It is a field, and no
Content-Length unless it is called so (`toHdr_fieldText`): `PjsipMsg.Printable` asks for such headers.
-/

namespace SipWrite

open Pieces
open SipParser
open SipPrint (Plain FieldText UriContext UriCfg paramName escape_plain separators)
open Sdp (Str str pjUtoa)

/-! ## Strings without a line end -/

/-- The strings of parameters have no line end. -/
def PlainParams (l : List Param) : Prop := ∀ p ∈ l, Plain p.name ∧ Plain p.value

/-- The strings of a URI have no line end. -/
def PlainUri : Uri → Prop
  | .sip u => (∀ s ∈ [u.user, u.passwd, u.host, u.userParam, u.methodParam, u.transportParam, u.maddrParam],
      Plain s) ∧ PlainParams u.otherParam ∧ PlainParams u.headerParam
  | .tel u => (∀ s ∈ [u.number, u.context, u.extParam, u.isubParam], Plain s) ∧ PlainParams u.otherParam
  | .other u => Plain u.scheme ∧ Plain u.content

/-- The same for a URI or a name address. -/
def PlainAnyUri : AnyUri → Prop
  | .uri u => PlainUri u
  | .nameAddr a => Plain a.display ∧ PlainUri a.uri

/-- The strings of a header have no line end, but perhaps its names. -/
def HdrValue.IsPlain : HdrValue → Prop
  | .string hvalue => Plain hvalue
  | .int _ => True
  | .array values => ∀ v ∈ values, Plain v
  | .clen _ => True
  | .cseq _ method => Plain method
  | .contact h => (∀ u ∈ h.uri, PlainAnyUri u) ∧ PlainParams h.otherParam
  | .ctype media => Plain media.type ∧ Plain media.subtype ∧ PlainParams media.param
  | .fromto h => PlainAnyUri h.uri ∧ Plain h.tag ∧ PlainParams h.otherParam
  | .routing h => PlainAnyUri (.nameAddr h.nameAddr) ∧ PlainParams h.otherParam
  | .retryAfter h => Plain h.comment ∧ PlainParams h.param
  | .via h => (∀ s ∈ [h.transport, h.host, h.maddrParam, h.recvdParam, h.branchParam], Plain s) ∧
      PlainParams h.otherParam
  | .authorization scheme c => (∀ s ∈ [scheme, c.realm, c.username, c.nonce, c.uri, c.response,
      c.algorithm, c.cnonce, c.opaqueValue, c.qop, c.nc], Plain s) ∧ PlainParams c.otherParam
  | .wwwAuthenticate scheme c => (∀ s ∈ [scheme, c.realm, c.domain, c.nonce, c.opaqueValue, c.algorithm,
      c.qop], Plain s) ∧ PlainParams c.otherParam

/-! ## Lines -/

/-- The pieces are printed on one line. -/
def Line (l : Printed) : Prop := Plain (text l)

section

variable {l l' : Printed} {p : Piece UInt8} {s t : Str} {unres : Scan.PjCis}

@[simp] theorem plain_nil : Plain [] := nofun

@[simp] theorem plain_cons {c : UInt8} : Plain (c :: s) ↔ (c ≠ 13 ∧ c ≠ 10) ∧ Plain s :=
  List.forall_mem_cons

@[simp] theorem plain_append : Plain (s ++ t) ↔ Plain s ∧ Plain t := List.forall_mem_append

@[simp] theorem plain_utoa {n : Nat} : Plain (pjUtoa n) := by
  intro c hc
  have hdigit := Sdp.pjUtoa_digits n c hc
  constructor
  · rintro rfl
    cases hdigit
  · rintro rfl
    cases hdigit

@[simp] theorem line_nil : Line [] := plain_nil

@[simp] theorem line_cons : Line (p :: l) ↔ Plain p.text ∧ Line l := plain_append

@[simp] theorem line_append : Line (l ++ l') ↔ Line l ∧ Line l' := by
  rw [Line, text_append, plain_append]
  rfl

@[simp] theorem line_flatMap {α : Type} {xs : List α} {f : α → Printed} :
    Line (xs.flatMap f) ↔ ∀ x ∈ xs, Line (f x) := by
  induction xs with
  | nil => simp
  | cons x xs ih => simp [ih]

@[simp] theorem line_check : Line (copyAdvanceCheck s) ↔ Plain s := by simp [copyAdvanceCheck]

@[simp] theorem line_char {c : UInt8} : Line (copyAdvanceCharCheck c) ↔ c ≠ 13 ∧ c ≠ 10 := by
  simp [copyAdvanceCharCheck]

@[simp] theorem line_escape (h : Plain s) : Line (copyAdvanceEscape s unres) := by
  simpa [copyAdvanceEscape] using escape_plain h

@[simp] theorem line_pairCheck (hs : Plain s) (ht : Plain t) : Line (copyAdvancePairCheck s t) := by
  simp [copyAdvancePairCheck, apply_ite Line, measured, hs, ht]

@[simp] theorem line_pairEscape (hs : Plain s) (ht : Plain t) : Line (copyAdvancePairEscape s t unres) := by
  simp [copyAdvancePairEscape, apply_ite Line, hs, ht]

@[simp] theorem line_pairQuoteCond {b e : UInt8} (hs : Plain s) (ht : Plain t) (hb : b ≠ 13 ∧ b ≠ 10)
    (he : e ≠ 13 ∧ e ≠ 10) : Line (copyAdvancePairQuoteCond s t b e) := by
  simp [copyAdvancePairQuoteCond, copyAdvancePairQuote, apply_ite Line, measured, hs, ht, hb, he]

@[simp] theorem line_params {a b : Scan.PjCis} {ps : List Param} (h : PlainParams ps) :
    ∀ {sep : UInt8}, sep ≠ 13 ∧ sep ≠ 10 → Line (pjsipParamPrintOn ps a b sep) := by
  induction ps with
  | nil => exact fun _ => line_nil
  | cons p ps ih =>
      intro sep hsep
      have hp := h p List.mem_cons_self
      have hrest : ∀ {sep : UInt8}, sep ≠ 13 ∧ sep ≠ 10 → Line (paramPrintLoop a b ps sep) :=
        ih fun q hq => h q (List.mem_cons_of_mem p hq)
      simp [pjsipParamPrintOn, paramPrintLoop, apply_ite Line, hsep, hp, line_escape hp.1,
        line_escape hp.2]
      split
      · exact hrest (by decide)
      · exact hrest hsep

end

/-! ## URIs and headers -/

section

variable {cfg : PrintCfg} {ucfg : UriCfg} {context : UriContext}

@[simp] theorem line_shorter {l : Printed} : Line (shorter l) ↔ Line l := by rw [Line, text_shorter, Line]

@[simp] theorem line_unsigned {n : Nat} {l : Printed} : Line (unsignedRoom n l) ↔ Line l := by
  rw [Line, text_unsigned, Line]

@[simp] theorem plain_number {val : Int} : Plain (utoa val).text := plain_utoa

@[simp] theorem plain_upper {s : Str} (h : Plain s) : Plain (s.map toUpper) := by
  have hbyte := SipPrint.forall_byte (P := fun c => c ≠ 13 ∧ c ≠ 10 → toUpper c ≠ 13 ∧ toUpper c ≠ 10)
    (by decide +kernel)
  exact List.forall_mem_map.mpr fun c hc => hbyte c (h c hc)

@[simp] theorem line_uri {u : Uri} (h : PlainUri u) : Line (uriPrint ucfg context u) := by
  cases u with
  | sip u =>
      simp [PlainUri] at h
      simp [uriPrint, pjsipUrlPrint, urlPieces, beforeTtl, beforePort, printUser, printHost, printPort,
        printTransport, printTtl, printRest, schemeText, paramName, str, apply_ite Line,
        apply_ite Plain, h]
  | tel u =>
      simp [PlainUri] at h
      simp [uriPrint, telUriPrint, telPieces, paramName, str, h]
  | other u =>
      simp [PlainUri] at h
      simp [uriPrint, otherUriPrint, h]

@[simp] theorem line_anyUri {u : AnyUri} (h : PlainAnyUri u) : Line (pjsipUriPrint ucfg context u) := by
  cases u with
  | uri u => exact line_uri h
  | nameAddr a => simp [pjsipUriPrint, pjsipNameAddrPrint, beforeAddr, apply_ite Line, h.1, line_uri h.2]

/-- A header is printed on one line. -/
theorem line_hdr {hdr : Hdr} (hname : Plain hdr.name) (hsname : Plain hdr.sname) (h : hdr.value.IsPlain) :
    Line (pjsipHdrPrintOn cfg hdr) := by
  have hn : Plain (hdr.hname cfg) := by simp [Hdr.hname, apply_ite Plain, hname, hsname]
  unfold pjsipHdrPrintOn
  cases hv : hdr.value with
  | int | clen => simp [genericIntHdrPrint, clenHdrPrint, colon, hn]
  | string | cseq | ctype | fromto | retryAfter | via =>
      simp [hv, HdrValue.IsPlain] at h
      simp [genericStringHdrPrint, cseqHdrPrint, ctypeHdrPrint, printMediaType, typeText, fromtoHdrPrint,
        retryAfterHdrPrint, viaHdrPrint, viaHost, viaPort, viaTtl, viaRport, viaRest, printHost, tokenParams,
        colon, paramName, str, apply_ite Line, apply_ite Plain, hn, hname, h]
  | authorization | wwwAuthenticate =>
      simp [hv, HdrValue.IsPlain] at h
      simp [authHdrPrint, authScheme, authDigest, printDigestCredential, printDigestChallenge,
        copyAdvancePairQuote, measured, colon, str, apply_ite Line, hname, h]
  | array values =>
      simp [hv, HdrValue.IsPlain] at h
      cases values with
      | nil => simp [genericArrayHdrPrint, printValues, colon, hn]
      | cons v l => simp +contextual [genericArrayHdrPrint, printValues, colon, hn, h]
  | contact c =>
      simp [hv, HdrValue.IsPlain] at h
      have haddr : Line (contactAddr cfg (hdr.hname cfg) c) := by
        cases hu : c.uri with
        | none => simp [contactAddr, hu, hn]
        | some u => simp [contactAddr, hu, hn, h.1 u hu]
      simp [contactHdrPrint, contactQ, contactExpires, printQ, tokenParams, colon, paramName, str,
        apply_ite Line, haddr, hn, h]
  | routing r =>
      simp [hv, HdrValue.IsPlain] at h
      have hp : Line (routingPieces cfg hdr.name r) := by simp [routingPieces, tokenParams, colon, hname, h]
      cases hu : r.nameAddr.uri with
      | sip u => simp [routingHdrPrint, hu, hp, apply_ite Line, stray]
      | _ => simp [routingHdrPrint, hu, stray]

/-- What is printed, if anything, begins with this name. -/
def Named (name : Str) (l : Printed) : Prop := text l = [] ∨ name ++ colon <+: text l

/-- A header begins with its name, or the short one. -/
theorem hdr_named (hdr : Hdr) : ∃ name ∈ [hdr.name, hdr.sname], Named name (pjsipHdrPrintOn cfg hdr) := by
  have hn : hdr.hname cfg ∈ [hdr.name, hdr.sname] := by
    unfold Hdr.hname
    split <;> simp
  unfold pjsipHdrPrintOn
  cases hdr.value with
  | string | int | array | clen | ctype | fromto | via =>
      exact ⟨_, hn, by simp [Named, genericStringHdrPrint, genericIntHdrPrint, genericArrayHdrPrint,
        clenHdrPrint, ctypeHdrPrint, fromtoHdrPrint, viaHdrPrint, viaHost, colon, copyAdvanceCheck]⟩
  | cseq | retryAfter | authorization | wwwAuthenticate =>
      exact ⟨hdr.name, List.mem_cons_self, by simp [Named, cseqHdrPrint, retryAfterHdrPrint, authHdrPrint,
        authScheme, colon, copyAdvanceCheck]⟩
  | contact c =>
      refine ⟨_, hn, Or.inr ?_⟩
      by_cases hstar : c.star = true
      · simp [contactHdrPrint, hstar, colon]
      · simp [contactHdrPrint, hstar, contactAddr, copyAdvanceCheck, copyAdvanceCharCheck, colon]
  | routing r =>
      have hp : Named hdr.name (routingPieces cfg hdr.name r) := by
        simp [Named, routingPieces, colon, copyAdvanceCheck]
      refine ⟨hdr.name, List.mem_cons_self, ?_⟩
      cases hu : r.nameAddr.uri with
      | sip u =>
          simp only [routingHdrPrint, hu]
          split_ifs
          · exact Or.inl rfl
          · exact Or.inl rfl
          · exact hp
      | _ =>
          simp only [routingHdrPrint, hu]
          exact Or.inl rfl

/-- **Printed headers are fields**, if their strings have no line end and their names no separators, and
they are not called Content-Length. -/
theorem toHdr_fieldText {hdr : Hdr} (hvalue : hdr.value.IsPlain)
    (hnames : ∀ name ∈ [hdr.name, hdr.sname], (∀ c ∈ name, c ∉ separators) ∧ ¬ Sip.IsClenName name) {n : Nat}
    {t : Str} (h : (toHdr cfg hdr).printOn n = some t) (hne : t ≠ []) : FieldText t := by
  have hplain : ∀ name ∈ [hdr.name, hdr.sname], Plain name := fun name hmem c hc =>
    SipPrint.not_separator ((hnames name hmem).1 c hc)
  have hprint : (print (pjsipHdrPrintOn cfg hdr) n).toOption = some t := h
  have hok : print (pjsipHdrPrintOn cfg hdr) n = .ok t := by
    cases hr : print (pjsipHdrPrintOn cfg hdr) n with
    | error e =>
        rw [hr] at hprint
        cases hprint
    | ok t' =>
        rw [hr] at hprint
        rw [Option.some.inj hprint]
  obtain rfl : text (pjsipHdrPrintOn cfg hdr) = t := by
    have hfit := print_of_fits (print_ok hok).1 (print_ok hok).2
    exact Except.ok.inj (hfit.symm.trans hok)
  -- A printed line is a name, a colon and text without line ends.
  have hline : Plain (text (pjsipHdrPrintOn cfg hdr)) :=
    line_hdr (hplain _ (by simp)) (hplain _ (by simp)) hvalue
  rcases @hdr_named cfg hdr with ⟨name, hmem, hnil | ⟨rest, htext⟩⟩
  · exact absurd hnil hne
  · rw [← htext, List.append_assoc] at hline ⊢
    exact SipPrint.genericString_fieldText (hnames name hmem).1
      (plain_append.mp (plain_append.mp hline).2).2 (hnames name hmem).2

end

end SipWrite
