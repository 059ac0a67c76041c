import PjProject.Library.Pieces
import PjProject.Print.SipUri

set_option autoImplicit false

/-! # The pieces of a printed URI

The macros of `pjsip/include/pjsip/print_util.h`, and the functions of `sip_uri.c` and `sip_tel_uri.c`
that print parameters and URIs, as the pieces they write into the buffer, with the room each of them
asks for. In `SipPrint` the same functions are followed as far as the text goes; here also what is
written without a look at the room, and the NUL at the end, is kept.

`urlPrint_stays`: only a port, a `ttl` and the two terminators of a SIP URI can be written behind the
buffer, as long as the strings whose length is taken as an `int` are shorter than that (`Short`).
-/

namespace SipWrite

open Pieces
open Scan (PjCis)
open SipParser
open SipPrint (UriContext UriCfg pjStrncpy2Escape pjStrncpy2Escape_eq escape paramName)
open Sip (toSize)
open Sdp (Str str pjUtoa)

/-- What a function writes. -/
abbrev Printed := List (Piece UInt8)

/-! ## Macros -/

/-- A text whose length is taken as an `int` and compared with the room. -/
def measured (s : Str) : Piece UInt8 :=
  ⟨fun room => decide (MachineInt.int32 s.length < room), s, 0, true⟩

/-- `copy_advance_char_check`. -/
def copyAdvanceCharCheck (chr : UInt8) : Printed := [check 2 [chr]]

/-- `copy_advance_check`. -/
def copyAdvanceCheck (s : Str) : Printed := [check (s.length + 1) s]

/-- `copy_advance_escape`. -/
def copyAdvanceEscape (s : Str) (unres : PjCis) : Printed :=
  [⟨fun room => (pjStrncpy2Escape s room unres).isSome, escape unres s, 0, true⟩]

/-- `copy_advance_pair_check`. -/
def copyAdvancePairCheck (str1 str2 : Str) : Printed :=
  if str2 ≠ [] then [measured (str1 ++ str2)] else []

/-- `copy_advance_pair_quote`. -/
def copyAdvancePairQuote (str1 str2 : Str) (quotebegin quoteend : UInt8) : Printed :=
  [measured (str1 ++ quotebegin :: (str2 ++ [quoteend]))]

/-- `copy_advance_pair_quote_cond`. -/
def copyAdvancePairQuoteCond (str1 str2 : Str) (quotebegin quoteend : UInt8) : Printed :=
  if str2 ≠ [] ∧ str2.headD 0 ≠ quotebegin then copyAdvancePairQuote str1 str2 quotebegin quoteend
  else copyAdvancePairCheck str1 str2

/-- `copy_advance_pair_escape`. -/
def copyAdvancePairEscape (str1 str2 : Str) (unres : PjCis) : Printed :=
  if str2 ≠ [] then
    need ((str1 ++ str2).length + 1) :: put str1 :: copyAdvanceEscape str2 unres
  else []

/-- `pj_utoa`, which ends its digits with a NUL. An `int` gets an `unsigned long`. -/
def utoa (val : Int) : Piece UInt8 := ⟨fun _ => true, pjUtoa (toSize val), 1, true⟩

/-! ## Parameters -/

/-- The loop of `pjsip_param_print_on`. -/
def paramPrintLoop (pnameSpec pvalueSpec : PjCis) : List Param → UInt8 → Printed
  | [], _ => []
  | p :: l, sep =>
      copyAdvanceCharCheck sep ++
        (copyAdvanceEscape p.name pnameSpec ++
        ((if p.value ≠ [] then
            copyAdvanceCharCheck 61 ++
              (if p.value.headD 0 = 34 then copyAdvanceCheck p.value
              else copyAdvanceEscape p.value pvalueSpec)
          else []) ++
        paramPrintLoop pnameSpec pvalueSpec l (if sep = 63 then 38 else sep)))

/-- `pjsip_param_print_on`. -/
def pjsipParamPrintOn (paramList : List Param) (pnameSpec pvalueSpec : PjCis) (sep : UInt8) : Printed :=
  paramPrintLoop pnameSpec pvalueSpec paramList sep

/-- A list of tokens behind semicolons. -/
def tokenParams (l : List Param) : Printed := pjsipParamPrintOn l tokenSpec tokenSpec 59

/-! ## SIP URIs -/

/-- `"user:password@"`, if any. -/
def printUser (cfg : UriCfg) (url : SipUri) : Printed :=
  if url.user ≠ [] then
    copyAdvanceEscape url.user cfg.userSpec ++
      ((if url.passwd ≠ [] then copyAdvanceCharCheck 58 ++ copyAdvanceEscape url.passwd passwdSpec
        else []) ++
      copyAdvanceCharCheck 64)
  else []

/-- A host, in brackets if it is an IPv6 address. -/
def printHost (host : Str) : Printed :=
  if host.contains 58 then copyAdvancePairQuoteCond [] host 91 93 else copyAdvanceCheck host

/-- The port is explicitly specified, and allowed in this context. -/
def HasPort (cfg : UriCfg) (context : UriContext) (url : SipUri) : Prop :=
  url.port ≠ 0 ∧ (context ≠ .inFromToHdr ∨ cfg.allowPortInFromtoHdr = true)

/-- The URI has a TTL, and it is allowed in this context. -/
def HasTtl (context : UriContext) (url : SipUri) : Prop :=
  0 ≤ url.ttlParam ∧ context ≠ .inFromToHdr ∧ context ≠ .inRoutingHdr

instance (cfg : UriCfg) (context : UriContext) (url : SipUri) : Decidable (HasPort cfg context url) :=
  inferInstanceAs (Decidable (_ ∧ _))

instance (context : UriContext) (url : SipUri) : Decidable (HasTtl context url) :=
  inferInstanceAs (Decidable (_ ∧ _))

/-- The port. -/
def printPort (cfg : UriCfg) (context : UriContext) (url : SipUri) : Printed :=
  if HasPort cfg context url then need 10 :: (copyAdvanceCharCheck 58 ++ [utoa url.port]) else []

/-- The parameters before the TTL. -/
def printTransport (context : UriContext) (url : SipUri) : Printed :=
  copyAdvancePairCheck (paramName ['u', 's', 'e', 'r']) url.userParam ++
    ((if context = .inOther then
        copyAdvancePairEscape (paramName ['m', 'e', 't', 'h', 'o', 'd']) url.methodParam paramCharSpec
      else []) ++
    (if context ≠ .inFromToHdr then
        copyAdvancePairEscape (paramName ['t', 'r', 'a', 'n', 's', 'p', 'o', 'r', 't'])
          url.transportParam paramCharSpec
      else []))

/-- The TTL. -/
def printTtl (context : UriContext) (url : SipUri) : Printed :=
  if HasTtl context url then [need 15, put (paramName ['t', 't', 'l']), utoa url.ttlParam] else []

/-- The parameters behind the TTL, and the header parameters. -/
def printRest (context : UriContext) (url : SipUri) : Printed :=
  (if context ≠ .inFromToHdr ∧ url.maddrParam ≠ [] then
      if url.maddrParam.contains 58 then
        copyAdvancePairQuoteCond (paramName ['m', 'a', 'd', 'd', 'r']) url.maddrParam 91 93
      else
        copyAdvancePairEscape (paramName ['m', 'a', 'd', 'd', 'r']) url.maddrParam paramCharSpec
    else []) ++
  ((if url.lrParam = true ∧ context ≠ .inFromToHdr ∧ context ≠ .inContactHdr then
      need 3 :: copyAdvanceCheck (str [';', 'l', 'r'])
    else []) ++
  (pjsipParamPrintOn url.otherParam paramCharSpec paramCharSpec 59 ++
  (if context = .inContactHdr ∨ context = .inOther then
      pjsipParamPrintOn url.headerParam hdrCharSpec hdrCharSpec 63
    else [])))

/-- The URI as far as the port. -/
def beforePort (cfg : UriCfg) (url : SipUri) : Printed :=
  copyAdvanceCheck (schemeText url.secure) ++
    (copyAdvanceCharCheck 58 ++ (printUser cfg url ++ printHost url.host))

/-- The URI as far as the TTL. -/
def beforeTtl (cfg : UriCfg) (context : UriContext) (url : SipUri) : Printed :=
  beforePort cfg url ++ (printPort cfg context url ++ printTransport context url)

/-- The URI without the terminators. -/
def urlPieces (cfg : UriCfg) (context : UriContext) (url : SipUri) : Printed :=
  beforeTtl cfg context url ++ (printTtl context url ++ printRest context url)

/-- `pjsip_url_print`. -/
def pjsipUrlPrint (cfg : UriCfg) (context : UriContext) (url : SipUri) : Printed :=
  terminate :: (urlPieces cfg context url ++ [terminate])

/-! ## Other URIs -/

/-- `other_uri_print`; the size is compared as an `int`. -/
def otherUriPrint (uri : OtherUri) : Printed :=
  ⟨fun size => decide (¬ ((uri.scheme.length + uri.content.length + 1 : Nat) : Int) >
      MachineInt.int32 size), [], 0, true⟩ ::
    (copyAdvanceCheck uri.scheme ++ put [58] :: copyAdvanceCheck uri.content)

/-- `pjsip_TEL_EXT_VALUE_SPEC`. -/
def telExtValueSpec : PjCis where
  mem c := (str ['0', '1', '2', '3', '4', '5', '6', '7', '8', '9', '-', '.', '(', ')']).contains c &&
    c != 0
  mem_zero := by simp

/-- `pjsip_TEL_PHONE_CONTEXT_SPEC`. -/
def telPhoneContextSpec : PjCis := alnumAnd ['+', '-', '.', '(', ')']

/-- `pjsip_TEL_URIC_SPEC`. -/
def telUricSpec : PjCis :=
  alnumAnd (['/', ':', '@', '&', '$', ',', '+'] ++ markChars ++ ['%'] ++ ['[', ']', '+'])

/-- `pjsip_TEL_PNAME_SPEC`. -/
def telPnameSpec : PjCis := alnumAnd ['-']

/-- `endbuf` is the last byte of the buffer, and not the one behind it. -/
def shorter (l : Printed) : Printed := l.map fun p => { p with asks := fun room => p.asks (room - 1) }

/-- The number and its parameters. -/
def telPieces (uri : TelUri) : Printed :=
  copyAdvanceEscape uri.number telNumberSpec ++
    (copyAdvancePairEscape (paramName ['e', 'x', 't']) uri.extParam telExtValueSpec ++
    (copyAdvancePairEscape (paramName ['i', 's', 'u', 'b']) uri.isubParam telUricSpec ++
    (copyAdvancePairEscape
      (paramName ['p', 'h', 'o', 'n', 'e', '-', 'c', 'o', 'n', 't', 'e', 'x', 't']) uri.context
      telPhoneContextSpec ++
    pjsipParamPrintOn uri.otherParam telPnameSpec paramCharSpec 59)))

/-- `tel_uri_print`. -/
def telUriPrint (uri : TelUri) : Printed :=
  shorter (copyAdvanceCheck (str ['t', 'e', 'l']) ++ put [58] :: telPieces uri) ++ [terminate]

/-- `pjsip_uri_print` for a URI that is no name address. -/
def uriPrint (cfg : UriCfg) (context : UriContext) : Uri → Printed
  | .sip u => pjsipUrlPrint cfg context u
  | .tel u => telUriPrint u
  | .other u => otherUriPrint u

/-- The display name, and the bracket. -/
def beforeAddr (context : UriContext) (name : NameAddr) : Printed :=
  if context ≠ .inReqUri then
    (if name.display ≠ [] then
        need (name.display.length + 3) ::
          (copyAdvanceCharCheck 34 ++ (copyAdvanceCheck name.display ++
            (copyAdvanceCharCheck 34 ++ copyAdvanceCharCheck 32)))
      else []) ++ copyAdvanceCharCheck 60
  else []

/-- `pjsip_name_addr_print`. -/
def pjsipNameAddrPrint (cfg : UriCfg) (context : UriContext) (name : NameAddr) : Printed :=
  beforeAddr context name ++
    (uriPrint cfg context name.uri ++
    ((if context ≠ .inReqUri then copyAdvanceCharCheck 62 else []) ++ [terminate]))

/-- `pjsip_uri_print`. What it prints is never empty. -/
def pjsipUriPrint (cfg : UriCfg) (context : UriContext) : AnyUri → Printed
  | .uri u => uriPrint cfg context u
  | .nameAddr a => pjsipNameAddrPrint cfg context a

/-! ## Lengths that are taken as an `int` -/

/-- The length of the string, with a name and two quotes, is an `int`. -/
def Short (s : Str) : Prop := s.length < 2147483600

instance Short.decide (s : Str) : Decidable (Short s) :=
  inferInstanceAs (Decidable (s.length < 2147483600))

/-- The strings of a SIP URI that the pair macros print. -/
structure ShortUrl (url : SipUri) : Prop where
  host : Short url.host
  userParam : Short url.userParam
  maddrParam : Short url.maddrParam

/-- Only the strings of a SIP URI are measured so. -/
def ShortUri : Uri → Prop
  | .sip url => ShortUrl url
  | .tel _ => True
  | .other _ => True

/-- The same for a URI or a name address. -/
def ShortAnyUri : AnyUri → Prop
  | .uri u => ShortUri u
  | .nameAddr a => ShortUri a.uri

/-! ## What always stays inside -/

section

variable {cfg : UriCfg} {context : UriContext} {room : Nat}

theorem copyAdvanceEscape_asks {s : Str} {unres : PjCis} :
    (pjStrncpy2Escape s room unres).isSome = true ↔ (escape unres s).length ≤ room := by
  rw [pjStrncpy2Escape_eq]
  by_cases h : (escape unres s).length ≤ room
  · rw [if_pos (by omega)]
    exact ⟨fun _ => h, fun _ => rfl⟩
  · rw [if_neg (by omega)]
    exact ⟨fun hnone => absurd hnone (by simp), fun hle => absurd hle h⟩

theorem safe_char (chr : UInt8) : Safe (copyAdvanceCharCheck chr) :=
  safe_of_guarded (by simpa [copyAdvanceCharCheck] using guarded_check (Nat.le_succ 1))

theorem safe_check (s : Str) : Safe (copyAdvanceCheck s) :=
  safe_of_guarded (by simpa [copyAdvanceCheck] using guarded_check (Nat.le_succ s.length))

theorem safe_escape (s : Str) (unres : PjCis) : Safe (copyAdvanceEscape s unres) := by
  refine safe_of_guarded ?_
  intro p hp
  rw [List.mem_singleton.mp hp]
  exact ⟨rfl, fun room hroom => copyAdvanceEscape_asks.mp hroom⟩

theorem safe_measured {s : Str} (h : s.length < 2147483648) : Safe [measured s] := by
  refine safe_of_guarded ?_
  intro p hp
  rw [List.mem_singleton.mp hp]
  refine ⟨rfl, ?_⟩
  intro room hroom
  have hlt : MachineInt.int32 s.length < room := of_decide_eq_true hroom
  rw [MachineInt.int32_of_range (by omega) (by omega)] at hlt
  show s.length + 0 ≤ room
  omega

theorem safe_pairCheck {str1 str2 : Str} (h1 : str1.length ≤ 40) (h2 : Short str2) :
    Safe (copyAdvancePairCheck str1 str2) := by
  refine Safe.ite (safe_measured ?_) safe_nil
  unfold Short at h2
  rw [List.length_append]
  omega

theorem safe_pairQuote {str1 str2 : Str} {quotebegin quoteend : UInt8} (h1 : str1.length ≤ 40)
    (h2 : Short str2) : Safe (copyAdvancePairQuote str1 str2 quotebegin quoteend) := by
  refine safe_measured ?_
  unfold Short at h2
  simp only [List.length_append, List.length_cons, List.length_nil]
  omega

theorem safe_pairQuoteCond {str1 str2 : Str} {quotebegin quoteend : UInt8} (h1 : str1.length ≤ 40)
    (h2 : Short str2) : Safe (copyAdvancePairQuoteCond str1 str2 quotebegin quoteend) :=
  (safe_pairQuote h1 h2).ite (safe_pairCheck h1 h2)

theorem safe_pairEscape (str1 str2 : Str) (unres : PjCis) :
    Safe (copyAdvancePairEscape str1 str2 unres) := by
  refine Safe.ite ?_ safe_nil
  intro room
  rw [stays_guarded_cons (guarded_need _)]
  intro hneed
  have hroom := of_decide_eq_true hneed
  rw [List.length_append] at hroom
  rw [stays_put_cons]
  exact ⟨by simp; omega, safe_escape str2 unres _⟩

theorem safe_params (pnameSpec pvalueSpec : PjCis) (l : List Param) : ∀ sep,
    Safe (pjsipParamPrintOn l pnameSpec pvalueSpec sep) := by
  induction l with
  | nil => exact fun sep => safe_nil
  | cons p l ih =>
      intro sep
      refine (safe_char sep).append ((safe_escape p.name pnameSpec).append (Safe.append ?_ (ih _)))
      exact Safe.ite ((safe_char 61).append ((safe_check p.value).ite (safe_escape p.value pvalueSpec)))
        safe_nil

theorem safe_host {host : Str} (h : Short host) : Safe (printHost host) :=
  (safe_pairQuoteCond (by decide) h).ite (safe_check host)

theorem safe_beforePort {url : SipUri} (h : ShortUrl url) : Safe (beforePort cfg url) := by
  refine (safe_check _).append ((safe_char 58).append (Safe.append ?_ (safe_host h.host)))
  refine Safe.ite ((safe_escape url.user _).append (Safe.append ?_ (safe_char 64))) safe_nil
  exact Safe.ite ((safe_char 58).append (safe_escape url.passwd _)) safe_nil

theorem safe_transport {url : SipUri} (h : ShortUrl url) : Safe (printTransport context url) :=
  (safe_pairCheck (by decide) h.userParam).append
    ((Safe.ite (safe_pairEscape _ _ _) safe_nil).append (Safe.ite (safe_pairEscape _ _ _) safe_nil))

theorem safe_rest {url : SipUri} (h : ShortUrl url) : Safe (printRest context url) := by
  have hmaddr : Safe (copyAdvancePairQuoteCond (paramName ['m', 'a', 'd', 'd', 'r']) url.maddrParam
      91 93) := safe_pairQuoteCond (by decide) h.maddrParam
  refine Safe.append (Safe.ite (hmaddr.ite (safe_pairEscape _ _ _)) safe_nil)
    (Safe.append (Safe.ite ?_ safe_nil) ((safe_params _ _ _ _).append
      (Safe.ite (safe_params _ _ _ _) safe_nil)))
  exact (safe_need 3).append (safe_check _)

/-! ## SIP URIs -/

/-- Where a SIP URI is printed in this room: there is a byte for the NUL in front of it, the digits of
the port and of the TTL fit where ten and fifteen bytes are asked for, and an escaped string at the
end of it does not take the last byte, which is for the NUL behind it. -/
structure UrlRoom (cfg : UriCfg) (context : UriContext) (url : SipUri) (room : Nat) : Prop where
  first : 0 < room
  port : HasPort cfg context url → Fits (beforePort cfg url) room →
    10 ≤ left (beforePort cfg url) room →
    (pjUtoa (toSize url.port)).length + 2 ≤ left (beforePort cfg url) room
  ttl : HasTtl context url → Fits (beforeTtl cfg context url) room →
    15 ≤ left (beforeTtl cfg context url) room →
    (pjUtoa (toSize url.ttlParam)).length + 6 ≤ left (beforeTtl cfg context url) room
  last : Fits (urlPieces cfg context url) room → 0 < left (urlPieces cfg context url) room

theorem stays_utoa {val : Int} : Stays [utoa val] room ↔ (pjUtoa (toSize val)).length + 1 ≤ room := by
  simp [stays_cons, utoa]

theorem stays_port (url : SipUri) : Stays (printPort cfg context url) room ↔
    (HasPort cfg context url → 10 ≤ room → (pjUtoa (toSize url.port)).length + 2 ≤ room) := by
  unfold printPort
  by_cases hport : HasPort cfg context url
  · rw [if_pos hport, stays_guarded_cons (guarded_need 10), copyAdvanceCharCheck, List.singleton_append,
      stays_guarded_cons (guarded_check (Nat.le_succ 1)), stays_utoa]
    simp only [need, check, decide_eq_true_eq, List.length_nil, List.length_singleton, hport,
      true_imp_iff]
    constructor
    · intro h hroom
      have hdigits := h hroom (by omega)
      omega
    · intro h hroom _
      have hdigits := h hroom
      omega
  · rw [if_neg hport]
    exact ⟨fun _ h => absurd h hport, fun _ => stays_nil⟩

theorem stays_ttl (url : SipUri) : Stays (printTtl context url) room ↔
    (HasTtl context url → 15 ≤ room → (pjUtoa (toSize url.ttlParam)).length + 6 ≤ room) := by
  have hname : (paramName ['t', 't', 'l']).length = 5 := rfl
  unfold printTtl
  by_cases httl : HasTtl context url
  · rw [if_pos httl, stays_guarded_cons (guarded_need 15), stays_put_cons, stays_utoa, hname]
    simp only [need, decide_eq_true_eq, List.length_nil, Nat.sub_zero, httl, true_imp_iff]
    constructor
    · intro h hroom
      have hdigits := (h hroom).2
      omega
    · intro h hroom
      have hdigits := h hroom
      omega
  · rw [if_neg httl]
    exact ⟨fun _ h => absurd h httl, fun _ => stays_nil⟩

/-- **A SIP URI is printed inside the room** if and only if there is room for its terminators, its port
and its TTL. -/
theorem urlPrint_stays {url : SipUri} (hshort : ShortUrl url) :
    Stays (pjsipUrlPrint cfg context url) room ↔ UrlRoom cfg context url room := by
  have hfits : Fits (beforeTtl cfg context url) room ↔ Fits (beforePort cfg url) room ∧
      Fits (printPort cfg context url ++ printTransport context url) (left (beforePort cfg url) room) :=
    fits_append
  unfold pjsipUrlPrint
  rw [stays_terminate_cons, stays_append, urlPieces, stays_append, beforeTtl,
    (safe_beforePort hshort).stays_append, stays_append, stays_append, stays_port, stays_ttl,
    stays_terminate_cons, ← beforeTtl, ← urlPieces]
  have htransport : Safe (printTransport context url) := safe_transport hshort
  have hrest : Safe (printRest context url) := safe_rest hshort
  constructor
  · rintro ⟨hfirst, ⟨hport, httl⟩, hlast⟩
    exact ⟨hfirst, fun h hf => (hport hf).1 h, fun h hf => (httl hf).1 h, fun hf => (hlast hf).1⟩
  · intro h
    refine ⟨h.first, ⟨fun hf => ⟨fun hp => h.port hp hf, fun _ => htransport _⟩,
      fun hf => ⟨fun ht => h.ttl ht hf, fun _ => hrest _⟩⟩, fun hf => ⟨h.last hf, stays_nil⟩⟩

/-! ## Other URIs -/

theorem safe_otherUri (uri : OtherUri) : Safe (otherUriPrint uri) := by
  intro room
  rw [otherUriPrint, stays_guarded_cons ⟨rfl, fun _ _ => Nat.zero_le _⟩]
  intro _
  rw [(safe_check uri.scheme).stays_append]
  intro hf
  -- Behind the scheme there is a byte left.
  have hscheme : uri.scheme.length + 1 ≤ room := by simpa [copyAdvanceCheck] using hf
  rw [stays_put_cons]
  refine ⟨?_, safe_check uri.content _⟩
  simp [left, copyAdvanceCheck]
  omega

theorem text_shorter (l : Printed) : text (shorter l) = text l := by
  simp [text, shorter, List.flatMap_map]

theorem fits_shorter {l : Printed} : Fits (shorter l) room ↔ Fits l (room - 1) := by
  induction l generalizing room with
  | nil => exact Iff.rfl
  | cons p l ih =>
      have hroom : room - p.text.length - 1 = room - 1 - p.text.length := by omega
      unfold shorter at ih ⊢
      rw [List.map_cons, fits_cons, fits_cons, ih, hroom]

/-- What stays inside a buffer stays inside one that is a byte longer. -/
theorem stays_shorter {l : Printed} (h : Stays l (room - 1)) : Stays (shorter l) room := by
  induction l generalizing room with
  | nil => exact stays_nil
  | cons p l ih =>
      have hroom : room - 1 - p.text.length = room - p.text.length - 1 := by omega
      have hseen := h.2
      refine ⟨fun hp => ⟨?_, ih ?_⟩, hseen⟩
      · have hlen := (h.1 hp).1
        dsimp only
        omega
      · have hrest := (h.1 hp).2
        rwa [hroom] at hrest

theorem safe_telUri (uri : TelUri) : Safe (telUriPrint uri) := by
  have hpieces : Safe (telPieces uri) := (safe_escape _ _).append ((safe_pairEscape _ _ _).append
    ((safe_pairEscape _ _ _).append ((safe_pairEscape _ _ _).append (safe_params _ _ _ _))))
  have hall : Safe (copyAdvanceCheck (str ['t', 'e', 'l']) ++ put [58] :: telPieces uri) := by
    intro room
    rw [(safe_check _).stays_append]
    intro hf
    have htel : 4 ≤ room := by simpa [copyAdvanceCheck, str] using hf
    rw [stays_put_cons]
    refine ⟨?_, hpieces _⟩
    simp [left, copyAdvanceCheck, str]
    omega
  intro room
  show Stays (shorter _ ++ [terminate]) room
  rw [stays_append]
  refine ⟨stays_shorter (hall (room - 1)), ?_⟩
  intro hf
  -- The text is one byte shorter than the room, at least.
  have hlen := (hall (room - 1)).length_le (fits_shorter.mp hf)
  have htel : 4 ≤ room - 1 := (fits_cons.mp (fits_shorter.mp hf)).1 |> of_decide_eq_true
  rw [stays_terminate_cons]
  refine ⟨?_, stays_nil⟩
  unfold left
  rw [text_shorter]
  show 0 < room - (text (copyAdvanceCheck (str ['t', 'e', 'l']) ++ put [58] :: telPieces uri)).length
  omega

/-- Where a URI that is no name address is printed in this room. -/
def UriRoom (cfg : UriCfg) (context : UriContext) : Uri → Nat → Prop
  | .sip url, room => UrlRoom cfg context url room
  | .tel _, _ => True
  | .other _, _ => True

/-- Where a URI or a name address is printed in this room. -/
def AnyUriRoom (cfg : UriCfg) (context : UriContext) : AnyUri → Nat → Prop
  | .uri u, room => UriRoom cfg context u room
  | .nameAddr a, room => Fits (beforeAddr context a) room →
      UriRoom cfg context a.uri (left (beforeAddr context a) room)

theorem uriPrint_stays {u : Uri} (hshort : ShortUri u) :
    Stays (uriPrint cfg context u) room ↔ UriRoom cfg context u room := by
  cases u with
  | sip url => exact urlPrint_stays hshort
  | tel uri => exact ⟨fun _ => trivial, fun _ => safe_telUri uri room⟩
  | other uri => exact ⟨fun _ => trivial, fun _ => safe_otherUri uri room⟩

/-- Behind a URI there is a byte left. -/
theorem uriPrint_left {u : Uri} (h : Stays (uriPrint cfg context u) room)
    (hf : Fits (uriPrint cfg context u) room) : 0 < left (uriPrint cfg context u) room := by
  -- The terminator is the last piece, or the last check asks for a byte more.
  have hend : ∀ {l : Printed} {r : Nat}, Stays (l ++ [terminate]) r → Fits (l ++ [terminate]) r →
      0 < left (l ++ [terminate]) r := by
    intro l r hs hfits
    have hlast := (stays_append.mp hs).2 (fits_append.mp hfits).1
    rw [left_append, left_cons]
    exact (stays_terminate_cons.mp hlast).1
  cases u with
  | sip url => exact @hend (terminate :: urlPieces cfg context url) room h hf
  | tel uri => exact hend h hf
  | other uri =>
      unfold uriPrint otherUriPrint at hf ⊢
      rw [fits_cons, fits_append, fits_put_cons] at hf
      rw [left_cons, left_append, left_cons]
      have hcontent := hf.2.2
      simp [copyAdvanceCheck] at hcontent
      simp [left, copyAdvanceCheck] at hcontent ⊢
      omega

theorem safe_beforeAddr (a : NameAddr) : Safe (beforeAddr context a) := by
  refine Safe.ite (Safe.append (Safe.ite ?_ safe_nil) (safe_char 60)) safe_nil
  exact (safe_need _).append ((safe_char 34).append ((safe_check _).append
    ((safe_char 34).append (safe_char 32))))

/-- **A URI is printed inside the room** if and only if the SIP URI in it is. -/
theorem pjsipUriPrint_stays {u : AnyUri} (hshort : ShortAnyUri u) :
    Stays (pjsipUriPrint cfg context u) room ↔ AnyUriRoom cfg context u room := by
  cases u with
  | uri u => exact uriPrint_stays hshort
  | nameAddr a =>
      show Stays (beforeAddr context a ++ _) room ↔ _
      rw [(safe_beforeAddr a).stays_append]
      refine forall_congr' ?_
      intro hbefore
      rw [stays_append, uriPrint_stays hshort]
      refine and_iff_left_of_imp ?_
      intro huri hf
      have hleft := uriPrint_left ((uriPrint_stays hshort).mpr huri) hf
      -- The bracket leaves a byte for the NUL.
      rw [stays_append]
      refine ⟨Safe.ite (safe_char 62) safe_nil _, ?_⟩
      intro hbracket
      rw [stays_terminate_cons]
      refine ⟨?_, stays_nil⟩
      split_ifs at hbracket ⊢ with hcontext
      · have htwo : 2 ≤ left (uriPrint cfg context a.uri) (left (beforeAddr context a) room) := by
          simpa [copyAdvanceCharCheck] using hbracket
        simp [left, copyAdvanceCharCheck] at htwo ⊢
        omega
      · exact hleft

end

end SipWrite
