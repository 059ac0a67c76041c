import PjProject.Print.Pieces
import PjProject.Print.Message

set_option autoImplicit false

/-! # The pieces of a printed header

The print functions of the headers in `pjsip/src/pjsip/sip_msg.c` and `sip_auth_msg.c`, as the pieces
they write.

`hdrPrint_stays`: where a header is printed inside the room it is given. What is asked for does not
cover the blank behind a name, the numbers of more digits than expected, and a NUL behind an escaped
string that takes the rest of the room; and `print_media_type` returns its `-1` to callers that add it
to their pointers.
-/

namespace SipWrite

open Pieces
open SipParser (Param MediaType ContactHdr FromToHdr RoutingHdr RetryAfterHdr ViaHdr DigestCredential
  DigestChallenge SipUri tokenSpec isWord Uri NameAddr)
open SipPrint (UriContext UriCfg paramName)
open Sip (toSize)
open Sdp (Str str pjUtoa toLower)

/-- The settings that printing depends on: those of URIs, and `pjsip_use_compact_form`. -/
structure PrintCfg where
  uri : UriCfg
  compact : Bool
  deriving DecidableEq

/-- What a header is besides its names; the constructor is its virtual table. -/
inductive HdrValue where
  | string (hvalue : Str)
  | int (ivalue : Int)
  | array (values : List Str)
  | clen (len : Int)
  | cseq (cseq : Int) (method : Str)
  | contact (hdr : ContactHdr)
  | ctype (media : MediaType)
  | fromto (hdr : FromToHdr)
  | routing (hdr : RoutingHdr)
  | retryAfter (hdr : RetryAfterHdr)
  | via (hdr : ViaHdr)
  | authorization (scheme : Str) (digest : DigestCredential)
  | wwwAuthenticate (scheme : Str) (digest : DigestChallenge)
  deriving DecidableEq

/-- A `pjsip_hdr`. -/
structure Hdr where
  name : Str
  sname : Str
  value : HdrValue
  deriving DecidableEq

/-- The name, or the short one. -/
def Hdr.hname (cfg : PrintCfg) (hdr : Hdr) : Str := if cfg.compact then hdr.sname else hdr.name

/-- `": "`. -/
def colon : Str := [58, 32]

/-! ## Generic headers -/

/-- `pjsip_generic_string_hdr_print`. -/
def genericStringHdrPrint (hname hvalue : Str) : Printed :=
  [need (hname.length + hvalue.length + 5), put (hname ++ (colon ++ hvalue)), terminate]

/-- `pjsip_generic_int_hdr_print`. -/
def genericIntHdrPrint (hname : Str) (ivalue : Int) : Printed :=
  [need (hname.length + 15), put (hname ++ colon), utoa ivalue]

/-- The values of an array header, with `", "` between them. -/
def printValues : List Str → Printed
  | [] => []
  | v :: l => copyAdvanceCheck v ++ l.flatMap fun v => copyAdvancePairCheck [44, 32] v

/-- `pjsip_generic_array_hdr_print`. -/
def genericArrayHdrPrint (hname : Str) (values : List Str) : Printed :=
  copyAdvanceCheck hname ++ put colon :: printValues values

/-- `pjsip_clen_hdr_print`. -/
def clenHdrPrint (hname : Str) (len : Int) : Printed :=
  [need (hname.length + 14), put (hname ++ colon), utoa len, terminate]

/-- `pjsip_cseq_hdr_print`. -/
def cseqHdrPrint (name : Str) (cseq : Int) (method : Str) : Printed :=
  [need (name.length + method.length + 15), put (name ++ colon), utoa cseq, put (32 :: method),
    terminate]

/-! ## Contact -/

/-- What is left of a fraction without zeros at its end, of which there are two at most. -/
def trimFrac (frac : Nat) : Nat :=
  let frac := if frac % 100 = 0 then frac / 100 else frac
  if frac % 10 = 0 then frac / 10 else frac

/-- The `q` parameter. The remainder is an `unsigned`. -/
def printQ (q1000 : Int) : Printed :=
  let frac := MachineInt.uint32 (q1000.tmod 1000)
  need 20 :: put (paramName ['q']) :: utoa (q1000.tdiv 1000) ::
    if frac ≠ 0 then [put [46], utoa (trimFrac frac)] else []

/-- The name and the address of a contact. -/
def contactAddr (cfg : PrintCfg) (hname : Str) (hdr : ContactHdr) : Printed :=
  copyAdvanceCheck hname ++ (copyAdvanceCharCheck 58 ++ (copyAdvanceCharCheck 32 ++
    (match hdr.uri with
    | some uri => pjsipUriPrint cfg.uri .inContactHdr uri
    | none => [refuse])))

/-- The `q` parameter, if it is not zero. -/
def contactQ (hdr : ContactHdr) : Printed := if hdr.q1000 ≠ 0 then printQ hdr.q1000 else []

/-- The `expires` parameter. -/
def contactExpires (hdr : ContactHdr) : Printed :=
  if 0 ≤ hdr.expires then
    [need 24, put (paramName ['e', 'x', 'p', 'i', 'r', 'e', 's']), utoa hdr.expires]
  else []

/-- `pjsip_contact_hdr_print`. A contact that is no star has a URI. -/
def contactHdrPrint (cfg : PrintCfg) (hname : Str) (hdr : ContactHdr) : Printed :=
  if hdr.star then [need (hname.length + 6), put (hname ++ (colon ++ [42]))]
  else
    contactAddr cfg hname hdr ++
      (contactQ hdr ++ (contactExpires hdr ++ tokenParams hdr.otherParam))

/-! ## Content-Type -/

/-- `len` of `print_media_type` is the room as an `unsigned`, and its caller adds a `-1` to the pointer
like a length. `n` bytes of the room are taken. -/
def unsignedRoom : Nat → Printed → Printed
  | _, [] => []
  | n, p :: l =>
      { p with
        asks := fun room => p.asks (MachineInt.uint32 ((room + n : Nat) : Int) - n), seen := false } ::
        unsignedRoom (n + p.text.length) l

/-- The type and the subtype. -/
def typeText (media : MediaType) : Str := media.type ++ ([47] ++ media.subtype)

/-- `print_media_type`. -/
def printMediaType (media : MediaType) : Printed :=
  put (typeText media) :: unsignedRoom (typeText media).length (tokenParams media.param)

/-- `pjsip_ctype_hdr_print`. -/
def ctypeHdrPrint (hname : Str) (media : MediaType) : Printed :=
  need (hname.length + media.type.length + media.subtype.length + 8) :: put (hname ++ colon) ::
    (printMediaType media ++ [terminate])

/-! ## Addresses -/

/-- `pjsip_fromto_hdr_print`. -/
def fromtoHdrPrint (cfg : PrintCfg) (hname : Str) (hdr : FromToHdr) : Printed :=
  copyAdvanceCheck hname ++ put colon ::
    (pjsipUriPrint cfg.uri .inFromToHdr hdr.uri ++
    (copyAdvancePairEscape (paramName ['t', 'a', 'g']) hdr.tag tokenSpec ++
    tokenParams hdr.otherParam))

/-- The URI has the parameter `hide`. -/
def hidden (url : SipUri) : Bool := url.otherParam.any fun p => isWord p.name ['h', 'i', 'd', 'e']

/-- The name, the address and the parameters of a routing header. -/
def routingPieces (cfg : PrintCfg) (name : Str) (hdr : RoutingHdr) : Printed :=
  copyAdvanceCheck name ++ put colon ::
    (pjsipUriPrint cfg.uri .inRoutingHdr (.nameAddr hdr.nameAddr) ++ tokenParams hdr.otherParam)

/-- `pjsip_routing_hdr_print`. It takes every URI for a SIP URI and looks at its `other_param`, which
begins at byte 136: behind a tel URI, which has 120 bytes, and behind any other, which has 40. A URI
with `hide` is not printed; it is asserted that it has `lr`. -/
def routingHdrPrint (cfg : PrintCfg) (name : Str) (hdr : RoutingHdr) : Printed :=
  match hdr.nameAddr.uri with
  | .sip url =>
      if hidden url then if url.lrParam then [] else [stray]
      else routingPieces cfg name hdr
  | .tel _ => [stray]
  | .other _ => [stray]

/-! ## Retry-After and Via -/

/-- `pjsip_retry_after_hdr_print`. -/
def retryAfterHdrPrint (name : Str) (hdr : RetryAfterHdr) : Printed :=
  [need (name.length + 13), put (name ++ colon), utoa hdr.ivalue] ++
    ((if hdr.comment ≠ [] then
        [need (hdr.comment.length + 3),
          put ((if hdr.comment.headD 0 = 40 then hdr.comment else 40 :: (hdr.comment ++ [41])) ++
            if hdr.param ≠ [] then [32] else [])]
      else []) ++
    tokenParams hdr.param)

/-- `pj_toupper`. -/
def toUpper (c : UInt8) : UInt8 := if 97 ≤ c ∧ c ≤ 122 then c - 32 else c

/-- A Via header as far as the host. -/
def viaHost (hname : Str) (hdr : ViaHdr) : Printed :=
  need (hname.length + 8 + hdr.transport.length + hdr.host.length + 12) ::
    (copyAdvanceCheck hname ++
      put (colon ++ (str ['S', 'I', 'P', '/', '2', '.', '0', '/'] ++
        (hdr.transport.map toUpper ++ [32]))) ::
      printHost hdr.host)

/-- The port of a Via header. -/
def viaPort (hdr : ViaHdr) : Printed := if hdr.port ≠ 0 then [put [58], utoa hdr.port] else []

/-- The TTL of a Via header. -/
def viaTtl (hdr : ViaHdr) : Printed :=
  if 0 ≤ hdr.ttlParam then [need 14, put (paramName ['t', 't', 'l']), utoa hdr.ttlParam] else []

/-- The `rport` parameter. -/
def viaRport (hdr : ViaHdr) : Printed :=
  if 0 ≤ hdr.rportParam then
    need 14 :: put (str [';', 'r', 'p', 'o', 'r', 't']) ::
      if 0 < hdr.rportParam then [put [61], utoa hdr.rportParam] else []
  else []

/-- The parameters behind `rport`. -/
def viaRest (hdr : ViaHdr) : Printed :=
  (if hdr.maddrParam ≠ [] then
      if hdr.maddrParam.contains 58 then
        copyAdvancePairQuoteCond (paramName ['m', 'a', 'd', 'd', 'r']) hdr.maddrParam 91 93
      else copyAdvancePairCheck (paramName ['m', 'a', 'd', 'd', 'r']) hdr.maddrParam
    else []) ++
  (copyAdvancePairCheck (paramName ['r', 'e', 'c', 'e', 'i', 'v', 'e', 'd']) hdr.recvdParam ++
  (copyAdvancePairEscape (paramName ['b', 'r', 'a', 'n', 'c', 'h']) hdr.branchParam tokenSpec ++
  tokenParams hdr.otherParam))

/-- `pjsip_via_hdr_print`. The comment is not printed. -/
def viaHdrPrint (hname : Str) (hdr : ViaHdr) : Printed :=
  viaHost hname hdr ++ (viaPort hdr ++ (viaTtl hdr ++ (viaRport hdr ++ viaRest hdr)))

/-! ## Authorization -/

/-- `print_digest_credential`. -/
def printDigestCredential (cred : DigestCredential) : Printed :=
  copyAdvancePairQuoteCond (str ['u', 's', 'e', 'r', 'n', 'a', 'm', 'e', '=']) cred.username 34 34 ++
  (copyAdvancePairQuoteCond (str [',', ' ', 'r', 'e', 'a', 'l', 'm', '=']) cred.realm 34 34 ++
  (copyAdvancePairQuote (str [',', ' ', 'n', 'o', 'n', 'c', 'e', '=']) cred.nonce 34 34 ++
  (copyAdvancePairQuoteCond (str [',', ' ', 'u', 'r', 'i', '=']) cred.uri 34 34 ++
  (copyAdvancePairQuote (str [',', ' ', 'r', 'e', 's', 'p', 'o', 'n', 's', 'e', '=']) cred.response
    34 34 ++
  (copyAdvancePairCheck (str [',', ' ', 'a', 'l', 'g', 'o', 'r', 'i', 't', 'h', 'm', '='])
    cred.algorithm ++
  (copyAdvancePairQuoteCond (str [',', ' ', 'c', 'n', 'o', 'n', 'c', 'e', '=']) cred.cnonce 34 34 ++
  (copyAdvancePairQuoteCond (str [',', ' ', 'o', 'p', 'a', 'q', 'u', 'e', '=']) cred.opaqueValue
    34 34 ++
  (copyAdvancePairCheck (str [',', ' ', 'q', 'o', 'p', '=']) cred.qop ++
  (copyAdvancePairCheck (str [',', ' ', 'n', 'c', '=']) cred.nc ++
  pjsipParamPrintOn cred.otherParam tokenSpec tokenSpec 44)))))))))

/-- `print_digest_challenge`. -/
def printDigestChallenge (chal : DigestChallenge) : Printed :=
  copyAdvancePairQuote (str [' ', 'r', 'e', 'a', 'l', 'm', '=']) chal.realm 34 34 ++
  (copyAdvancePairQuoteCond (str [',', 'd', 'o', 'm', 'a', 'i', 'n', '=']) chal.domain 34 34 ++
  (copyAdvancePairQuoteCond (str [',', 'n', 'o', 'n', 'c', 'e', '=']) chal.nonce 34 34 ++
  (copyAdvancePairQuoteCond (str [',', 'o', 'p', 'a', 'q', 'u', 'e', '=']) chal.opaqueValue 34 34 ++
  ((if chal.stale then
      copyAdvancePairCheck (str [',', 's', 't', 'a', 'l', 'e', '=']) (str ['t', 'r', 'u', 'e'])
    else []) ++
  (copyAdvancePairCheck (str [',', 'a', 'l', 'g', 'o', 'r', 'i', 't', 'h', 'm', '=']) chal.algorithm ++
  (copyAdvancePairQuoteCond (str [',', 'q', 'o', 'p', '=']) chal.qop 34 34 ++
  pjsipParamPrintOn chal.otherParam tokenSpec tokenSpec 44))))))

/-- The name and the scheme. -/
def authScheme (name scheme : Str) : Printed :=
  copyAdvanceCheck name ++ put colon :: (copyAdvanceCheck scheme ++ [put [32]])

/-- Only a digest is printed: `print_pgp_credential` and `print_pgp_challenge` return `-1`. -/
def authDigest (scheme : Str) (digest : Printed) : Printed :=
  if isWord scheme ['d', 'i', 'g', 'e', 's', 't'] then digest else [refuse]

/-- `pjsip_authorization_hdr_print` and `pjsip_www_authenticate_hdr_print`. -/
def authHdrPrint (name scheme : Str) (digest : Printed) : Printed :=
  authScheme name scheme ++ (authDigest scheme digest ++ [terminate])

/-- `pjsip_hdr_print_on`. -/
def pjsipHdrPrintOn (cfg : PrintCfg) (hdr : Hdr) : Printed :=
  match hdr.value with
  | .string hvalue => genericStringHdrPrint (hdr.hname cfg) hvalue
  | .int ivalue => genericIntHdrPrint (hdr.hname cfg) ivalue
  | .array values => genericArrayHdrPrint (hdr.hname cfg) values
  | .clen len => clenHdrPrint (hdr.hname cfg) len
  | .cseq cseq method => cseqHdrPrint hdr.name cseq method
  | .contact h => contactHdrPrint cfg (hdr.hname cfg) h
  | .ctype media => ctypeHdrPrint (hdr.hname cfg) media
  | .fromto h => fromtoHdrPrint cfg (hdr.hname cfg) h
  | .routing h => routingHdrPrint cfg hdr.name h
  | .retryAfter h => retryAfterHdrPrint hdr.name h
  | .via h => viaHdrPrint (hdr.hname cfg) h
  | .authorization scheme digest => authHdrPrint hdr.name scheme (printDigestCredential digest)
  | .wwwAuthenticate scheme digest => authHdrPrint hdr.name scheme (printDigestChallenge digest)

/-! ## The room of a header -/

/-- The number of digits that `pj_utoa` writes. -/
def digits (val : Int) : Nat := (pjUtoa (toSize val)).length

/-- Where a content type is printed in this room: there is room for its parameters, as an `unsigned`
counts it. -/
def MediaRoom (media : MediaType) (room : Nat) : Prop :=
  Fits (tokenParams media.param) (MachineInt.uint32 (room : Int) - (typeText media).length)

/-- Where a contact is printed in this room: its URI is, and the digits of `q` and of `expires` fit
where twenty and twenty-four bytes are asked for. -/
structure ContactRoom (cfg : PrintCfg) (hname : Str) (hdr : ContactHdr) (room : Nat) : Prop where
  uri : ∀ uri ∈ hdr.uri, hname.length + 3 ≤ room →
    AnyUriRoom cfg.uri .inContactHdr uri (room - (hname.length + 2))
  q : hdr.q1000 ≠ 0 → Fits (contactAddr cfg hname hdr) room →
    20 ≤ left (contactAddr cfg hname hdr) room →
    (text (printQ hdr.q1000)).length + 1 ≤ left (contactAddr cfg hname hdr) room
  expires : 0 ≤ hdr.expires → Fits (contactAddr cfg hname hdr ++ contactQ hdr) room →
    24 ≤ left (contactAddr cfg hname hdr ++ contactQ hdr) room →
    digits hdr.expires + 10 ≤ left (contactAddr cfg hname hdr ++ contactQ hdr) room

/-- Where a Via header is printed in this room: the digits of its port fit behind the host, for which
nothing is asked for, and those of the TTL and of `rport` where fourteen bytes are. -/
structure ViaRoom (hname : Str) (hdr : ViaHdr) (room : Nat) : Prop where
  port : hdr.port ≠ 0 → Fits (viaHost hname hdr) room →
    digits hdr.port + 2 ≤ left (viaHost hname hdr) room
  ttl : 0 ≤ hdr.ttlParam → Fits (viaHost hname hdr ++ viaPort hdr) room →
    14 ≤ left (viaHost hname hdr ++ viaPort hdr) room →
    digits hdr.ttlParam + 6 ≤ left (viaHost hname hdr ++ viaPort hdr) room
  rport : 0 < hdr.rportParam → Fits (viaHost hname hdr ++ (viaPort hdr ++ viaTtl hdr)) room →
    14 ≤ left (viaHost hname hdr ++ (viaPort hdr ++ viaTtl hdr)) room →
    digits hdr.rportParam + 8 ≤ left (viaHost hname hdr ++ (viaPort hdr ++ viaTtl hdr)) room

/-- Where a routing header is printed in this room: its URI is a SIP URI, which has `lr` if it has
`hide`; and if it has not, there is a byte for the blank behind the name, and room for the address. -/
def RoutingRoom (cfg : PrintCfg) (name : Str) (hdr : RoutingHdr) (room : Nat) : Prop :=
  match hdr.nameAddr.uri with
  | .sip url => (hidden url = true → url.lrParam = true) ∧ (hidden url = false →
      room ≠ name.length + 1 ∧ (name.length + 2 ≤ room →
        AnyUriRoom cfg.uri .inRoutingHdr (.nameAddr hdr.nameAddr) (room - (name.length + 2))))
  | .tel _ => False
  | .other _ => False

/-- Where a digest is printed in this room: there is a byte for the blank behind the name, and an
escaped parameter at its end does not take the byte for the NUL. -/
def AuthRoom (name scheme : Str) (digest : Printed) (room : Nat) : Prop :=
  room ≠ name.length + 1 ∧ (Fits (authScheme name scheme ++ authDigest scheme digest) room →
    0 < left (authScheme name scheme ++ authDigest scheme digest) room)

/-- Where a header is printed inside this room. -/
def HdrRoom (cfg : PrintCfg) (hdr : Hdr) (room : Nat) : Prop :=
  match hdr.value with
  | .string _ => True
  | .int ivalue => (hdr.hname cfg).length + 15 ≤ room →
      (hdr.hname cfg).length + digits ivalue + 3 ≤ room
  | .array _ => room ≠ (hdr.hname cfg).length + 1
  | .clen len => (hdr.hname cfg).length + 14 ≤ room → (hdr.hname cfg).length + digits len + 3 ≤ room
  | .cseq cseq method => hdr.name.length + method.length + 15 ≤ room →
      hdr.name.length + digits cseq + method.length + 4 ≤ room
  | .contact h => h.star = true ∨ ContactRoom cfg (hdr.hname cfg) h room
  | .ctype media =>
      (hdr.hname cfg).length + media.type.length + media.subtype.length + 8 ≤ room →
      MediaRoom media (room - ((hdr.hname cfg).length + 2)) ∧
        0 < left (printMediaType media) (room - ((hdr.hname cfg).length + 2))
  | .fromto h => room ≠ (hdr.hname cfg).length + 1 ∧ ((hdr.hname cfg).length + 2 ≤ room →
      AnyUriRoom cfg.uri .inFromToHdr h.uri (room - ((hdr.hname cfg).length + 2)))
  | .routing h => RoutingRoom cfg hdr.name h room
  | .retryAfter h => hdr.name.length + 13 ≤ room → hdr.name.length + digits h.ivalue + 3 ≤ room
  | .via h => ViaRoom (hdr.hname cfg) h room
  | .authorization scheme digest => AuthRoom hdr.name scheme (printDigestCredential digest) room
  | .wwwAuthenticate scheme digest => AuthRoom hdr.name scheme (printDigestChallenge digest) room

/-- The strings of a credential that the pair macros print. -/
def credStrings (cred : DigestCredential) : List Str :=
  [cred.username, cred.realm, cred.nonce, cred.uri, cred.response, cred.algorithm, cred.cnonce,
    cred.opaqueValue, cred.qop, cred.nc]

/-- The strings of a challenge that the pair macros print. -/
def chalStrings (chal : DigestChallenge) : List Str :=
  [chal.realm, chal.domain, chal.nonce, chal.opaqueValue, chal.algorithm, chal.qop]

/-- The strings of a header whose length is taken as an `int` are shorter than that. -/
def ShortHdr (hdr : Hdr) : Prop :=
  match hdr.value with
  | .array values => ∀ v ∈ values, Short v
  | .contact h => ∀ uri ∈ h.uri, ShortAnyUri uri
  | .fromto h => ShortAnyUri h.uri
  | .routing h => ShortUri h.nameAddr.uri
  | .via h => Short h.host ∧ Short h.maddrParam ∧ Short h.recvdParam
  | .authorization _ digest => ∀ s ∈ credStrings digest, Short s
  | .wwwAuthenticate _ digest => ∀ s ∈ chalStrings digest, Short s
  | _ => True

section

variable {cfg : PrintCfg} {room : Nat}

theorem safe_tokenParams (l : List Param) : Safe (tokenParams l) := safe_params _ _ _ _

theorem text_check (s : Str) : text (copyAdvanceCheck s) = s := by simp [copyAdvanceCheck]

theorem fits_check {s : Str} : Fits (copyAdvanceCheck s) room ↔ s.length + 1 ≤ room := by
  simp [copyAdvanceCheck]

theorem text_utoa (val : Int) : (utoa val).text.length = digits val := rfl

theorem stays_utoa_cons {val : Int} {l : Printed} : Stays (utoa val :: l) room ↔
    digits val + 1 ≤ room ∧ Stays l (room - digits val) := by
  simp [stays_cons, utoa, digits]

/-- Behind a name and its colon, if there is a byte for the blank. -/
theorem stays_named {hname : Str} {l : Printed} :
    Stays (copyAdvanceCheck hname ++ put colon :: l) room ↔
      room ≠ hname.length + 1 ∧ (hname.length + 2 ≤ room → Stays l (room - (hname.length + 2))) := by
  have hcolon : colon.length = 2 := rfl
  rw [(safe_check hname).stays_append, fits_check, stays_put_cons, hcolon]
  unfold left
  rw [text_check, Nat.sub_sub]
  constructor
  · intro h
    refine ⟨?_, ?_⟩
    · rintro rfl
      have hblank := (h (Nat.le_refl _)).1
      omega
    · exact fun hroom => (h (by omega)).2
  · rintro ⟨hne, hl⟩ hroom
    exact ⟨by omega, hl (by omega)⟩

/-! ## Generic headers -/

theorem safe_string (hname hvalue : Str) : Safe (genericStringHdrPrint hname hvalue) := by
  intro room
  rw [genericStringHdrPrint, stays_guarded_cons (guarded_need _)]
  intro hneed
  have hroom := of_decide_eq_true hneed
  rw [stays_put_cons, stays_terminate_cons]
  simp only [colon, need_text, List.length_nil, List.length_append, List.length_cons]
  exact ⟨by omega, by omega, stays_nil⟩

theorem stays_int {hname : Str} {ivalue : Int} : Stays (genericIntHdrPrint hname ivalue) room ↔
    (hname.length + 15 ≤ room → hname.length + digits ivalue + 3 ≤ room) := by
  rw [genericIntHdrPrint, stays_guarded_cons (guarded_need _), stays_put_cons, stays_utoa_cons]
  simp only [need, colon, decide_eq_true_eq, List.length_nil, List.length_append, List.length_cons,
    stays_nil, and_true]
  refine imp_congr_right fun hroom => ?_
  omega

theorem safe_values {values : List Str} (h : ∀ v ∈ values, Short v) : Safe (printValues values) := by
  have htail : ∀ l : List Str, (∀ v ∈ l, Short v) →
      Safe (l.flatMap fun v => copyAdvancePairCheck [44, 32] v) := by
    intro l
    induction l with
    | nil => exact fun _ => safe_nil
    | cons w l ih =>
        intro hl
        refine Safe.append (safe_pairCheck (by decide) (hl w List.mem_cons_self)) (ih ?_)
        exact fun v hv => hl v (List.mem_cons_of_mem w hv)
  cases values with
  | nil => exact safe_nil
  | cons v l => exact (safe_check v).append (htail l fun w hw => h w (List.mem_cons_of_mem v hw))

theorem stays_clen {hname : Str} {len : Int} : Stays (clenHdrPrint hname len) room ↔
    (hname.length + 14 ≤ room → hname.length + digits len + 3 ≤ room) := by
  rw [clenHdrPrint, stays_guarded_cons (guarded_need _), stays_put_cons, stays_utoa_cons,
    stays_terminate_cons]
  simp only [need, colon, decide_eq_true_eq, List.length_nil, List.length_append, List.length_cons,
    stays_nil, and_true]
  refine imp_congr_right fun hroom => ?_
  omega

theorem stays_cseq {name method : Str} {cseq : Int} : Stays (cseqHdrPrint name cseq method) room ↔
    (name.length + method.length + 15 ≤ room →
      name.length + digits cseq + method.length + 4 ≤ room) := by
  rw [cseqHdrPrint, stays_guarded_cons (guarded_need _), stays_put_cons, stays_utoa_cons, stays_put_cons,
    stays_terminate_cons]
  simp only [need, colon, decide_eq_true_eq, List.length_nil, List.length_append, List.length_cons,
    stays_nil, and_true]
  refine imp_congr_right fun hroom => ?_
  omega

/-! ## Contact -/

theorem stays_q {q1000 : Int} : Stays (printQ q1000) room ↔
    (20 ≤ room → (text (printQ q1000)).length + 1 ≤ room) := by
  have hname : (paramName ['q']).length = 3 := rfl
  unfold printQ
  rw [stays_guarded_cons (guarded_need 20), stays_put_cons, stays_utoa_cons, hname]
  simp only [need, decide_eq_true_eq, List.length_nil, Nat.sub_zero]
  refine forall_congr' ?_
  intro hroom
  split_ifs
  · rw [stays_put_cons, stays_utoa_cons]
    simp only [text_cons, text_nil, List.length_append, put_text, List.length_nil, hname, text_utoa,
      List.length_singleton, stays_nil, and_true]
    omega
  · simp only [text_cons, text_nil, List.length_append, put_text, List.length_nil, hname, text_utoa,
      stays_nil, and_true]
    omega

theorem stays_contactQ (hdr : ContactHdr) : Stays (contactQ hdr) room ↔
    (hdr.q1000 ≠ 0 → 20 ≤ room → (text (printQ hdr.q1000)).length + 1 ≤ room) := by
  unfold contactQ
  split_ifs with hq
  · rw [stays_q]
    exact ⟨fun h _ => h, fun h => h hq⟩
  · exact ⟨fun _ h => absurd h hq, fun _ => stays_nil⟩

theorem stays_expires (hdr : ContactHdr) : Stays (contactExpires hdr) room ↔
    (0 ≤ hdr.expires → 24 ≤ room → digits hdr.expires + 10 ≤ room) := by
  have hname : (paramName ['e', 'x', 'p', 'i', 'r', 'e', 's']).length = 9 := rfl
  unfold contactExpires
  split_ifs with hexp
  · rw [stays_guarded_cons (guarded_need 24), stays_put_cons, stays_utoa_cons, hname]
    simp only [need, decide_eq_true_eq, List.length_nil, Nat.sub_zero, stays_nil, and_true, hexp,
      true_imp_iff]
    refine forall_congr' ?_
    intro hroom
    omega
  · exact ⟨fun _ h => absurd h hexp, fun _ => stays_nil⟩

theorem stays_contactAddr {hname : Str} {hdr : ContactHdr}
    (hshort : ∀ uri ∈ hdr.uri, ShortAnyUri uri) : Stays (contactAddr cfg hname hdr) room ↔
      ∀ uri ∈ hdr.uri, hname.length + 3 ≤ room →
        AnyUriRoom cfg.uri .inContactHdr uri (room - (hname.length + 2)) := by
  unfold contactAddr
  rw [(safe_check hname).stays_append, (safe_char 58).stays_append, (safe_char 32).stays_append,
    fits_check]
  simp only [left, text_check, copyAdvanceCharCheck, fits_check_cons, fits_nil, and_true, text_cons,
    text_nil, check_text, List.append_nil, List.length_singleton]
  cases huri : hdr.uri with
  | none => exact ⟨nofun, fun _ _ _ _ => stays_of_guarded (by simpa using guarded_refuse)⟩
  | some uri =>
      have hroom : room - hname.length - 1 - 1 = room - (hname.length + 2) := by omega
      have hstays := fun {room : Nat} =>
        @pjsipUriPrint_stays cfg.uri .inContactHdr room _ (hshort uri huri)
      simp only [Option.mem_def, Option.some.injEq, forall_eq', hstays, hroom]
      constructor
      · exact fun h hle => h (by omega) (by omega) (by omega)
      · exact fun h _ _ _ => h (by omega)

theorem stays_contact {hname : Str} {hdr : ContactHdr}
    (hshort : ∀ uri ∈ hdr.uri, ShortAnyUri uri) : Stays (contactHdrPrint cfg hname hdr) room ↔
    hdr.star = true ∨ ContactRoom cfg hname hdr room := by
  unfold contactHdrPrint
  by_cases hstar : hdr.star = true
  · rw [if_pos hstar, stays_guarded_cons (guarded_need _)]
    refine ⟨fun _ => Or.inl hstar, ?_⟩
    intro _ hneed
    have hroom := of_decide_eq_true hneed
    rw [stays_put_cons]
    refine ⟨?_, stays_nil⟩
    simp only [colon, need_text, List.length_nil, List.length_append, List.length_cons]
    omega
  · rw [if_neg hstar, or_iff_right hstar, ← List.append_assoc, stays_append, stays_append,
      stays_append, stays_contactAddr hshort, stays_contactQ, stays_expires]
    constructor
    · rintro ⟨⟨huri, hq⟩, hrest⟩
      exact ⟨huri, fun h hf => hq hf h, fun h hf => (hrest hf).1 h⟩
    · intro h
      exact ⟨⟨h.uri, fun hf hne => h.q hne hf⟩,
        fun hf => ⟨fun hexp => h.expires hexp hf, fun _ => safe_tokenParams _ _⟩⟩

/-! ## Content-Type -/

theorem guarded_tokenParams (l : List Param) : ∀ p ∈ tokenParams l, Guarded p := by
  have hloop : ∀ (l : List Param) (sep : UInt8), ∀ p ∈ paramPrintLoop tokenSpec tokenSpec l sep,
      Guarded p := by
    have hescape : ∀ s : Str, ∀ p ∈ copyAdvanceEscape s tokenSpec, Guarded p := by
      intro s p hp
      rw [List.mem_singleton.mp hp]
      exact ⟨rfl, fun room hroom => copyAdvanceEscape_asks.mp hroom⟩
    have hchar : ∀ c : UInt8, ∀ p ∈ copyAdvanceCharCheck c, Guarded p := by
      intro c p hp
      rw [List.mem_singleton.mp hp]
      exact guarded_check (Nat.le_succ 1)
    have hcheck : ∀ s : Str, ∀ p ∈ copyAdvanceCheck s, Guarded p := by
      intro s p hp
      rw [List.mem_singleton.mp hp]
      exact guarded_check (Nat.le_succ s.length)
    intro l
    induction l with
    | nil => exact fun sep p hp => nomatch hp
    | cons prm l ih =>
        intro sep p hp
        simp only [paramPrintLoop, List.mem_append] at hp
        rcases hp with hp | hp | hp | hp
        · exact hchar sep p hp
        · exact hescape prm.name p hp
        · split_ifs at hp
          · rcases List.mem_append.mp hp with hp | hp
            · exact hchar 61 p hp
            · exact hcheck _ p hp
          · rcases List.mem_append.mp hp with hp | hp
            · exact hchar 61 p hp
            · exact hescape _ p hp
          · cases hp
        · exact ih _ p hp
  exact hloop l 59

theorem uint32_le (n : Nat) : MachineInt.uint32 (n : Int) ≤ n := by
  unfold MachineInt.uint32
  omega

/-- A refusal is not seen, so the pieces have to fit. -/
theorem stays_unsigned {l : Printed} (h : ∀ p ∈ l, Guarded p) : ∀ {n room : Nat},
    Stays (unsignedRoom n l) room ↔
      Fits l (MachineInt.uint32 ((room + n : Nat) : Int) - n) := by
  induction l with
  | nil => exact ⟨fun _ => fits_nil, fun _ => stays_nil⟩
  | cons p l ih =>
      intro n room
      have hle := uint32_le (room + n)
      have hp := h p List.mem_cons_self
      rw [unsignedRoom, stays_cons, fits_cons]
      dsimp only
      constructor
      · rintro ⟨hyes, hno⟩
        have hasks : p.asks (MachineInt.uint32 ((room + n : Nat) : Int) - n) = true := by
          by_contra hfalse
          exact nomatch hno (Bool.not_eq_true _ ▸ hfalse)
        have hlen := hp.2 _ hasks
        have hrest := (ih fun q hq => h q (List.mem_cons_of_mem p hq)).mp (hyes hasks).2
        have hsame : room - p.text.length + (n + p.text.length) = room + n := by omega
        rw [hsame, ← Nat.sub_sub] at hrest
        exact ⟨hasks, hrest⟩
      · rintro ⟨hasks, hrest⟩
        have hlen := hp.2 _ hasks
        refine ⟨fun _ => ⟨by omega, ?_⟩, fun hno => by rw [hasks] at hno; cases hno⟩
        have hsame : room - p.text.length + (n + p.text.length) = room + n := by omega
        rw [ih fun q hq => h q (List.mem_cons_of_mem p hq), hsame, ← Nat.sub_sub]
        exact hrest

/-- A content type, in a room that its type and its subtype fit in. -/
theorem stays_media {media : MediaType} (h : (typeText media).length ≤ room) :
    Stays (printMediaType media) room ↔ MediaRoom media room := by
  have hroom : room - (typeText media).length + (typeText media).length = room := by omega
  rw [printMediaType, stays_put_cons, stays_unsigned (guarded_tokenParams media.param), hroom]
  exact ⟨fun hs => hs.2, fun hm => ⟨h, hm⟩⟩

theorem text_unsigned (l : Printed) : ∀ n, text (unsignedRoom n l) = text l := by
  induction l with
  | nil => exact fun n => rfl
  | cons p l ih =>
      intro n
      rw [unsignedRoom, text_cons, text_cons, ih]

theorem fits_media {media : MediaType} (h : MediaRoom media room) (hroom : (typeText media).length ≤ room) :
    Fits (printMediaType media) room := by
  have hfits : ∀ {l : Printed}, (∀ p ∈ l, Guarded p) → ∀ {n room : Nat},
      Fits l (MachineInt.uint32 ((room + n : Nat) : Int) - n) → Fits (unsignedRoom n l) room := by
    intro l
    induction l with
    | nil => exact fun _ _ _ _ => fits_nil
    | cons p l ih =>
        intro hl n room hf
        have hle := uint32_le (room + n)
        have hlen := (hl p List.mem_cons_self).2 _ hf.1
        refine ⟨hf.1, ih (fun q hq => hl q (List.mem_cons_of_mem p hq)) ?_⟩
        have hsame : room - p.text.length + (n + p.text.length) = room + n := by omega
        rw [hsame, ← Nat.sub_sub]
        exact hf.2
  rw [printMediaType, fits_put_cons]
  refine hfits (guarded_tokenParams media.param) ?_
  have hsame : room - (typeText media).length + (typeText media).length = room := by omega
  rw [hsame]
  exact h

theorem stays_ctype {hname : Str} {media : MediaType} : Stays (ctypeHdrPrint hname media) room ↔
    (hname.length + media.type.length + media.subtype.length + 8 ≤ room →
      MediaRoom media (room - (hname.length + 2)) ∧
        0 < left (printMediaType media) (room - (hname.length + 2))) := by
  have hcolon : colon.length = 2 := rfl
  rw [ctypeHdrPrint, stays_guarded_cons (guarded_need _), stays_put_cons, List.length_append, hcolon]
  simp only [need, decide_eq_true_eq, List.length_nil, Nat.sub_zero]
  refine forall_congr' ?_
  intro hroom
  have htype : (typeText media).length ≤ room - (hname.length + 2) := by
    simp only [typeText, List.length_append, List.length_singleton]
    omega
  rw [stays_append, stays_media htype, stays_terminate_cons]
  constructor
  · rintro ⟨-, hmedia, hlast⟩
    exact ⟨hmedia, (hlast (fits_media hmedia htype)).1⟩
  · rintro ⟨hmedia, hlast⟩
    exact ⟨by omega, hmedia, fun _ => ⟨hlast, stays_nil⟩⟩

/-! ## Addresses, Retry-After and Via -/

theorem stays_fromto {hname : Str} {hdr : FromToHdr} (hshort : ShortAnyUri hdr.uri) :
    Stays (fromtoHdrPrint cfg hname hdr) room ↔ room ≠ hname.length + 1 ∧ (hname.length + 2 ≤ room →
      AnyUriRoom cfg.uri .inFromToHdr hdr.uri (room - (hname.length + 2))) := by
  rw [fromtoHdrPrint, stays_named]
  refine and_congr_right' (forall_congr' ?_)
  intro _
  rw [stays_append, pjsipUriPrint_stays hshort]
  exact and_iff_left fun _ => ((safe_pairEscape _ _ _).append (safe_tokenParams _)) _

theorem stays_routingPieces {name : Str} {hdr : RoutingHdr} (hshort : ShortUri hdr.nameAddr.uri) :
    Stays (routingPieces cfg name hdr) room ↔
      room ≠ name.length + 1 ∧ (name.length + 2 ≤ room →
        AnyUriRoom cfg.uri .inRoutingHdr (.nameAddr hdr.nameAddr) (room - (name.length + 2))) := by
  rw [routingPieces, stays_named]
  refine and_congr_right' (forall_congr' ?_)
  intro _
  rw [stays_append, @pjsipUriPrint_stays _ _ _ (.nameAddr hdr.nameAddr) hshort]
  exact and_iff_left fun _ => safe_tokenParams _ _

theorem stays_routing {name : Str} {hdr : RoutingHdr} (hshort : ShortUri hdr.nameAddr.uri) :
    Stays (routingHdrPrint cfg name hdr) room ↔ RoutingRoom cfg name hdr room := by
  unfold routingHdrPrint RoutingRoom
  cases huri : hdr.nameAddr.uri with
  | sip url =>
      by_cases hhide : hidden url = true
      · simp only [hhide, if_true, true_imp_iff, Bool.true_eq_false, false_imp_iff, and_true]
        by_cases hlr : url.lrParam = true
        · simp [hlr]
        · simp only [hlr]
          exact ⟨fun h => absurd h not_stays_stray, fun h => nomatch h⟩
      · have hshown : hidden url = false := by simpa using hhide
        simp only [hshown, Bool.false_eq_true, if_false, false_imp_iff, true_imp_iff, true_and]
        exact stays_routingPieces hshort
  | tel | other => exact ⟨fun h => absurd h not_stays_stray, False.elim⟩

theorem stays_retryAfter {name : Str} {hdr : RetryAfterHdr} :
    Stays (retryAfterHdrPrint name hdr) room ↔
      (name.length + 13 ≤ room → name.length + digits hdr.ivalue + 3 ≤ room) := by
  -- The three bytes in front of the comment are for its parentheses and the blank.
  have hcomment : Safe (if hdr.comment ≠ [] then
      [need (hdr.comment.length + 3),
        put ((if hdr.comment.headD 0 = 40 then hdr.comment else 40 :: (hdr.comment ++ [41])) ++
          if hdr.param ≠ [] then [32] else [])]
      else []) := by
    refine Safe.ite ?_ safe_nil
    intro r
    rw [stays_guarded_cons (guarded_need _)]
    intro hneed
    have hroom := of_decide_eq_true hneed
    rw [stays_put_cons]
    refine ⟨?_, stays_nil⟩
    simp only [need_text, List.length_nil, List.length_append]
    split_ifs
    all_goals
      simp only [List.length_cons, List.length_append, List.length_nil]
      omega
  rw [retryAfterHdrPrint, stays_append, stays_guarded_cons (guarded_need _), stays_put_cons,
    stays_utoa_cons, and_iff_left fun _ => (hcomment.append (safe_tokenParams _)) _]
  simp only [need, colon, decide_eq_true_eq, List.length_nil, List.length_append, List.length_cons,
    stays_nil, and_true]
  refine forall_congr' ?_
  intro hroom
  omega

theorem safe_viaHost {hname : Str} {hdr : ViaHdr} (hhost : Short hdr.host) : Safe (viaHost hname hdr) := by
  intro room
  rw [viaHost, stays_guarded_cons (guarded_need _)]
  intro hneed
  have hroom := of_decide_eq_true hneed
  rw [(safe_check hname).stays_append]
  intro _
  rw [stays_put_cons]
  refine ⟨?_, safe_host hhost _⟩
  simp only [left, text_check, need_text, colon, str, List.length_append, List.length_map,
    List.length_cons, List.length_nil]
  omega

theorem stays_viaPort (hdr : ViaHdr) : Stays (viaPort hdr) room ↔
    (hdr.port ≠ 0 → digits hdr.port + 2 ≤ room) := by
  unfold viaPort
  split_ifs with hport
  · rw [stays_put_cons, stays_utoa_cons, List.length_singleton, and_iff_left stays_nil]
    constructor
    · intro h _
      omega
    · intro h
      have hroom := h hport
      omega
  · exact ⟨fun _ h => absurd h hport, fun _ => stays_nil⟩

theorem stays_viaTtl (hdr : ViaHdr) : Stays (viaTtl hdr) room ↔
    (0 ≤ hdr.ttlParam → 14 ≤ room → digits hdr.ttlParam + 6 ≤ room) := by
  have hname : (paramName ['t', 't', 'l']).length = 5 := rfl
  unfold viaTtl
  split_ifs with httl
  · rw [stays_guarded_cons (guarded_need 14), stays_put_cons, stays_utoa_cons, hname]
    simp only [need, decide_eq_true_eq, List.length_nil, Nat.sub_zero, stays_nil, and_true, httl,
      true_imp_iff]
    refine forall_congr' ?_
    intro hroom
    omega
  · exact ⟨fun _ h => absurd h httl, fun _ => stays_nil⟩

theorem stays_viaRport (hdr : ViaHdr) : Stays (viaRport hdr) room ↔
    (0 < hdr.rportParam → 14 ≤ room → digits hdr.rportParam + 8 ≤ room) := by
  have hname : (str [';', 'r', 'p', 'o', 'r', 't']).length = 6 := rfl
  unfold viaRport
  split_ifs with hrport hpos
  · rw [stays_guarded_cons (guarded_need 14), stays_put_cons, stays_put_cons, stays_utoa_cons, hname]
    simp only [need, decide_eq_true_eq, List.length_nil, Nat.sub_zero, List.length_singleton, stays_nil,
      and_true, hpos, true_imp_iff]
    refine forall_congr' ?_
    intro hroom
    omega
  · rw [stays_guarded_cons (guarded_need 14), stays_put_cons, hname]
    simp only [need, decide_eq_true_eq, List.length_nil, Nat.sub_zero, stays_nil, and_true]
    exact ⟨fun _ h => absurd h hpos, fun _ hroom => by omega⟩
  · exact ⟨fun _ h => absurd h.le hrport, fun _ => stays_nil⟩

theorem safe_viaRest {hdr : ViaHdr} (hmaddr : Short hdr.maddrParam) (hrecvd : Short hdr.recvdParam) :
    Safe (viaRest hdr) := by
  have hpair : Safe (if hdr.maddrParam.contains 58 then
      copyAdvancePairQuoteCond (paramName ['m', 'a', 'd', 'd', 'r']) hdr.maddrParam 91 93
      else copyAdvancePairCheck (paramName ['m', 'a', 'd', 'd', 'r']) hdr.maddrParam) :=
    (safe_pairQuoteCond (by decide) hmaddr).ite (safe_pairCheck (by decide) hmaddr)
  exact (Safe.ite hpair safe_nil).append
    ((safe_pairCheck (by decide) hrecvd).append ((safe_pairEscape _ _ _).append (safe_tokenParams _)))

theorem stays_via {hname : Str} {hdr : ViaHdr}
    (hshort : Short hdr.host ∧ Short hdr.maddrParam ∧ Short hdr.recvdParam) :
    Stays (viaHdrPrint hname hdr) room ↔ ViaRoom hname hdr room := by
  unfold viaHdrPrint
  rw [← List.append_assoc, ← List.append_assoc, stays_append, stays_append,
    (safe_viaHost hshort.1).stays_append, stays_viaPort, stays_viaTtl, stays_append, stays_viaRport,
    List.append_assoc]
  constructor
  · rintro ⟨⟨hport, httl⟩, hrest⟩
    exact ⟨fun h hf => hport hf h, fun h hf => httl hf h, fun h hf => (hrest hf).1 h⟩
  · intro h
    exact ⟨⟨fun hf hne => h.port hne hf, fun hf ht => h.ttl ht hf⟩,
      fun hf => ⟨fun hr => h.rport hr hf, fun _ => safe_viaRest hshort.2.1 hshort.2.2 _⟩⟩

/-! ## Authorization -/

theorem stays_authScheme {name scheme : Str} :
    Stays (authScheme name scheme) room ↔ room ≠ name.length + 1 := by
  rw [authScheme, stays_named, and_iff_left]
  intro _
  rw [(safe_check scheme).stays_append, fits_check]
  intro hroom
  rw [stays_put_cons]
  refine ⟨?_, stays_nil⟩
  rw [left, text_check, List.length_singleton]
  omega

theorem stays_auth {name scheme : Str} {digest : Printed} (h : Safe digest) :
    Stays (authHdrPrint name scheme digest) room ↔ AuthRoom name scheme digest room := by
  have hrefuse : Safe [(refuse : Piece UInt8)] := safe_of_guarded (by simpa using guarded_refuse)
  have hdigest : Safe (authDigest scheme digest) := Safe.ite h hrefuse
  unfold authHdrPrint
  rw [← List.append_assoc, stays_append, stays_append, stays_authScheme, stays_terminate_cons]
  constructor
  · rintro ⟨⟨hname, -⟩, hlast⟩
    exact ⟨hname, fun hf => (hlast hf).1⟩
  · rintro ⟨hname, hlast⟩
    exact ⟨⟨hname, fun _ => hdigest _⟩, fun hf => ⟨hlast hf, stays_nil⟩⟩

theorem safe_digestCredential {cred : DigestCredential} (h : ∀ s ∈ credStrings cred, Short s) :
    Safe (printDigestCredential cred) := by
  simp only [credStrings, List.forall_mem_cons, List.not_mem_nil, false_imp_iff, implies_true,
    and_true] at h
  rcases h with ⟨husername, hrealm, hnonce, huri, hresponse, halgorithm, hcnonce, hopaque, hqop, hnc⟩
  exact (safe_pairQuoteCond (by decide) husername).append
    ((safe_pairQuoteCond (by decide) hrealm).append
    ((safe_pairQuote (by decide) hnonce).append
    ((safe_pairQuoteCond (by decide) huri).append
    ((safe_pairQuote (by decide) hresponse).append
    ((safe_pairCheck (by decide) halgorithm).append
    ((safe_pairQuoteCond (by decide) hcnonce).append
    ((safe_pairQuoteCond (by decide) hopaque).append
    ((safe_pairCheck (by decide) hqop).append
    ((safe_pairCheck (by decide) hnc).append (safe_params _ _ _ _))))))))))

theorem safe_digestChallenge {chal : DigestChallenge} (h : ∀ s ∈ chalStrings chal, Short s) :
    Safe (printDigestChallenge chal) := by
  simp only [chalStrings, List.forall_mem_cons, List.not_mem_nil, false_imp_iff, implies_true,
    and_true] at h
  rcases h with ⟨hrealm, hdomain, hnonce, hopaque, halgorithm, hqop⟩
  have hstale : Safe (if chal.stale then
      copyAdvancePairCheck (str [',', 's', 't', 'a', 'l', 'e', '=']) (str ['t', 'r', 'u', 'e'])
      else []) := Safe.ite (safe_pairCheck (by decide) (by decide)) safe_nil
  exact (safe_pairQuote (by decide) hrealm).append
    ((safe_pairQuoteCond (by decide) hdomain).append
    ((safe_pairQuoteCond (by decide) hnonce).append
    ((safe_pairQuoteCond (by decide) hopaque).append
    (hstale.append
    ((safe_pairCheck (by decide) halgorithm).append
    ((safe_pairQuoteCond (by decide) hqop).append (safe_params _ _ _ _)))))))

/-- **A header is printed inside the room** it is given if and only if there is room for what its print
function does not ask for. -/
theorem hdrPrint_stays {hdr : Hdr} (hshort : ShortHdr hdr) :
    Stays (pjsipHdrPrintOn cfg hdr) room ↔ HdrRoom cfg hdr room := by
  unfold ShortHdr at hshort
  unfold pjsipHdrPrintOn HdrRoom
  cases htype : hdr.value with
  | string hvalue => exact ⟨fun _ => trivial, fun _ => safe_string _ hvalue room⟩
  | int ivalue => exact stays_int
  | array values =>
      show Stays (genericArrayHdrPrint _ values) room ↔ _
      rw [genericArrayHdrPrint, stays_named]
      rw [htype] at hshort
      exact and_iff_left fun _ => safe_values hshort _
  | clen len => exact stays_clen
  | cseq cseq method => exact stays_cseq
  | contact h =>
      rw [htype] at hshort
      exact stays_contact hshort
  | ctype media => exact stays_ctype
  | fromto h =>
      rw [htype] at hshort
      exact stays_fromto hshort
  | routing h =>
      rw [htype] at hshort
      exact stays_routing hshort
  | retryAfter h => exact stays_retryAfter
  | via h =>
      rw [htype] at hshort
      exact stays_via hshort
  | authorization scheme digest =>
      rw [htype] at hshort
      exact stays_auth (safe_digestCredential hshort)
  | wwwAuthenticate scheme digest =>
      rw [htype] at hshort
      exact stays_auth (safe_digestChallenge hshort)

end

end SipWrite
