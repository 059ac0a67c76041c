import PjProject.Library.Buffer
import PjProject.Library.Wire

set_option autoImplicit false

/-! # Decoding an RTP packet

`pjmedia_rtp_decode_rtp` of `pjmedia/src/pjmedia/rtp.c`. The version, the flags and the count of the
contributing sources are the first byte of the packet; it is read before its length is looked at, and
so is the length of the extension.
-/

namespace Rtp

open Buffer

/-- A read behind the packet. -/
inductive Fault
  | outOfBounds
  deriving DecidableEq

inductive DecodeStatus
  | einver
  | einlen
  deriving DecidableEq

/-- `payload`, as its offset in the packet, and `payloadlen`. -/
structure Payload where
  payload : Nat
  payloadlen : Nat
  deriving DecidableEq

/-- `sizeof(pjmedia_rtp_hdr)`. -/
def sizeofHdr : Nat := 12

/-- The padding is removed, if there is any. -/
def removePadding (pkt : List UInt8) (padded : Bool) (p : Payload) : Except Fault Payload :=
  if padded ∧ 0 < p.payloadlen then do
    let padLen ← byteAt .outOfBounds pkt (p.payload + p.payloadlen - 1)
    .ok (if padLen ≤ p.payloadlen then { p with payloadlen := p.payloadlen - padLen } else p)
  else .ok p

/-- The offset behind the extension. -/
def skipExt (pkt : List UInt8) (x : Bool) (offset : Nat) : Except Fault Nat :=
  if x then do
    let length ← be16At .outOfBounds pkt (offset + 2)
    .ok (offset + (length + 1) * 4)
  else .ok offset

/-- `pjmedia_rtp_decode_rtp`. -/
def decodeRtp (pkt : List UInt8) : Except Fault (Except DecodeStatus Payload) := do
  let flags ← byteAt .outOfBounds pkt 0
  if flags / 64 ≠ 2 then .ok (.error .einver)
  else do
    let offset ← skipExt pkt (flags / 16 % 2 = 1) (sizeofHdr + flags % 16 * 4)
    if offset > pkt.length then .ok (.error .einlen)
    else do
      let p ← removePadding pkt (flags / 32 % 2 = 1) ⟨offset, pkt.length - offset⟩
      .ok (.ok p)

/-! ## What a packet says of itself -/

def version (pkt : List UInt8) : Nat := content pkt 0 / 64

def HasPadding (pkt : List UInt8) : Prop := content pkt 0 / 32 % 2 = 1

def HasExt (pkt : List UInt8) : Prop := content pkt 0 / 16 % 2 = 1

instance decidableHasPadding (pkt : List UInt8) : Decidable (HasPadding pkt) :=
  inferInstanceAs (Decidable (_ = _))

instance decidableHasExt (pkt : List UInt8) : Decidable (HasExt pkt) :=
  inferInstanceAs (Decidable (_ = _))

/-- The bytes of the header and of the contributing sources. -/
def csrcEnd (pkt : List UInt8) : Nat := 12 + 4 * (content pkt 0 % 16)

/-- The bytes before the payload. -/
def payloadStart (pkt : List UInt8) : Nat :=
  csrcEnd pkt + if HasExt pkt then 4 * (content16 pkt (csrcEnd pkt + 2) + 1) else 0

/-- The bytes of the padding: the last byte of the packet is their number, if there are as many. -/
def padding (pkt : List UInt8) : Nat :=
  let last := content pkt (pkt.length - 1)
  if HasPadding pkt ∧ last ≤ pkt.length - payloadStart pkt then last else 0

/-- The payload is the part of the packet between what is before it and the padding. -/
structure IsPayload (pkt : List UInt8) (p : Payload) : Prop where
  start : p.payload = payloadStart pkt
  len : p.payloadlen = pkt.length - payloadStart pkt - padding pkt
  inside : p.payload + p.payloadlen ≤ pkt.length

/-- Only the packet is read, and a packet that is accepted has its payload denoted. -/
def DecodesInside (pkt : List UInt8) : Prop :=
  Yields (fun r => ∀ p, r = .ok p → IsPayload pkt p) (decodeRtp pkt)

variable {pkt : List UInt8}

theorem offset_eq (pkt : List UInt8) : sizeofHdr + content pkt 0 % 16 * 4 = csrcEnd pkt := by
  unfold sizeofHdr csrcEnd
  omega

/-- The extension is read if there is one. -/
theorem yields_skipExt {β : Type} {R : β → Prop} {f : Nat → Except Fault β} :
    Yields R (skipExt pkt (content pkt 0 / 16 % 2 = 1) (csrcEnd pkt) >>= f) ↔
      (HasExt pkt → csrcEnd pkt + 4 ≤ pkt.length) ∧ Yields R (f (payloadStart pkt)) := by
  unfold skipExt payloadStart
  by_cases hx : HasExt pkt
  · have hbit : content pkt 0 / 16 % 2 = 1 := hx
    have hlen : csrcEnd pkt + (content16 pkt (csrcEnd pkt + 2) + 1) * 4 =
        csrcEnd pkt + 4 * (content16 pkt (csrcEnd pkt + 2) + 1) := by omega
    simp only [hbit, decide_true, if_true, hx, bind_assoc, yields_be16At]
    simp only [forall_const, hlen]
    exact Iff.rfl
  · have hbit : ¬ content pkt 0 / 16 % 2 = 1 := hx
    simp only [hbit, decide_false, Bool.false_eq_true, if_false, hx, add_zero, false_imp_iff,
      true_and]
    exact Iff.rfl

/-- The padding is removed inside the packet. -/
theorem yields_removePadding (h : payloadStart pkt ≤ pkt.length) :
    Yields (IsPayload pkt) (removePadding pkt (content pkt 0 / 32 % 2 = 1)
      ⟨payloadStart pkt, pkt.length - payloadStart pkt⟩) := by
  unfold removePadding
  dsimp only
  split
  next hp =>
    rcases hp with ⟨hbit, hpos⟩
    have hlast : payloadStart pkt + (pkt.length - payloadStart pkt) - 1 = pkt.length - 1 := by omega
    have hpadding : HasPadding pkt := of_decide_eq_true hbit
    rw [yields_byteAt, hlast, yields_ok]
    refine ⟨by omega, ?_⟩
    split
    next hle =>
      have hpad : padding pkt = content pkt (pkt.length - 1) := if_pos ⟨hpadding, hle⟩
      exact ⟨rfl, by rw [hpad], by dsimp only; omega⟩
    next hgt =>
      have hpad : padding pkt = 0 := if_neg fun hboth => hgt hboth.2
      exact ⟨rfl, by rw [hpad]; rfl, by dsimp only; omega⟩
  next hp =>
    have hpad : pkt.length - payloadStart pkt - padding pkt = pkt.length - payloadStart pkt := by
      unfold padding
      dsimp only
      split
      next hboth =>
        have hbit : content pkt 0 / 32 % 2 = 1 := hboth.1
        simp only [hbit, decide_true, true_and, not_lt] at hp
        omega
      next => rfl
    rw [yields_ok]
    exact ⟨rfl, hpad.symm, by dsimp only; omega⟩

/-- **When a packet is decoded inside its bytes.** -/
theorem decodesInside_iff (pkt : List UInt8) : DecodesInside pkt ↔
    0 < pkt.length ∧ (version pkt = 2 → HasExt pkt → csrcEnd pkt + 4 ≤ pkt.length) := by
  unfold DecodesInside decodeRtp
  rw [yields_byteAt]
  apply and_congr_right
  intro _
  by_cases hv : version pkt = 2
  · have hv' : ¬ content pkt 0 / 64 ≠ 2 := not_not.mpr hv
    rw [if_neg hv', offset_eq, yields_skipExt]
    constructor
    · rintro ⟨hext, -⟩ -
      exact hext
    · intro hext
      refine ⟨hext hv, ?_⟩
      split
      · simp
      · rw [yields_bind]
        apply (yields_removePadding (by omega)).mono
        intro p hp
        rw [yields_ok]
        intro p' heq
        cases heq
        exact hp
  · have hv' : content pkt 0 / 64 ≠ 2 := hv
    rw [if_pos hv', yields_ok]
    simp [hv]

/-- A packet of 12 bytes with the flag of an extension. -/
theorem bareExt_outside : ¬ DecodesInside [144, 0, 0, 0, 0, 0, 0, 0, 0, 0, 0, 0] := by
  rintro ⟨r, hr, -⟩
  have hfault : decodeRtp [144, 0, 0, 0, 0, 0, 0, 0, 0, 0, 0, 0] = .error .outOfBounds := by decide
  rw [hfault] at hr
  cases hr

end Rtp

/-! ## Received RTCP packets

`pjmedia_rtcp_rx_rtcp` of `pjmedia/src/pjmedia/rtcp.c` and the parsers it calls, without
`PJMEDIA_HAS_RTCP_XR`. What a report says is computed from is kept as it was read; the statistics, the
times and the output of the log are left out. A packet is a sequence of sub-packets with lengths of their own, and
the parsers get the length that a sub-packet has by its own account. Of the log, the value of an item
that does not fit is read, since it is read from the packet (`PJ_LOG_MAX_LEVEL` is 5, as in `config.h`,
and so is the level of the log).
-/

namespace Rtp

open Buffer

/-- How parsing can go wrong: an access outside of the buffer, or a loop without end. -/
inductive RtcpFault
  | outOfBounds
  | diverges
  deriving DecidableEq

/-- A `pj_str_t` that points into `peer_sdes_buf_`: its offset and its length. -/
structure SdesValue where
  ptr : Nat
  slen : Nat
  deriving DecidableEq

/-- `pjmedia_rtcp_sdes`. -/
structure RtcpSdes where
  cname : Option SdesValue
  name : Option SdesValue
  email : Option SdesValue
  phone : Option SdesValue
  loc : Option SdesValue
  tool : Option SdesValue
  note : Option SdesValue
  deriving DecidableEq

/-- `pj_bzero(sdes, sizeof(*sdes))`. -/
def RtcpSdes.zero : RtcpSdes := ⟨none, none, none, none, none, none, none⟩

/-- `PJMEDIA_RTCP_RX_SDES_BUF_LEN`. -/
def sdesBufLen : Nat := 64

/-- What is read of a receiver report; the delay only if there is the time of a sender report. -/
structure RrReport where
  loss : Nat
  jitter : Nat
  lsr : Nat
  dlsr : Option Nat
  deriving DecidableEq

/-- The part of a `pjmedia_rtcp_session` that received packets are stored in. -/
structure RtcpSession where
  rxLsr : Nat
  report : Option RrReport
  sdes : RtcpSdes
  sdesBuf : Wire.Bytes sdesBufLen
  deriving DecidableEq

def rtcpSr : Nat := 200
def rtcpRr : Nat := 201
def rtcpSdes : Nat := 202
def rtcpBye : Nat := 203
def rtcpXr : Nat := 207

/-- `sizeof(pjmedia_rtcp_common)`. -/
def sizeofCommon : Nat := 8

/-- `sizeof(pjmedia_rtcp_sr)`. -/
def sizeofSr : Nat := 20

/-- `sizeof(pjmedia_rtcp_sr_pkt)`. -/
def sizeofSrPkt : Nat := 52

variable (pkt : List UInt8)

/-- The report block at `rr`. -/
def readRr (rr : Nat) : Except RtcpFault RrReport := do
  let lost2 ← byteAt .outOfBounds pkt (rr + 5)
  let lost1 ← byteAt .outOfBounds pkt (rr + 6)
  let lost0 ← byteAt .outOfBounds pkt (rr + 7)
  let jitter ← be32At .outOfBounds pkt (rr + 12)
  let lsr ← be32At .outOfBounds pkt (rr + 16)
  let loss := lost2 * 65536 + lost1 * 256 + lost0
  if lsr ≠ 0 then do
    let dlsr ← be32At .outOfBounds pkt (rr + 20)
    .ok ⟨loss, jitter, lsr, some dlsr⟩
  else .ok ⟨loss, jitter, lsr, none⟩

/-- The report block of the sub-packet that is parsed, if it has one. -/
def storeRr (sess : RtcpSession) : Option Nat → Except RtcpFault RtcpSession
  | none => .ok sess
  | some rr => do
      let report ← readRr pkt rr
      .ok { sess with report := some report }

/-- `parse_rtcp_report` of the sub-packet at `p`. -/
def parseRtcpReport (sess : RtcpSession) (p size : Nat) : Except RtcpFault RtcpSession := do
  let count ← byteAt .outOfBounds pkt p
  let pt ← byteAt .outOfBounds pkt (p + 1)
  if pt = rtcpSr then do
    let ntpSec ← be32At .outOfBounds pkt (p + sizeofCommon)
    let ntpFrac ← be32At .outOfBounds pkt (p + sizeofCommon + 4)
    let sess := { sess with rxLsr := ntpSec % 65536 * 65536 + ntpFrac / 65536 }
    storeRr pkt sess (if 0 < count % 32 ∧ sizeofSrPkt ≤ size then some (p + sizeofCommon + sizeofSr)
      else none)
  else if pt = rtcpRr ∧ 0 < count % 32 then storeRr pkt sess (some (p + sizeofCommon))
  else .ok sess

/-- The value of an item is stored by its type. -/
def RtcpSdes.store (sdes : RtcpSdes) (type : Nat) (v : SdesValue) : RtcpSdes :=
  match type with
  | 1 => { sdes with cname := some v }
  | 2 => { sdes with name := some v }
  | 3 => { sdes with email := some v }
  | 4 => { sdes with phone := some v }
  | 5 => { sdes with loc := some v }
  | 6 => { sdes with tool := some v }
  | 7 => { sdes with note := some v }
  | _ => sdes

/-- `pj_memcpy` to the offset `b` of `peer_sdes_buf_`. -/
def writeSdesBuf (sess : RtcpSession) (b : Nat) (bytes : List UInt8) : Except RtcpFault RtcpSession :=
  if h : b + bytes.length ≤ sdesBufLen then
    .ok { sess with
      sdesBuf := ⟨sess.sdesBuf.val.take b ++ bytes ++ sess.sdesBuf.val.drop (b + bytes.length), by
        have hlen := sess.sdesBuf.property
        rw [List.length_append, List.length_append, List.length_take, List.length_drop]
        omega⟩ }
  else .error .outOfBounds

/-- An item of `sdesLen` bytes at `p`, if there is room for it behind `b`. -/
def storeItem (sess : RtcpSession) (type p b sdesLen : Nat) : Except RtcpFault (RtcpSession × Nat) :=
  if b + sdesLen < sdesBufLen then do
    let bytes ← bytesAt .outOfBounds pkt p sdesLen
    let sess ← writeSdesBuf sess b bytes
    .ok ({ sess with sdes := sess.sdes.store type ⟨b, sdesLen⟩ }, b + sdesLen)
  else do
    -- the value is logged: `%.*s` of `sdes_len` and `p`
    let _ ← textAt .outOfBounds pkt p sdesLen
    .ok (sess, b)

/-- The loop of `parse_rtcp_sdes`, from `p` to `pEnd`. -/
def sdesLoop : (turns : Nat) → RtcpSession → (p b pEnd : Nat) → Except RtcpFault RtcpSession
  | 0, _, _, _, _ => .error .diverges
  | turns + 1, sess, p, b, pEnd =>
      if p < pEnd then do
        let type ← byteAt .outOfBounds pkt p
        if type = 0 ∨ p + 1 = pEnd then .ok sess
        else do
          let sdesLen ← byteAt .outOfBounds pkt (p + 1)
          if p + 2 + sdesLen > pEnd then .ok sess
          else do
            let r ← storeItem pkt sess type (p + 2) b sdesLen
            sdesLoop turns r.1 (p + 2 + sdesLen) r.2 pEnd
      else .ok sess

/-- `parse_rtcp_sdes`. -/
def parseRtcpSdes (sess : RtcpSession) (p size : Nat) : Except RtcpFault RtcpSession :=
  sdesLoop pkt size { sess with sdes := .zero } (p + 8) 0 (p + size)

/-- `parse_rtcp_bye`. -/
def parseRtcpBye (sess : RtcpSession) (p size : Nat) : Except RtcpFault RtcpSession :=
  if size > 8 then do
    let reasonLen ← byteAt .outOfBounds pkt (p + 8)
    let bytes ← bytesAt .outOfBounds pkt (p + 9) (min sdesBufLen reasonLen)
    writeSdesBuf sess 0 bytes
  else .ok sess

/-- The `switch` of `pjmedia_rtcp_rx_rtcp`. -/
def parseSubPacket (sess : RtcpSession) (p pt len : Nat) : Except RtcpFault RtcpSession :=
  if pt = rtcpSr ∨ pt = rtcpRr ∨ pt = rtcpXr then parseRtcpReport pkt sess p len
  else if pt = rtcpSdes then parseRtcpSdes pkt sess p len
  else if pt = rtcpBye then parseRtcpBye pkt sess p len
  else .ok sess

/-- The loop of `pjmedia_rtcp_rx_rtcp`. -/
def rxLoop : (turns : Nat) → RtcpSession → (p : Nat) → Except RtcpFault RtcpSession
  | 0, _, _ => .error .diverges
  | turns + 1, sess, p =>
      if p < pkt.length then do
        let length ← be16At .outOfBounds pkt (p + 2)
        let pt ← byteAt .outOfBounds pkt (p + 1)
        let sess ← parseSubPacket pkt sess p pt ((length + 1) * 4)
        rxLoop turns sess (p + (length + 1) * 4)
      else .ok sess

/-- `pjmedia_rtcp_rx_rtcp`. A turn of its loop takes at least four bytes. -/
def rxRtcp (sess : RtcpSession) : Except RtcpFault RtcpSession := rxLoop pkt (pkt.length + 1) sess 0

/-! ## What a packet says of itself -/

/-- The length that the sub-packet at `o` claims to have. -/
def subLen (o : Nat) : Nat := (content16 pkt (o + 2) + 1) * 4

def subType (o : Nat) : Nat := content pkt (o + 1)

/-- The number of report blocks it claims to have. -/
def subCount (o : Nat) : Nat := content pkt o % 32

/-- The sub-packets from the offset `o` on. -/
inductive SubPacket : Nat → Nat → Prop
  | here {o : Nat} (h : o < pkt.length) : SubPacket o o
  | behind {o o' : Nat} (h : o < pkt.length) (hrest : SubPacket (o + subLen pkt o) o') : SubPacket o o'

/-- The items of a list that claims to end at `e`, from `p` on, and how full the buffer of the values
is at each. -/
inductive SdesItem (e : Nat) : Nat → Nat → Nat → Nat → Prop
  | here {p b : Nat} (h : p < e) : SdesItem e p b p b
  | behind {p b p' b' : Nat} (h : p < e) (htype : content pkt p ≠ 0) (hlen : p + 1 < e)
      (hin : p + 2 + content pkt (p + 1) ≤ e)
      (hrest : SdesItem e (p + 2 + content pkt (p + 1))
        (if b + content pkt (p + 1) < sdesBufLen then b + content pkt (p + 1) else b) p' b') :
      SdesItem e p b p' b'

/-- A value of `n` bytes at `p` is inside the packet, as far as it is read: all of it, or if it is only
logged, what is in front of a NUL. -/
def ValueInside (p b n : Nat) : Prop :=
  n = 0 ∨ p + n ≤ pkt.length ∨ sdesBufLen ≤ b + n ∧ 0 ∈ pkt.drop p

/-- The item at `p` is inside the packet, as far as it is read: the type, the length behind it, and the
value. -/
def ItemInside (e p b : Nat) : Prop :=
  p < pkt.length ∧ (content pkt p ≠ 0 → p + 1 < e → p + 1 < pkt.length ∧
    (p + 2 + content pkt (p + 1) ≤ e → ValueInside pkt (p + 2) b (content pkt (p + 1))))

/-- The report block at `rr` is inside the packet, up to the last field that is read. -/
def RrInside (rr : Nat) : Prop :=
  rr + 20 ≤ pkt.length ∧ (content32 pkt (rr + 16) ≠ 0 → rr + 24 ≤ pkt.length)

/-- The sub-packet at `o` is inside the packet, as far as it is read: its header, and what its type
makes the parsers read. -/
structure SubInside (o : Nat) : Prop where
  header : o + 4 ≤ pkt.length
  sr : subType pkt o = rtcpSr → o + 16 ≤ pkt.length ∧
    (0 < subCount pkt o → sizeofSrPkt ≤ subLen pkt o → RrInside pkt (o + 28))
  rr : subType pkt o = rtcpRr → 0 < subCount pkt o → RrInside pkt (o + 8)
  sdes : subType pkt o = rtcpSdes → ∀ p b, SdesItem pkt (o + subLen pkt o) (o + 8) 0 p b →
    ItemInside pkt (o + subLen pkt o) p b
  bye : subType pkt o = rtcpBye → 8 < subLen pkt o → o + 8 < pkt.length ∧
    (content pkt (o + 8) = 0 ∨ o + 9 + min sdesBufLen (content pkt (o + 8)) ≤ pkt.length)

/-! ## What the parsers read -/

variable {pkt} {sess : RtcpSession} {o p b e : Nat}

theorem returns_readRr {f : RrReport → Except RtcpFault RtcpSession} (hf : ∀ r, Returns (f r)) :
    Returns (readRr pkt p >>= f) ↔ RrInside pkt p := by
  unfold readRr
  simp only [bind_assoc, yields_byteAt, yields_be32At]
  have hrest : ∀ loss jitter lsr, Returns ((if lsr ≠ 0 then
      (do let dlsr ← be32At .outOfBounds pkt (p + 20); .ok ⟨loss, jitter, lsr, some dlsr⟩)
      else .ok ⟨loss, jitter, lsr, none⟩ : Except RtcpFault RrReport) >>= f) ↔
        (lsr ≠ 0 → p + 24 ≤ pkt.length) := by
    intro loss jitter lsr
    by_cases h : lsr = 0
    · simp only [h, ne_eq, not_true, if_false, false_imp_iff, iff_true]
      exact hf _
    · simp only [h, ne_eq, not_false_iff, if_true, bind_assoc, yields_be32At, true_imp_iff]
      exact ⟨fun hr => hr.1, fun hr => ⟨hr, hf _⟩⟩
  unfold RrInside
  constructor
  · rintro ⟨-, -, -, -, hlsr, hr⟩
    exact ⟨by omega, (hrest _ _ _).mp hr⟩
  · rintro ⟨hin, hdlsr⟩
    exact ⟨by omega, by omega, by omega, by omega, by omega, (hrest _ _ _).mpr hdlsr⟩

theorem returns_storeRr : Returns (storeRr pkt sess (some p)) ↔ RrInside pkt p :=
  returns_readRr fun _ => yields_ok.mpr trivial

theorem returns_storeRr_none : Returns (storeRr pkt sess none) := yields_ok.mpr trivial

/-- A report is read inside if it is a sub-packet whose header is. -/
theorem returns_parseRtcpReport (h : p + 4 ≤ pkt.length) (size : Nat) :
    Returns (parseRtcpReport pkt sess p size) ↔
      (subType pkt p = rtcpSr → p + 16 ≤ pkt.length ∧
        (0 < subCount pkt p → sizeofSrPkt ≤ size → RrInside pkt (p + 28))) ∧
      (subType pkt p = rtcpRr → 0 < subCount pkt p → RrInside pkt (p + 8)) := by
  unfold parseRtcpReport
  rw [returns_iff, yields_byteAt, yields_byteAt]
  have hcount : content pkt p % 32 = subCount pkt p := rfl
  have hin : p < pkt.length ∧ p + 1 < pkt.length := ⟨by omega, by omega⟩
  simp only [hin.1, hin.2, true_and, hcount]
  rw [show content pkt (p + 1) = subType pkt p from rfl]
  by_cases hsr : subType pkt p = rtcpSr
  · have hrr : subType pkt p ≠ rtcpRr := by
      rw [hsr]
      decide
    rw [if_pos hsr, yields_be32At, yields_be32At]
    simp only [hsr, true_imp_iff, sizeofCommon, sizeofSr]
    have hstore : ∀ sess' : RtcpSession, Returns (storeRr pkt sess'
        (if 0 < subCount pkt p ∧ sizeofSrPkt ≤ size then some (p + 8 + 20) else none)) ↔
          (0 < subCount pkt p → sizeofSrPkt ≤ size → RrInside pkt (p + 28)) := by
      intro sess'
      by_cases hc : 0 < subCount pkt p ∧ sizeofSrPkt ≤ size
      · rw [if_pos hc, returns_storeRr]
        simp [hc.1, hc.2]
      · rw [if_neg hc]
        simp only [returns_storeRr_none, true_iff]
        exact fun h1 h2 => absurd ⟨h1, h2⟩ hc
    rw [← returns_iff, hstore]
    have hne : ¬ rtcpSr = rtcpRr := by decide
    simp only [hne, false_imp_iff, and_true]
    constructor
    · rintro ⟨-, h16, hrr⟩
      exact ⟨by omega, hrr⟩
    · rintro ⟨h16, hrr⟩
      exact ⟨by omega, by omega, hrr⟩
  · rw [if_neg hsr]
    by_cases hrr : subType pkt p = rtcpRr ∧ 0 < subCount pkt p
    · rw [if_pos hrr, ← returns_iff, returns_storeRr]
      have hne : ¬ rtcpRr = rtcpSr := by decide
      simp [hne, hrr.1, hrr.2, sizeofCommon]
    · rw [if_neg hrr]
      simp only [yields_ok, hsr, false_imp_iff, true_and, true_iff]
      exact fun h1 h2 => absurd ⟨h1, h2⟩ hrr

/-- There is always room for what is written to the buffer of the values. -/
theorem returns_writeSdesBuf {bytes : List UInt8} (h : b + bytes.length ≤ sdesBufLen) :
    Returns (writeSdesBuf sess b bytes) := by
  unfold writeSdesBuf
  rw [dif_pos h, returns_iff, yields_ok]
  trivial

/-- Where the next item's value goes. -/
def nextB (pkt : List UInt8) (p b : Nat) : Nat :=
  if b + content pkt (p + 1) < sdesBufLen then b + content pkt (p + 1) else b

theorem yields_storeItem (type : Nat) {R : RtcpSession × Nat → Prop} {P : Prop}
    (hR : ∀ sess, R (sess, nextB pkt p b) ↔ P) :
    Yields R (storeItem pkt sess type (p + 2) b (content pkt (p + 1))) ↔
      ValueInside pkt (p + 2) b (content pkt (p + 1)) ∧ P := by
  unfold storeItem ValueInside
  unfold nextB at hR
  by_cases hroom : b + content pkt (p + 1) < sdesBufLen
  · have hfits : ¬ sdesBufLen ≤ b + content pkt (p + 1) := by omega
    simp only [hroom, hfits, if_true, false_and, or_false] at hR ⊢
    rw [yields_bytesAt]
    apply and_congr_right
    intro hin
    have hlen : b + ((pkt.drop (p + 2)).take (content pkt (p + 1))).length ≤ sdesBufLen := by
      rw [List.length_take]
      omega
    have hwrite : Returns (writeSdesBuf sess b ((pkt.drop (p + 2)).take (content pkt (p + 1)))) :=
      returns_writeSdesBuf hlen
    rw [yields_bind_const (P := P)]
    · exact ⟨fun h => h.2, fun h => ⟨hwrite, h⟩⟩
    · intro sess'
      rw [yields_ok, hR]
  · have hfull : sdesBufLen ≤ b + content pkt (p + 1) := by omega
    simp only [hroom, hfull, if_false, true_and] at hR ⊢
    rw [yields_textAt, yields_ok, hR]

/-- The items of a list, from the first one on. -/
theorem forall_sdesItem {e p b : Nat} {P : Nat → Nat → Prop} :
    (∀ p' b', SdesItem pkt e p b p' b' → P p' b') ↔
      (p < e → P p b ∧ (content pkt p ≠ 0 → p + 1 < e → p + 2 + content pkt (p + 1) ≤ e →
        ∀ p' b', SdesItem pkt e (p + 2 + content pkt (p + 1)) (nextB pkt p b) p' b' → P p' b')) := by
  constructor
  · intro h hp
    refine ⟨h p b (.here hp), fun htype hlen hin p' b' hitem => ?_⟩
    exact h p' b' (.behind hp htype hlen hin hitem)
  · rintro h p' b' hitem
    cases hitem with
    | here hp => exact (h hp).1
    | behind hp htype hlen hin hrest => exact (h hp).2 htype hlen hin p' b' hrest

/-- The list of the items is read inside if each of its items is. -/
theorem returns_sdesLoop (turns : Nat) {sess : RtcpSession} {p b e : Nat} (h : e - p < turns) :
    Returns (sdesLoop pkt turns sess p b e) ↔
      ∀ p' b', SdesItem pkt e p b p' b' → ItemInside pkt e p' b' := by
  induction turns generalizing sess p b with
  | zero => omega
  | succ turns ih =>
      rw [forall_sdesItem]
      unfold sdesLoop
      by_cases hp : p < e
      · simp only [hp, if_true, true_imp_iff]
        rw [returns_iff, yields_byteAt]
        unfold ItemInside
        rw [and_assoc]
        apply and_congr_right
        intro _
        by_cases hend : content pkt p = 0 ∨ p + 1 = e
        · rw [if_pos hend, yields_ok]
          simp only [true_iff]
          constructor
          · intro htype hlen
            exact absurd hend (by omega)
          · intro htype hlen
            exact absurd hend (by omega)
        · have htype : content pkt p ≠ 0 := fun h0 => hend (.inl h0)
          have hlen : p + 1 < e := by omega
          rw [if_neg hend, yields_byteAt]
          simp only [htype, hlen, ne_eq, not_false_iff, true_imp_iff, and_assoc]
          apply and_congr_right
          intro _
          by_cases hin : p + 2 + content pkt (p + 1) ≤ e
          · have hrest := fun sess' : RtcpSession =>
              @ih sess' (p + 2 + content pkt (p + 1)) (nextB pkt p b) (by omega)
            rw [if_neg (by omega), yields_bind, yields_storeItem _ hrest]
            simp only [hin, true_imp_iff]
            exact Iff.rfl
          · rw [if_pos (by omega), yields_ok]
            simp [hin]
      · rw [if_neg hp]
        simp [hp]

theorem returns_parseRtcpSdes {size : Nat} (h : 0 < size) :
    Returns (parseRtcpSdes pkt sess p size) ↔
      ∀ p' b', SdesItem pkt (p + size) (p + 8) 0 p' b' → ItemInside pkt (p + size) p' b' :=
  returns_sdesLoop size (by omega)

theorem returns_parseRtcpBye (size : Nat) : Returns (parseRtcpBye pkt sess p size) ↔
    (8 < size → p + 8 < pkt.length ∧ (content pkt (p + 8) = 0 ∨
      p + 9 + min sdesBufLen (content pkt (p + 8)) ≤ pkt.length)) := by
  unfold parseRtcpBye
  by_cases hsize : size > 8
  · have hzero : min sdesBufLen (content pkt (p + 8)) = 0 ↔ content pkt (p + 8) = 0 := by
      unfold sdesBufLen
      omega
    have hwrite : Returns (writeSdesBuf sess 0
        ((pkt.drop (p + 9)).take (min sdesBufLen (content pkt (p + 8))))) :=
      returns_writeSdesBuf (by rw [List.length_take]; omega)
    rw [if_pos hsize, returns_iff, yields_byteAt, yields_bytesAt, hzero]
    simp only [show 8 < size from hsize, true_imp_iff]
    apply and_congr_right
    intro _
    exact ⟨fun h => h.1, fun h => ⟨h, hwrite⟩⟩
  · rw [if_neg hsize]
    simp [show ¬ 8 < size from hsize]

/-! ## Whole packets -/

theorem returns_parseSubPacket (h : p + 4 ≤ pkt.length) :
    Returns (parseSubPacket pkt sess p (subType pkt p) (subLen pkt p)) ↔ SubInside pkt p := by
  have hpos : 0 < subLen pkt p := by
    unfold subLen
    omega
  unfold parseSubPacket
  by_cases hreport : subType pkt p = rtcpSr ∨ subType pkt p = rtcpRr ∨ subType pkt p = rtcpXr
  · have hsdes : subType pkt p ≠ rtcpSdes := by
      rcases hreport with h | h | h <;> rw [h] <;> decide
    have hbye : subType pkt p ≠ rtcpBye := by
      rcases hreport with h | h | h <;> rw [h] <;> decide
    rw [if_pos hreport, returns_parseRtcpReport h]
    constructor
    · rintro ⟨hsr, hrr⟩
      exact ⟨h, hsr, hrr, fun hc => absurd hc hsdes, fun hc => absurd hc hbye⟩
    · intro hin
      exact ⟨hin.sr, hin.rr⟩
  · simp only [not_or] at hreport
    rw [if_neg (by tauto)]
    by_cases hsdes : subType pkt p = rtcpSdes
    · have hbye : subType pkt p ≠ rtcpBye := by
        rw [hsdes]
        decide
      rw [if_pos hsdes, returns_parseRtcpSdes hpos]
      constructor
      · intro hitems
        exact ⟨h, fun hc => absurd hc hreport.1, fun hc => absurd hc hreport.2.1, fun _ => hitems,
          fun hc => absurd hc hbye⟩
      · intro hin
        exact hin.sdes hsdes
    · rw [if_neg hsdes]
      by_cases hbye : subType pkt p = rtcpBye
      · rw [if_pos hbye, returns_parseRtcpBye]
        constructor
        · intro hreason
          exact ⟨h, fun hc => absurd hc hreport.1, fun hc => absurd hc hreport.2.1,
            fun hc => absurd hc hsdes, fun _ => hreason⟩
        · intro hin
          exact hin.bye hbye
      · rw [if_neg hbye, returns_iff, yields_ok]
        simp only [true_iff]
        exact ⟨h, fun hc => absurd hc hreport.1, fun hc => absurd hc hreport.2.1,
          fun hc => absurd hc hsdes, fun hc => absurd hc hbye⟩

/-- The sub-packets, from the first one on. -/
theorem forall_subPacket {P : Nat → Prop} : (∀ o', SubPacket pkt o o' → P o') ↔
    (o < pkt.length → P o ∧ ∀ o', SubPacket pkt (o + subLen pkt o) o' → P o') := by
  constructor
  · intro h ho
    exact ⟨h o (.here ho), fun o' hsub => h o' (.behind ho hsub)⟩
  · intro h o' hsub
    cases hsub with
    | here ho => exact (h ho).1
    | behind ho hrest => exact (h ho).2 o' hrest

theorem returns_rxLoop (turns : Nat) {sess : RtcpSession} {o : Nat} (h : pkt.length - o < turns) :
    Returns (rxLoop pkt turns sess o) ↔ ∀ o', SubPacket pkt o o' → SubInside pkt o' := by
  induction turns generalizing sess o with
  | zero => omega
  | succ turns ih =>
      rw [forall_subPacket]
      unfold rxLoop
      by_cases ho : o < pkt.length
      · simp only [ho, if_true, true_imp_iff]
        rw [returns_iff, yields_be16At, yields_byteAt]
        have hlen : (content16 pkt (o + 2) + 1) * 4 = subLen pkt o := rfl
        have htype : content pkt (o + 1) = subType pkt o := rfl
        have hpos : 0 < subLen pkt o := by
          unfold subLen
          omega
        rw [hlen, htype, yields_bind_const fun sess' => ih (by omega)]
        constructor
        · rintro ⟨h4, -, hsub, hrest⟩
          exact ⟨(returns_parseSubPacket h4).mp hsub, hrest⟩
        · rintro ⟨hin, hrest⟩
          have h4 := hin.header
          exact ⟨h4, by omega, (returns_parseSubPacket h4).mpr hin, hrest⟩
      · rw [if_neg ho]
        simp [ho]

/-- **When a received packet is parsed inside its bytes.** -/
theorem rxRtcp_iff (pkt : List UInt8) (sess : RtcpSession) :
    (∃ sess', rxRtcp pkt sess = .ok sess') ↔ ∀ o, SubPacket pkt 0 o → SubInside pkt o := by
  have hloop : Returns (rxLoop pkt (pkt.length + 1) sess 0) ↔
      ∀ o, SubPacket pkt 0 o → SubInside pkt o := returns_rxLoop (pkt.length + 1) (by omega)
  rw [← hloop]
  constructor
  · rintro ⟨sess', h⟩
    exact ⟨sess', h, trivial⟩
  · rintro ⟨sess', h, -⟩
    exact ⟨sess', h⟩

/-- A session that has received nothing. -/
def freshSession : RtcpSession := ⟨0, none, .zero, ⟨List.replicate 64 0, by decide⟩⟩

/-- A receiver report of eight bytes that claims to have a block. -/
theorem shortReport_outside : ¬ ∃ sess', rxRtcp [129, 201, 0, 1, 0, 0, 0, 0] freshSession = .ok sess' := by
  rintro ⟨sess', h⟩
  have hfault : rxRtcp [129, 201, 0, 1, 0, 0, 0, 0] freshSession = .error .outOfBounds := by decide
  rw [hfault] at h
  cases h

end Rtp
