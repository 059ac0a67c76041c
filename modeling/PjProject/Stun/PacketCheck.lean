import PjProject.Stun.DecodeBounds
import PjProject.Stun.EncodeShape

set_option autoImplicit false

/-! # The check of our own packets

`pj_stun_msg_check` of what `pj_stun_msg_encode` has written. The check knows the length of the
message but not where its attributes are: it takes the eight bytes at the end for a FINGERPRINT if
they begin with its type. With FINGERPRINT the encoder puts it there (`Written.sum`), and then the
check finds any change of what the sum is over, unless the magic or the type of the FINGERPRINT is
gone too (`check_altered`). Without FINGERPRINT the eight bytes are the end of a value, or, behind
an empty body, a part of the header.
-/

namespace Stun

open Wire

/-- `PJ_STUN_IS_DATAGRAM` alone. -/
def isDatagram : DecodeOptions := ⟨false, true, false⟩

/-- The message has a FINGERPRINT. -/
def Msg.HasFingerprint (msg : Msg) : Prop := ∃ a ∈ msg.attrs, a.type = attrFingerprint

/-- Bytes in front of the value of FINGERPRINT have been changed. -/
structure Altered (bytes altered : List UInt8) : Prop where
  length : altered.length = bytes.length
  value : altered.drop (bytes.length - 4) = bytes.drop (bytes.length - 4)

/-- What the fingerprint is over. -/
def covered (bytes : List UInt8) : List UInt8 := bytes.take (bytes.length - 8)

variable {env : MsgEnv} {msg msg' : Msg} {buf bytes : List UInt8} {options : Nat}
  {key : Option (List UInt8)}

/-- A FINGERPRINT of the message is in the last of its parts. -/
theorem Parts.Of.hasFingerprint {p : Parts} (h : p.Of msg.attrs) (hf : msg.HasFingerprint) :
    p.fingerprint ≠ [] := by
  obtain ⟨a, ha, ht⟩ := hf
  have hsum : a.isSum = true := isSum_iff.mpr (.inr ht)
  rw [h.attrs, List.mem_append, List.mem_append, List.mem_append] at ha
  rcases ha with ha | ha | ha | ha
  · rw [h.plain a ha] at hsum
    cases hsum
  · rcases h.msgint with ⟨hnil, -⟩ | ⟨m, hm, hmt⟩
    · rw [hnil] at ha
      cases ha
    · rw [hm, List.mem_singleton] at ha
      rw [ha, hmt] at ht
      exact absurd ht (by decide)
  · rw [h.dropped a ha] at hsum
    cases hsum
  · exact List.ne_nil_of_mem ha

/-- The bytes of a message with FINGERPRINT: what the sum is over, and the attribute. -/
theorem bytes_fingerprint (h : stunMsgEncode env msg buf options key = .ok (bytes, msg'))
    (hf : msg.HasFingerprint) :
    ∃ length front, bytes = written msg.hdr length (front ++ fingerprintBytes
        (some (env.crc32 (written msg.hdr length front) ^^^ stunXorFingerprint))) ∧
      covered bytes = written msg.hdr length front := by
  obtain ⟨p, length, body, hp, rfl, hw⟩ := stunMsgEncode_parts h
  obtain ⟨front, rfl⟩ := hw.sum (hp.hasFingerprint hf)
  refine ⟨length, front, rfl, ?_⟩
  rw [covered, written_append, List.length_append]
  exact List.take_left' rfl

/-- Without the magic nothing is looked for at the end. -/
theorem stunMsgCheck_noMagic {hdr : MsgHdr} {length : UInt16} {body : List UInt8}
    (hmagic : hdr.magic ≠ stunMagic) (htype : hdr.type < 0x200)
    (hlen : length.toNat = body.length) (hmod : body.length % 4 = 0) :
    stunMsgCheck env (written hdr length body) isDatagram = .ok () := by
  have htype : hdr.type.toNat < 512 := UInt16.lt_iff_toNat_lt.mp htype
  have hfirst : ¬ (UInt8.ofNat (hdr.type.toNat / 256) ≠ 0 ∧
      UInt8.ofNat (hdr.type.toNat / 256) ≠ 1) := by
    rcases (show hdr.type.toNat / 256 = 0 ∨ hdr.type.toNat / 256 = 1 by omega) with h | h <;>
      simp [h]
  show stunMsgCheckIn env (written hdr length body) (written hdr length body).length isDatagram = _
  rw [stunMsgCheckIn_eq env rfl (read_length _ _ _) (read_magic _ _ _), length_written,
    if_neg (by omega), if_neg hfirst, if_neg (by rw [hlen]; omega), if_neg (by omega),
    if_neg (fun h => hmagic h.1)]

/-- The first byte of a packet is that of the type. -/
theorem type_lt_of_first {hdr : MsgHdr} {length : UInt16} {body : List UInt8}
    (h : (written hdr length body)[0]? = some 0 ∨ (written hdr length body)[0]? = some 1) :
    hdr.type < 0x200 := by
  have hfirst : (written hdr length body)[0]? = some (UInt8.ofNat (hdr.type.toNat / 256)) := rfl
  rw [hfirst, Option.some.injEq, Option.some.injEq] at h
  have htype := hdr.type.toNat_lt
  rw [UInt16.lt_iff_toNat_lt]
  show hdr.type.toNat < 512
  rcases h with h | h
  · have := congrArg UInt8.toNat h
    rw [UInt8.toNat_ofNat'] at this
    change _ = 0 at this
    omega
  · have := congrArg UInt8.toNat h
    rw [UInt8.toNat_ofNat'] at this
    change _ = 1 at this
    omega

/-- **Our own packets.** The check accepts what the encoder has written, if the length fits the
header, and the end of the packet is a FINGERPRINT or is not taken for one. -/
theorem check_own (h : stunMsgEncode env msg buf options key = .ok (bytes, msg'))
    (hfirst : bytes[0]? = some 0 ∨ bytes[0]? = some 1) (hlen : bytes.length < 65556)
    (hend : msg.hdr.magic ≠ stunMagic ∨ msg.HasFingerprint ∨
      read16 bytes (bytes.length - 8) ≠ some attrFingerprint) :
    stunMsgCheck env bytes isDatagram = .ok () := by
  obtain ⟨p, length, body, hp, rfl, hw⟩ := stunMsgEncode_parts h
  have htype := type_lt_of_first hfirst
  rw [length_written] at hlen hend
  have hl : length.toNat = body.length := by
    rw [hw.length_eq]
    omega
  have hmod := hw.emits.length_mod
  by_cases hmagic : msg.hdr.magic = stunMagic
  · refine stunMsgCheck_written htype hl hmod fun _ => ?_
    rcases hend with hno | hf | hother
    · exact absurd hmagic hno
    · obtain ⟨front, rfl⟩ := hw.sum (hp.hasFingerprint hf)
      exact checkFingerprint_written rfl
    · exact checkFingerprint_other (by rw [length_written]; omega) hother
  · exact stunMsgCheck_noMagic hmagic htype hl hmod

/-- The value of the FINGERPRINT, which is left as it was, stands at the end. -/
theorem Altered.read32_value {front altered : List UInt8} {v : UInt32}
    (h : Altered (front ++ fingerprintBytes (some v)) altered) :
    read32 altered (front.length + 4) = some v := by
  have hlen : (front ++ fingerprintBytes (some v)).length - 4 = front.length + 4 := by
    rw [List.length_append]
    rfl
  have hdrop : altered.drop (front.length + 4) = put32 v := by
    rw [← hlen, h.value, hlen, List.drop_append, List.drop_of_length_le (by omega),
      Nat.add_sub_cancel_left]
    rfl
  unfold read32
  rw [hdrop]
  show some (get32 _ _ _ _) = _
  rw [get32_put32]

theorem xor_right_cancel {a b x : UInt32} (h : a ^^^ x = b ^^^ x) : a = b := by
  have hx := congrArg (· ^^^ x) h
  simpa [UInt32.xor_assoc] using hx

/-- **Packets with an error.** The check refuses a packet of ours with FINGERPRINT when the bytes
that the sum is over have been changed, so that the sum is another: the magic and the type of the
FINGERPRINT have to be there still for a FINGERPRINT to be looked for. -/
theorem check_altered (h : stunMsgEncode env msg buf options key = .ok (bytes, msg'))
    (hf : msg.HasFingerprint) {altered : List UInt8} (ha : Altered bytes altered)
    (hmagic : read32 altered 4 = some stunMagic)
    (htype : read16 altered (bytes.length - 8) = some attrFingerprint)
    (hcrc : env.crc32 (covered altered) ≠ env.crc32 (covered bytes)) :
    stunMsgCheck env altered isDatagram ≠ .ok () := by
  obtain ⟨length, front, hbytes, hcov⟩ := bytes_fingerprint h hf
  rw [written_append] at hbytes
  generalize written msg.hdr length front = head at hbytes hcov
  have hlen : bytes.length = head.length + 8 := by
    rw [hbytes, List.length_append]
    rfl
  have halen := ha.length
  have hval := (hbytes ▸ ha).read32_value
  obtain ⟨first, h0⟩ : ∃ first, altered[0]? = some first :=
    ⟨_, List.getElem?_eq_getElem (by omega)⟩
  obtain ⟨len, h2⟩ := read16_of_le (show 2 + 2 ≤ altered.length by omega)
  show stunMsgCheckIn env altered altered.length isDatagram ≠ .ok ()
  rw [stunMsgCheckIn_eq env h0 h2 hmagic]
  split_ifs with _ _ hl _ hno
  all_goals try simp
  · -- The length is that of the packet, so the FINGERPRINT is where it was.
    have hpos : len.toNat + 12 = head.length := by
      simp only [isDatagram, true_and, not_or, not_lt, not_not] at hl
      omega
    obtain ⟨l, hattr⟩ := read16_of_le (show len.toNat + 14 + 2 ≤ altered.length by omega)
    rw [checkFingerprint_eq env (t := attrFingerprint) (by rw [hpos, ← htype, hlen]; rfl) hattr
      (by rw [show len.toNat + 16 = head.length + 4 by omega]; exact hval)]
    rw [if_neg (not_not.mpr rfl)]
    split_ifs with hfour hsum
    · simp
    · simp
    · refine absurd (xor_right_cancel (not_not.mp hsum)) ?_
      rw [hcov, covered, halen, hlen, Nat.add_sub_cancel, ← hpos] at hcrc
      exact hcrc
  · exact absurd ⟨rfl, rfl⟩ hno

/-- **The check of the packets that the encoder writes.** -/
theorem packetCheck_own (h : stunMsgEncode env msg buf options key = .ok (bytes, msg')) :
    ((bytes[0]? = some 0 ∨ bytes[0]? = some 1) → bytes.length < 65556 →
      (msg.hdr.magic ≠ stunMagic ∨ msg.HasFingerprint ∨
        read16 bytes (bytes.length - 8) ≠ some attrFingerprint) →
      stunMsgCheck env bytes isDatagram = .ok ()) ∧
    (msg.HasFingerprint → ∀ altered, Altered bytes altered →
      read32 altered 4 = some stunMagic →
      read16 altered (bytes.length - 8) = some attrFingerprint →
      env.crc32 (covered altered) ≠ env.crc32 (covered bytes) →
      stunMsgCheck env altered isDatagram ≠ .ok ()) :=
  ⟨check_own h, fun hf _ => check_altered h hf⟩

/-! ## Examples -/

/-- `pj_crc32_update`, without the table: eight shifts of an octet. -/
def crc32Shift (temp : UInt32) : UInt32 :=
  if temp &&& 1 = 1 then (temp >>> 1) ^^^ 0xEDB88320 else temp >>> 1

/-- An octet is added. -/
def crc32Octet (crc : UInt32) (octet : UInt8) : UInt32 :=
  (crc >>> 8) ^^^ crc32Shift^[8] ((crc &&& 0xFF) ^^^ octet.toUInt32)

/-- `pj_crc32_calc`. -/
def crc32Calc (data : List UInt8) : UInt32 := data.foldl crc32Octet 0xFFFFFFFF ^^^ 0xFFFFFFFF

/-- The fingerprint of the source. -/
def crcSums : MsgEnv := { lengthSums with crc32 := crc32Calc }

/-- A message with nothing but FINGERPRINT. -/
def fingerprintMsg : Msg :=
  ⟨⟨1, 0, stunMagic, zeroBytes 12⟩, [uintAttrCreate attrFingerprint 0]⟩

/-- What is written of it. -/
def fingerprintPdu : List UInt8 :=
  [0, 1, 0, 8, 0x21, 0x12, 0xA4, 0x42, 0, 0, 0, 0, 0, 0, 0, 0, 0, 0, 0, 0, 0x80, 0x28, 0, 4] ++
    put32 (crc32Calc [0, 1, 0, 8, 0x21, 0x12, 0xA4, 0x42, 0, 0, 0, 0, 0, 0, 0, 0, 0, 0, 0, 0] ^^^
      stunXorFingerprint)

example : crc32Calc [49, 50, 51, 52, 53, 54, 55, 56, 57] = 0xCBF43926 := by decide

theorem packetCheck_own_fingerprint :
    stunMsgCheck crcSums fingerprintPdu isDatagram = .ok () ∧
      stunMsgCheck crcSums (fingerprintPdu.set 8 1) isDatagram ≠ .ok () := by
  have henc : ∃ msg', stunMsgEncode crcSums fingerprintMsg (List.replicate 28 0) 0 none =
      .ok (fingerprintPdu, msg') := ⟨_, rfl⟩
  obtain ⟨msg', henc⟩ := henc
  have hf : fingerprintMsg.HasFingerprint := ⟨_, List.mem_singleton.mpr rfl, rfl⟩
  exact ⟨(packetCheck_own henc).1 (.inl rfl) (by decide +kernel) (.inr (.inl hf)),
    (packetCheck_own henc).2 hf _ ⟨by decide +kernel, by decide +kernel⟩ (by decide +kernel)
      (by decide +kernel) (by decide +kernel)⟩

/-- A message without attributes, whose transaction has the type of FINGERPRINT in its middle. -/
def unluckyMsg : Msg :=
  ⟨⟨1, 0, stunMagic, ⟨[0, 0, 0, 0, 0x80, 0x28, 0, 0, 0, 0, 0, 0], rfl⟩⟩, []⟩

/-- A message with DATA of 65532 bytes: with its header it does not fit the 16-bit length. -/
def longMsg (data : List UInt8) : Msg :=
  ⟨⟨1, 0, stunMagic, zeroBytes 12⟩, [⟨0x0013, 65532, .binary data⟩]⟩

/-- The check refuses it: the length in its header is 0. -/
theorem longMsg_refused {data buf : List UInt8} (hdata : data.length = 65532)
    (hbuf : buf.length = 65556) :
    ∃ bytes msg', stunMsgEncode lengthSums (longMsg data) buf 0 none = .ok (bytes, msg') ∧
      bytes[0]? = some 0 ∧ bytes.length = 65556 ∧
      stunMsgCheck lengthSums bytes isDatagram = .error .einstunmsglen := by
  have hpad : pad4 (data.length + 4) = 65536 ∧ pad4 data.length - data.length = 0 := by
    rw [hdata]
    decide
  have hfirst : UInt8.ofNat ((longMsg data).hdr.type.toNat / 256) = 0 := by
    show UInt8.ofNat ((1 : UInt16).toNat / 256) = 0
    decide
  let body := put16 0x0013 ++ (put16 (UInt16.ofNat data.length) ++ data)
  have hbody : body.length = 65536 := by
    simp [body, put16, hdata]
  have hattr : encodeAttr lengthSums (longMsg data).hdr ⟨0x0013, 65532, .binary data⟩
      (buf.drop 20) = .ok body := by
    show encodeBinaryAttr 0x0013 data (buf.drop 20) = _
    rw [encodeBinaryAttr, if_neg (by rw [hpad.1, List.length_drop]; omega), hpad.2]
    simp [kept, body]
  have hattrs : encodeAttrs lengthSums (longMsg data).hdr (longMsg data).attrs (buf.drop 20) =
      .ok (body, 1) := by
    show (encodeAttr lengthSums (longMsg data).hdr ⟨0x0013, 65532, .binary data⟩ (buf.drop 20) >>=
      fun bytes => _) = _
    rw [hattr]
    show (if (buf.drop 20).length < body.length then _ else _) = _
    rw [if_neg (by rw [List.length_drop]; omega)]
    show Except.ok (body ++ [], 1) = _
    rw [List.append_nil]
  have hlen : (written (longMsg data).hdr (UInt16.ofNat (body.length + 0)) body).length = 65556 := by
    rw [length_written, hbody]
  refine ⟨written (longMsg data).hdr (UInt16.ofNat (body.length + 0)) body,
    ⟨{ (longMsg data).hdr with length := UInt16.ofNat body.length }, (longMsg data).attrs⟩, ?_, ?_, hlen, ?_⟩
  · unfold stunMsgEncode
    rw [if_neg (by omega), if_neg (by omega), if_neg (by omega)]
    dsimp only
    rw [hattrs]
    rfl
  · exact congrArg some hfirst
  · rw [stunMsgCheck, stunMsgCheckIn_eq lengthSums rfl (read_length _ _ _) (read_magic _ _ _), hlen,
      hbody, if_neg (by omega), if_neg (fun h => h.1 hfirst)]
    exact if_pos (.inr ⟨rfl, by decide⟩)

/-- **Packets of ours that are refused, and changes that are not found.** The check takes the end of
the header of a message without attributes for a FINGERPRINT, and the length of a long message is not
what its header says; and it looks for none when a bit of the magic, or of the type of the
FINGERPRINT and another bit, has been changed. -/
theorem packetCheck_fails :
    (∃ bytes msg', stunMsgEncode lengthSums unluckyMsg (List.replicate 20 0) 0 none =
        .ok (bytes, msg') ∧ bytes[0]? = some 0 ∧
      stunMsgCheck lengthSums bytes isDatagram = .error .estuninattrlen) ∧
    (∃ bytes msg', stunMsgEncode lengthSums (longMsg (List.replicate 65532 0))
        (List.replicate 65556 0) 0 none = .ok (bytes, msg') ∧ bytes[0]? = some 0 ∧
      bytes.length = 65556 ∧ stunMsgCheck lengthSums bytes isDatagram = .error .einstunmsglen) ∧
    (∃ msg', stunMsgEncode crcSums fingerprintMsg (List.replicate 28 0) 0 none =
        .ok (fingerprintPdu, msg')) ∧
    (Altered fingerprintPdu (fingerprintPdu.set 4 0x20) ∧
      crc32Calc (covered (fingerprintPdu.set 4 0x20)) ≠ crc32Calc (covered fingerprintPdu) ∧
      stunMsgCheck crcSums (fingerprintPdu.set 4 0x20) isDatagram = .ok ()) ∧
    Altered fingerprintPdu ((fingerprintPdu.set 8 1).set 21 0x29) ∧
      crc32Calc (covered ((fingerprintPdu.set 8 1).set 21 0x29)) ≠
        crc32Calc (covered fingerprintPdu) ∧
      stunMsgCheck crcSums ((fingerprintPdu.set 8 1).set 21 0x29) isDatagram = .ok () :=
  ⟨⟨_, _, rfl, rfl, rfl⟩, longMsg_refused List.length_replicate List.length_replicate, ⟨_, rfl⟩,
    ⟨⟨by decide +kernel, by decide +kernel⟩, by decide +kernel, rfl⟩,
    ⟨by decide +kernel, by decide +kernel⟩, by decide +kernel, rfl⟩

end Stun
