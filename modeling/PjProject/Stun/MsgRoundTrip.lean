import PjProject.Stun.AttrCodec

set_option autoImplicit false

/-! # Encoding and decoding a STUN message

`stun_round_trip`: a message whose attributes come from the creation functions, followed by
MESSAGE-INTEGRITY and FINGERPRINT or not, is decoded from what it is encoded to. The loops of the
encoder and the decoder go over the same wire forms (`CodedList`). The decoder refuses attributes
that it does not know and that are mandatory, which the encoder does not do
(`mandatory_not_decoded`).
-/

namespace Stun

open Wire

variable {env : MsgEnv} {msghdr : MsgHdr} {a : Attr} {bytes rest buf : List UInt8}

/-! ## The loops -/

/-- The bytes are the wire forms of the attributes one after the other. -/
inductive CodedList (msghdr : MsgHdr) : List Attr → List UInt8 → Prop where
  | nil : CodedList msghdr [] []
  | cons {a : Attr} {bytes : List UInt8} {attrs : List Attr} {body : List UInt8}
      (h : Coded msghdr a bytes) (hl : CodedList msghdr attrs body) :
      CodedList msghdr (a :: attrs) (bytes ++ body)

theorem CodedList.append {attrs attrs' : List Attr} {body body' : List UInt8}
    (h : CodedList msghdr attrs body) (h' : CodedList msghdr attrs' body') :
    CodedList msghdr (attrs ++ attrs') (body ++ body') := by
  induction h with
  | nil => exact h'
  | cons hc _ ih =>
      rw [List.append_assoc]
      exact .cons hc ih

/-- The length of the attributes on the wire. -/
def wireLenAll (attrs : List Attr) : Nat := (attrs.map Attr.wireLen).sum

theorem wireLenAll_cons (a : Attr) (attrs : List Attr) :
    wireLenAll (a :: attrs) = a.wireLen + wireLenAll attrs := rfl

theorem wireLenAll_append (attrs attrs' : List Attr) :
    wireLenAll (attrs ++ attrs') = wireLenAll attrs + wireLenAll attrs' := by
  unfold wireLenAll
  rw [List.map_append, List.sum_append]

theorem wireLenAll_mod : ∀ attrs : List Attr, wireLenAll attrs % 4 = 0
  | [] => rfl
  | a :: attrs => by
      have ih := wireLenAll_mod attrs
      have ha := pad4_mod a.value.size
      rw [wireLenAll_cons]
      unfold Attr.wireLen
      omega

theorem size_lt_wireLen (a : Attr) : a.value.size < a.wireLen := by
  have hle := le_pad4 a.value.size
  unfold Attr.wireLen
  omega

/-- The loop of the encoder over legal attributes, up to the sums. -/
theorem encodeAttrs_coded (env : MsgEnv) (hm : msghdr.magic = stunMagic) {sums : List Attr}
    (hsums : ∀ a, sums.head? = some a → a.isSum = true) :
    ∀ (plain : List Attr) (buf : List UInt8), (∀ a ∈ plain, Legal a) →
      wireLenAll plain < 65536 → wireLenAll plain ≤ buf.length →
      ∃ body, encodeAttrs env msghdr (plain ++ sums) buf = .ok (body, plain.length) ∧
        body.length = wireLenAll plain ∧ CodedList msghdr plain body
  | [], buf, _, _, _ => by
      refine ⟨[], ?_, rfl, .nil⟩
      cases sums with
      | nil => rfl
      | cons a sums =>
          show (if a.isSum then _ else _) = _
          rw [if_pos (hsums a rfl)]
          rfl
  | a :: plain, buf, hlegal, hlen, hbuf => by
      rw [wireLenAll_cons] at hlen hbuf
      have ha : Legal a := hlegal a List.mem_cons_self
      have hsize : a.value.size < 65536 := by
        have := size_lt_wireLen a
        omega
      rcases ha.encodes hm hsize (show a.wireLen ≤ buf.length by omega) with
        ⟨bytes, henc, hbytes, hcoded⟩
      rcases encodeAttrs_coded env hm hsums plain (buf.drop bytes.length)
        (fun b hb => hlegal b (List.mem_cons_of_mem a hb)) (by omega)
        (by rw [List.length_drop]; omega) with ⟨body, hrest, hbody, hlist⟩
      refine ⟨bytes ++ body, ?_, ?_, .cons hcoded hlist⟩
      · show (if a.isSum then _ else _) = _
        rw [if_neg (by rw [ha.not_sum]; exact Bool.false_ne_true), henc]
        show (if buf.length < bytes.length then Except.error MsgStatus.overrun else
          encodeAttrs env msghdr (plain ++ sums) (buf.drop bytes.length) >>= fun r =>
            .ok (bytes ++ r.1, r.2 + 1)) = _
        rw [if_neg (by omega), hrest]
        rfl
      · rw [List.length_append, hbytes, hbody, wireLenAll_cons]

/-- The attributes are in the order that the decoder accepts. -/
def inOrder : Bool → Bool → List Attr → Bool
  | _, _, [] => true
  | hasMsgInt, hasFingerprint, a :: attrs =>
      !hasFingerprint &&
        if a.type = attrMessageIntegrity then !hasMsgInt && inOrder true false attrs
        else inOrder hasMsgInt (a.type == attrFingerprint) attrs

theorem inOrder_plain {sums : List Attr} (hs : inOrder false false sums = true) :
    ∀ plain : List Attr, (∀ a ∈ plain, a.isSum = false) →
      inOrder false false (plain ++ sums) = true
  | [], _ => hs
  | a :: plain, h => by
      have ha := h a List.mem_cons_self
      unfold Attr.isSum at ha
      rw [Bool.or_eq_false_iff, beq_eq_false_iff_ne] at ha
      show (!false && if a.type = attrMessageIntegrity then _ else
        inOrder false (a.type == attrFingerprint) (plain ++ sums)) = true
      rw [if_neg ha.1, ha.2]
      exact inOrder_plain hs plain fun b hb => h b (List.mem_cons_of_mem a hb)

/-- After the attribute `a`. -/
def Decoding.took (d : Decoding) (a : Attr) (bytes rest : List UInt8) : Decoding :=
  { d with
    attrs := d.attrs ++ [a]
    pdu := rest
    pduLen := d.pduLen - bytes.length
    pos := d.pos + bytes.length }

theorem next_coded (hc : Coded msghdr a bytes) {d : Decoding} (hpdu : d.pdu = bytes ++ rest)
    (hlen : bytes.length ≤ d.pduLen) :
    d.next a (pad4 a.length.toNat) = d.took a bytes rest := by
  rcases hc.payload with ⟨payload, hb, hp⟩
  have hbytes : bytes.length = pad4 a.length.toNat + 4 := by rw [hb, length_wire, hp]
  have hn : (if d.pduLen ≤ pad4 a.length.toNat + 4 then d.pduLen else pad4 a.length.toNat + 4) =
      bytes.length := by
    split
    · omega
    · omega
  have hdrop : d.pdu.drop bytes.length = rest := by
    rw [hpdu]
    exact List.drop_left' rfl
  unfold Decoding.next Decoding.took
  dsimp only
  rw [hn, hdrop]

/-- One turn of the loop of the decoder. -/
theorem decodeStep_coded (hc : Coded msghdr a bytes) {d : Decoding} (d' : Decoding)
    (hpdu : d.pdu = bytes ++ rest)
    (hlen : bytes.length ≤ d.pduLen) (hmax : d.attrs.length < stunMaxAttr)
    (ho : d.checkOrder a.type = .ok d') (hn : findAttrDesc a.type = none → d' = d)
    (hsame : d'.pdu = d.pdu ∧ d'.pduLen = d.pduLen ∧ d'.attrs = d.attrs) :
    decodeStep msghdr d = .ok (d'.took a bytes rest) := by
  rcases hc.payload with ⟨payload, hb, hp⟩
  have hhdr : getattrhdr d.pdu = .ok (a.type, a.length) := by
    rw [hpdu, hb, wire_append]
    exact getattrhdr_wire _ _ _
  have hfits : ¬ d.pduLen < pad4 a.length.toNat := by
    rw [hb, length_wire, hp] at hlen
    omega
  have hd := hc.decodes rest
  rw [← hpdu] at hd
  unfold Decodes at hd
  unfold decodeStep
  rw [hhdr]
  show (if d.pduLen < pad4 a.length.toNat then _ else _) = _
  rw [if_neg hfits]
  dsimp only
  cases hf : findAttrDesc a.type with
  | none =>
      rw [hf] at hd
      unfold decodeBinaryAttr at hd
      rw [hhdr] at hd
      rcases hd with ⟨hbig, hd⟩
      rw [hn hf]
      dsimp only
      rw [if_neg hbig, if_neg (Nat.not_le.mpr hmax)]
      have hd : inBuf (readBytes d.pdu 4 a.length.toNat) >>= (fun data =>
          .ok (⟨a.type, a.length, .binary data.val⟩ : Attr)) = .ok a := hd
      cases hr : readBytes d.pdu 4 a.length.toNat with
      | none =>
          rw [hr] at hd
          cases hd
      | some data =>
          rw [hr] at hd
          have hd : (⟨a.type, a.length, .binary data.val⟩ : Attr) = a := Except.ok.inj hd
          show Except.ok (d.next ⟨a.type, a.length, .binary data.val⟩ (pad4 a.length.toNat)) = _
          rw [hd, next_coded hc hpdu hlen]
  | some desc =>
      rw [hf] at hd
      dsimp only at hd ⊢
      rw [hd]
      show (d.checkOrder a.type >>= fun d => _) = _
      rw [ho]
      show (if stunMaxAttr ≤ d'.attrs.length then _ else
        Except.ok (d'.next a (pad4 a.length.toNat))) = _
      rw [if_neg (by rw [hsame.2.2]; exact Nat.not_le.mpr hmax),
        next_coded hc (by rw [hsame.1, hpdu]) (by rw [hsame.2.1]; exact hlen)]

theorem decodeLoop_zero {fuel : Nat} {d : Decoding} (h : d.pduLen < 4) :
    decodeLoop msghdr fuel d = .ok d := by
  cases fuel with
  | zero | succ =>
      unfold decodeLoop
      rw [if_pos h]

theorem decodeLoop_succ {fuel : Nat} {d d' : Decoding} (h : ¬ d.pduLen < 4)
    (hs : decodeStep msghdr d = .ok d') :
    decodeLoop msghdr (fuel + 1) d = decodeLoop msghdr fuel d' := by
  rw [decodeLoop, if_neg h, hs]
  rfl

/-- The loop of the decoder over the wire forms of attributes in order. -/
theorem decodeLoop_coded : ∀ {attrs : List Attr} {body : List UInt8},
    CodedList msghdr attrs body → ∀ (fuel : Nat) (d : Decoding), d.pdu = body →
      d.pduLen = body.length → body.length ≤ fuel → d.attrs.length + attrs.length ≤ stunMaxAttr →
      inOrder d.hasMsgInt d.hasFingerprint attrs = true →
      ∃ d', decodeLoop msghdr fuel d = .ok d' ∧ d'.attrs = d.attrs ++ attrs ∧ d'.pduLen = 0 ∧
        d'.pos = d.pos + body.length := by
  intro attrs body hl
  induction hl with
  | nil =>
      intro fuel d _ hlen _ _ _
      have h0 : d.pduLen = 0 := hlen
      exact ⟨d, decodeLoop_zero (by rw [h0]; decide), (List.append_nil _).symm, h0, rfl⟩
  | @cons a bytes attrs body hc hl ih =>
      intro fuel d hpdu hlen hfuel hmax ho
      rcases hc.payload with ⟨payload, hb, hp⟩
      have hbytes : bytes.length = payload.length + 4 := by rw [hb, length_wire]
      rw [List.length_append] at hlen hfuel
      rw [List.length_cons] at hmax
      have hlt : ¬ d.pduLen < 4 := by omega
      rw [show inOrder d.hasMsgInt d.hasFingerprint (a :: attrs) = (!d.hasFingerprint &&
        if a.type = attrMessageIntegrity then !d.hasMsgInt && inOrder true false attrs
        else inOrder d.hasMsgInt (a.type == attrFingerprint) attrs) from rfl,
        Bool.and_eq_true, Bool.not_eq_true'] at ho
      -- The flags after this attribute.
      have hstep : ∃ mi fp, d.checkOrder a.type =
            .ok { d with hasMsgInt := mi, hasFingerprint := fp } ∧
          (findAttrDesc a.type = none → mi = d.hasMsgInt ∧ fp = d.hasFingerprint) ∧
          inOrder mi fp attrs = true := by
        unfold Decoding.checkOrder
        by_cases hmi : a.type = attrMessageIntegrity
        · have ho2 := ho.2
          rw [if_pos hmi, Bool.and_eq_true, Bool.not_eq_true'] at ho2
          refine ⟨true, d.hasFingerprint, ?_, fun hn => ?_, ?_⟩
          · rw [if_pos ⟨hmi, ho.1⟩, if_neg (by rw [ho2.1]; exact Bool.false_ne_true)]
          · rw [hmi] at hn
            cases hn
          · rw [ho.1]
            exact ho2.2
        · have ho2 := ho.2
          rw [if_neg hmi] at ho2
          rw [if_neg fun h => hmi h.1]
          by_cases hfp : a.type = attrFingerprint
          · rw [hfp, beq_self_eq_true] at ho2
            refine ⟨d.hasMsgInt, true, ?_, fun hn => ?_, ho2⟩
            · rw [if_pos hfp, if_neg (by rw [ho.1]; exact Bool.false_ne_true)]
            · rw [hfp] at hn
              cases hn
          · rw [beq_eq_false_iff_ne.mpr hfp] at ho2
            refine ⟨d.hasMsgInt, d.hasFingerprint, ?_, fun _ => ⟨rfl, rfl⟩, ?_⟩
            · rw [if_neg hfp, if_neg (by rw [ho.1]; exact Bool.false_ne_true)]
            · rw [ho.1]
              exact ho2
      rcases hstep with ⟨mi, fp, hcheck, hnone, horder⟩
      have hone := decodeStep_coded hc { d with hasMsgInt := mi, hasFingerprint := fp } hpdu
        (by omega) (by omega) hcheck
        (fun hn => by rw [(hnone hn).1, (hnone hn).2]) ⟨rfl, rfl, rfl⟩
      cases fuel with
      | zero => omega
      | succ fuel =>
          rw [decodeLoop_succ hlt hone]
          rcases ih fuel (Decoding.took { d with hasMsgInt := mi, hasFingerprint := fp } a bytes body)
            rfl (show d.pduLen - bytes.length = body.length by omega) (by omega)
            (by
              show (d.attrs ++ [a]).length + attrs.length ≤ stunMaxAttr
              rw [List.length_append, List.length_singleton]
              omega) horder with ⟨d', hd', hattrs, hpl, hpos⟩
          refine ⟨d', hd', ?_, hpl, ?_⟩
          · rw [hattrs]
            show d.attrs ++ [a] ++ attrs = _
            rw [List.append_assoc]
            rfl
          · rw [hpos, List.length_append]
            show d.pos + bytes.length + body.length = _
            omega

/-! ## The sums -/

/-- MESSAGE-INTEGRITY with the sum `hmac`, or nothing. -/
def msgintAttrs (hmac : Option (Bytes 20)) : List Attr :=
  (hmac.map fun h => (⟨attrMessageIntegrity, 20, .msgint h⟩ : Attr)).toList

/-- FINGERPRINT with the sum `value`, or nothing. -/
def fingerprintAttrs (value : Option UInt32) : List Attr :=
  (value.map (uintAttrCreate attrFingerprint)).toList

/-- The wire form of `msgintAttrs`. -/
def msgintBytes : Option (Bytes 20) → List UInt8
  | none => []
  | some hmac => wire attrMessageIntegrity 20 hmac.val

/-- The wire form of `fingerprintAttrs`. -/
def fingerprintBytes : Option UInt32 → List UInt8
  | none => []
  | some value => wire attrFingerprint 4 (put32 value)

theorem coded_msgintAttrs (hmac : Option (Bytes 20)) :
    CodedList msghdr (msgintAttrs hmac) (msgintBytes hmac) := by
  cases hmac with
  | none => exact .nil
  | some hmac =>
      have hc : Coded msghdr ⟨attrMessageIntegrity, 20, .msgint hmac⟩
          (wire attrMessageIntegrity 20 hmac.val) :=
        coded_of_decodeAttr .msgint rfl
          (hmac.property.trans (pad4_of_mod (n := 20) rfl).symm)
          fun rest => decodeMsgintAttr_wire _ hmac rest
      have hl := CodedList.cons hc .nil
      rw [List.append_nil] at hl
      exact hl

theorem coded_fingerprintAttrs (value : Option UInt32) :
    CodedList msghdr (fingerprintAttrs value) (fingerprintBytes value) := by
  cases value with
  | none => exact .nil
  | some value =>
      have hc : Coded msghdr (uintAttrCreate attrFingerprint value)
          (wire attrFingerprint 4 (put32 value)) :=
        coded_of_decodeAttr .uint rfl (pad4_of_mod (n := 4) rfl).symm
          fun rest => decodeUintAttr_wire _ value rest
      have hl := CodedList.cons hc .nil
      rw [List.append_nil] at hl
      exact hl

theorem inOrder_sums (hmac : Option (Bytes 20)) (value : Option UInt32) :
    inOrder false false (msgintAttrs hmac ++ fingerprintAttrs value) = true := by
  cases hmac
  · cases value
    · rfl
    · rfl
  · cases value
    · rfl
    · rfl

theorem getElem?_plain (plain sums : List Attr) : (plain ++ sums)[plain.length]? = sums[0]? := by
  rw [List.getElem?_append_right (Nat.le_refl _), Nat.sub_self]

theorem setValue_plain (sums : List Attr) (a : Attr) (value : AttrValue) :
    ∀ plain : List Attr, setValue (plain ++ a :: sums) plain.length value =
      plain ++ { a with value := value } :: sums
  | [] => rfl
  | b :: plain => by
      have ih := setValue_plain sums a value plain
      unfold setValue at ih ⊢
      show b :: (plain ++ a :: sums).modify plain.length _ = _
      rw [ih]
      rfl

/-- The two sums are found where they are. -/
theorem scanSums_found (plain : List Attr) (hmac : Option (Bytes 20)) (value : Option UInt32) :
    let attrs := plain ++ (msgintAttrs hmac ++ fingerprintAttrs value)
    scanSums (attrs.drop (plain.length + 1)) (plain.length + 1) (stoppedAt attrs plain.length) =
      .ok ⟨hmac.map fun _ => plain.length,
        value.map fun _ => (plain ++ msgintAttrs hmac).length⟩ := by
  have hdrop : (plain ++ (msgintAttrs hmac ++ fingerprintAttrs value)).drop (plain.length + 1) =
      (msgintAttrs hmac ++ fingerprintAttrs value).drop 1 := by
    rw [List.drop_append, List.drop_of_length_le (by omega), List.nil_append,
      Nat.add_sub_cancel_left]
  dsimp only
  unfold stoppedAt
  rw [hdrop, getElem?_plain, List.length_append]
  cases hmac with
  | none | some =>
      cases value with
      | none => rfl
      | some value => rfl

theorem wireLenAll_msgint (hmac : Bytes 20) : wireLenAll (msgintAttrs (some hmac)) = 24 := by
  show 4 + pad4 20 + 0 = 24
  decide

theorem wireLenAll_fingerprint (value : UInt32) :
    wireLenAll (fingerprintAttrs (some value)) = 8 := by
  show 4 + pad4 4 + 0 = 8
  decide

/-- MESSAGE-INTEGRITY is written where it is. -/
theorem putMsgint_sums (env : MsgEnv) {key : Option (List UInt8)} (hdr : MsgHdr)
    (length : UInt16) {body : List UInt8} (plain l : List Attr) (hmac : Option (Bytes 20))
    (hkey : hmac.isSome = true → key.isSome = true)
    (hroom : body.length + wireLenAll (msgintAttrs hmac) ≤ buf.length) :
    ∃ hmac', hmac'.isSome = hmac.isSome ∧
      putMsgint env key hdr (plain ++ (msgintAttrs hmac ++ l)) (hmac.map fun _ => plain.length)
        length body buf = .ok (body ++ msgintBytes hmac', plain ++ (msgintAttrs hmac' ++ l)) := by
  cases hmac with
  | none => exact ⟨none, rfl, by rw [show msgintBytes none = [] from rfl, List.append_nil]; rfl⟩
  | some hmac =>
      cases key with
      | none => exact absurd (hkey rfl) Bool.false_ne_true
      | some key =>
          rw [wireLenAll_msgint] at hroom
          refine ⟨some (env.hmacSha1 key (written hdr length body)), rfl, ?_⟩
          show putMsgint env (some key) hdr
            (plain ++ (⟨attrMessageIntegrity, 20, .msgint hmac⟩ :: l)) (some plain.length) length
            body buf = _
          unfold putMsgint
          dsimp only
          rw [getElem?_plain]
          show (encodeMsgintAttr attrMessageIntegrity 20 _ (buf.drop body.length) >>= fun bytes =>
            Except.ok (body ++ bytes, setValue _ _ _)) = _
          unfold encodeMsgintAttr
          rw [if_neg (by rw [List.length_drop]; omega), setValue_plain]
          rfl

/-- FINGERPRINT is written where it is. -/
theorem putFingerprint_sums (env : MsgEnv) (hdr : MsgHdr) {length : UInt16} {body : List UInt8}
    (plain : List Attr) (value : Option UInt32)
    (hroom : body.length + wireLenAll (fingerprintAttrs value) ≤ buf.length)
    (hlen : length.toNat = body.length)
    (hsmall : body.length + wireLenAll (fingerprintAttrs value) < 65536) :
    ∃ (value' : Option UInt32) (length' : UInt16), value'.isSome = value.isSome ∧
      length'.toNat = (body ++ fingerprintBytes value').length ∧
      (∀ v, value' = some v → v = env.crc32 (written hdr length' body) ^^^ stunXorFingerprint) ∧
      putFingerprint env hdr (plain ++ fingerprintAttrs value) (value.map fun _ => plain.length)
        length body buf =
          .ok (length', body ++ fingerprintBytes value', plain ++ fingerprintAttrs value') := by
  cases value with
  | none =>
      refine ⟨none, length, rfl, ?_, nofun, ?_⟩
      · rw [hlen]
        exact congrArg List.length (List.append_nil body).symm
      · rw [show fingerprintBytes none = [] from rfl, List.append_nil]
        rfl
  | some value =>
      rw [wireLenAll_fingerprint] at hroom hsmall
      have hlen' : (UInt16.ofNat (length.toNat + 8)).toNat = body.length + 8 := by
        rw [hlen, toNat_length hsmall]
      refine ⟨some (env.crc32 (written hdr (UInt16.ofNat (length.toNat + 8)) body) ^^^
        stunXorFingerprint), UInt16.ofNat (length.toNat + 8), rfl, ?_, ?_, ?_⟩
      · rw [hlen', List.length_append]
        rfl
      · intro v hv
        exact (Option.some.inj hv).symm
      · show putFingerprint env hdr (plain ++ [uintAttrCreate attrFingerprint value])
          (some plain.length) length body buf = _
        unfold putFingerprint
        dsimp only
        rw [getElem?_plain]
        show (encodeUintAttr attrFingerprint _ (buf.drop body.length) >>= fun bytes =>
          Except.ok (_, body ++ bytes, setValue _ _ _)) = _
        unfold encodeUintAttr
        rw [if_neg (by rw [List.length_drop]; omega), setValue_plain]
        rfl

/-! ## The header and the checks -/

theorem length_written (hdr : MsgHdr) (length : UInt16) (body : List UInt8) :
    (written hdr length body).length = body.length + 20 := by
  show (hdr.tsxId.val ++ body).length + 8 = _
  rw [List.length_append, hdr.tsxId.property]
  omega

theorem read_length (hdr : MsgHdr) (length : UInt16) (body : List UInt8) :
    read16 (written hdr length body) 2 = some length := read16_append (put16 hdr.type) rfl length

theorem read_magic (hdr : MsgHdr) (length : UInt16) (body : List UInt8) :
    read32 (written hdr length body) 4 = some hdr.magic :=
  read32_append (put16 hdr.type ++ put16 length) rfl hdr.magic

theorem decodeHdr_written (hdr : MsgHdr) (length : UInt16) (body : List UInt8) :
    decodeHdr (written hdr length body) = .ok { hdr with length := length } := by
  have htype : read16 (written hdr length body) 0 = some hdr.type := read16_append [] rfl hdr.type
  have htsx : readBytes (written hdr length body) 8 12 = some hdr.tsxId :=
    readBytes_append (put16 hdr.type ++ (put16 length ++ put32 hdr.magic)) rfl hdr.tsxId.property
  unfold decodeHdr
  rw [htype, read_length, read_magic, htsx]
  rfl

theorem decodeHdr_length {pdu : List UInt8} {hdr : MsgHdr} (h : decodeHdr pdu = .ok hdr) :
    read16 pdu 2 = some hdr.length := by
  unfold decodeHdr at h
  cases h0 : read16 pdu 0 with
  | none =>
      rw [h0] at h
      cases h
  | some type =>
      cases h2 : read16 pdu 2 with
      | none =>
          rw [h0, h2] at h
          cases h
      | some length =>
          cases h4 : read32 pdu 4 with
          | none =>
              rw [h0, h2, h4] at h
              cases h
          | some magic =>
              cases h8 : readBytes pdu 8 12 with
              | none =>
                  rw [h0, h2, h4, h8] at h
                  cases h
              | some tsxId =>
                  rw [h0, h2, h4, h8] at h
                  cases h
                  rfl

theorem drop_written (hdr : MsgHdr) (length : UInt16) (body : List UInt8) :
    (written hdr length body).drop 20 = body := by
  show (hdr.tsxId.val ++ body).drop 12 = body
  exact List.drop_left' hdr.tsxId.property

theorem written_append (hdr : MsgHdr) (length : UInt16) (body rest : List UInt8) :
    written hdr length (body ++ rest) = written hdr length body ++ rest := by
  unfold written
  simp only [List.append_assoc]

/-- The decoder of an attribute does not look at the length of the message. -/
theorem decodeAttr_length (hdr : MsgHdr) (length : UInt16) (buf : List UInt8) (desc : AttrDesc) :
    decodeAttr { hdr with length := length } buf desc = decodeAttr hdr buf desc := by
  cases desc <;> rfl

theorem CodedList.set_length {hdr : MsgHdr} (length : UInt16) {attrs : List Attr}
    {body : List UInt8} (h : CodedList hdr attrs body) :
    CodedList { hdr with length := length } attrs body := by
  induction h with
  | nil => exact .nil
  | cons hc _ ih =>
      refine .cons ⟨hc.payload, fun rest => ?_⟩ ih
      have hd := hc.decodes rest
      unfold Decodes at hd ⊢
      split at hd
      · rw [decodeAttr_length]
        exact hd
      · exact hd

/-- The check of the packet: the type has a first byte of 0 or 1, and what stands where a
fingerprint is expected is one, or is not taken for one. -/
theorem stunMsgCheck_written {hdr : MsgHdr} {length : UInt16} {body : List UInt8}
    {options : DecodeOptions} (htype : hdr.type < 0x200) (hlen : length.toNat = body.length)
    (hmod : body.length % 4 = 0)
    (hfp : options.noFingerprintCheck = false →
      checkFingerprint env (written hdr length body) body.length = .ok ()) :
    stunMsgCheck env (written hdr length body) options = .ok () := by
  have htype : hdr.type.toNat < 512 := UInt16.lt_iff_toNat_lt.mp htype
  have hfirst : ¬ (UInt8.ofNat (hdr.type.toNat / 256) ≠ 0 ∧
      UInt8.ofNat (hdr.type.toNat / 256) ≠ 1) := by
    rcases (show hdr.type.toNat / 256 = 0 ∨ hdr.type.toNat / 256 = 1 by omega) with h | h
    · rw [h]
      exact fun hne => hne.1 rfl
    · rw [h]
      exact fun hne => hne.2 rfl
  unfold stunMsgCheck stunMsgCheckIn
  rw [if_neg (by rw [length_written]; omega), read_length, read_magic]
  show (if UInt8.ofNat (hdr.type.toNat / 256) ≠ 0 ∧ UInt8.ofNat (hdr.type.toNat / 256) ≠ 1 then _
    else if (written hdr length body).length < length.toNat + 20 ∨ options.isDatagram = true ∧
      length.toNat + 20 ≠ (written hdr length body).length then _
    else if length.toNat % 4 ≠ 0 then _
    else if hdr.magic = stunMagic ∧ options.noFingerprintCheck = false then
      checkFingerprint env (written hdr length body) length.toNat
    else .ok ()) = _
  rw [if_neg hfirst, length_written, hlen,
    if_neg (not_or.mpr ⟨Nat.lt_irrefl _, fun h => h.2 rfl⟩), if_neg (not_not.mpr hmod)]
  split
  · rename_i h
    exact hfp h.2
  · rfl

/-- The fingerprint that has been written is accepted. -/
theorem checkFingerprint_written {hdr : MsgHdr} {length : UInt16} {body : List UInt8} {v : UInt32}
    (hv : v = env.crc32 (written hdr length body) ^^^ stunXorFingerprint) :
    checkFingerprint env (written hdr length (body ++ fingerprintBytes (some v)))
      (body ++ fingerprintBytes (some v)).length = .ok () := by
  have hlen : (body ++ fingerprintBytes (some v)).length = body.length + 8 := by
    rw [List.length_append]
    rfl
  have hpre := length_written hdr length body
  have happ : written hdr length (body ++ fingerprintBytes (some v)) =
      written hdr length body ++ (put16 attrFingerprint ++ (put16 4 ++ (put32 v ++ []))) := by
    rw [written_append, List.append_nil]
    rfl
  rw [hlen, happ]
  unfold checkFingerprint
  have htype : read16 (written hdr length body ++
      (put16 attrFingerprint ++ (put16 4 ++ (put32 v ++ [])))) (body.length + 8 + 12) =
        some attrFingerprint := read16_append _ hpre _
  have hattr : read16 (written hdr length body ++
      (put16 attrFingerprint ++ (put16 4 ++ (put32 v ++ [])))) (body.length + 8 + 14) = some 4 := by
    rw [← List.append_assoc]
    refine read16_append _ ?_ _
    rw [List.length_append, hpre, length_put16]
  have hval : read32 (written hdr length body ++
      (put16 attrFingerprint ++ (put16 4 ++ (put32 v ++ [])))) (body.length + 8 + 16) = some v := by
    rw [← List.append_assoc, ← List.append_assoc]
    refine read32_append _ ?_ _
    rw [List.length_append, List.length_append, hpre, length_put16, length_put16]
  rw [htype, hattr, hval, List.take_left' hpre, ← hv]
  show (if attrFingerprint ≠ attrFingerprint then Except.ok () else
    if (4 : UInt16) ≠ 4 then .error MsgStatus.estuninattrlen else
      if v ≠ v then .error MsgStatus.estunfingerprint else .ok ()) = _
  rw [if_neg (not_not.mpr rfl), if_neg (not_not.mpr rfl), if_neg (not_not.mpr rfl)]

/-- What does not read as a fingerprint is not checked. -/
theorem checkFingerprint_other {pdu : List UInt8} {msgLen : Nat} (hlen : msgLen + 14 ≤ pdu.length)
    (hne : read16 pdu (msgLen + 12) ≠ some attrFingerprint) :
    checkFingerprint env pdu msgLen = .ok () := by
  rcases read16_of_le (show msgLen + 12 + 2 ≤ pdu.length from hlen) with ⟨v, hv⟩
  have hv' : v ≠ attrFingerprint := by
    intro h
    rw [hv, h] at hne
    exact hne rfl
  unfold checkFingerprint
  rw [hv]
  show (if v ≠ attrFingerprint then _ else _) = _
  rw [if_pos hv']

/-- The decoder gets the attributes back. -/
theorem decode_written {hdr : MsgHdr} {length : UInt16} {attrs : List Attr} {body : List UInt8}
    {options : DecodeOptions} (hl : CodedList hdr attrs body) (hlen : length.toNat = body.length)
    (hmax : attrs.length ≤ stunMaxAttr) (ho : inOrder false false attrs = true)
    (hcheck : options.checkPacket = true →
      stunMsgCheck env (written hdr length body) options = .ok ()) :
    stunMsgDecode env (written hdr length body) options =
      .ok (⟨{ hdr with length := length }, attrs⟩, (written hdr length body).length) := by
  rcases decodeLoop_coded (hl.set_length length) body.length
    ⟨body, body.length, 20, [], false, false⟩ rfl rfl (Nat.le_refl _)
    (by rw [List.length_nil, Nat.zero_add]; exact hmax) ho with ⟨d, hloop, hattrs, hpl, hpos⟩
  have hpos : d.pos = (written hdr length body).length := by
    rw [hpos, length_written, Nat.add_comm]
  -- What comes after the check of the packet.
  have hrest : (decodeHdr (written hdr length body) >>= fun h =>
      decodeLoop h h.length.toNat
        ⟨(written hdr length body).drop 20, h.length.toNat, 20, [], false, false⟩ >>= fun d =>
      if 0 < d.pduLen then Except.error MsgStatus.einstunmsglen
      else .ok ((⟨h, d.attrs⟩ : Msg), d.pos)) =
        .ok (⟨{ hdr with length := length }, attrs⟩, (written hdr length body).length) := by
    rw [decodeHdr_written]
    show (decodeLoop { hdr with length := length } length.toNat
      ⟨(written hdr length body).drop 20, length.toNat, 20, [], false, false⟩ >>= _) = _
    rw [drop_written, hlen, hloop]
    show (if 0 < d.pduLen then _ else _) = _
    rw [if_neg (by rw [hpl]; exact Nat.lt_irrefl 0), hattrs, hpos]
    rfl
  unfold stunMsgDecode stunMsgDecodeIn Decoding.start
  rw [if_neg (by rw [length_written]; omega)]
  dsimp only
  split
  · rename_i h
    have hchecked := hcheck h
    unfold stunMsgCheck at hchecked
    rw [hchecked]
    exact hrest
  · exact hrest

/-! ## The parsed length -/

theorem next_left (d : Decoding) (a : Attr) (attrValLen : Nat) :
    (d.next a attrValLen).pos + (d.next a attrValLen).pduLen = d.pos + d.pduLen := by
  unfold Decoding.next
  dsimp only
  split
  · omega
  · omega

theorem checkOrder_left {d d' : Decoding} {attrType : UInt16}
    (h : d.checkOrder attrType = .ok d') : d'.pos + d'.pduLen = d.pos + d.pduLen := by
  unfold Decoding.checkOrder at h
  split at h
  · split at h
    · cases h
    · cases h
      rfl
  · split at h
    · split at h
      · cases h
      · cases h
        rfl
    · split at h
      · cases h
      · cases h
        rfl

/-- The attributes are behind one another: what is parsed and what is left make the message. -/
theorem decodeStep_left {d d' : Decoding} (h : decodeStep msghdr d = .ok d') :
    d'.pos + d'.pduLen = d.pos + d.pduLen := by
  unfold decodeStep at h
  cases hhdr : getattrhdr d.pdu with
  | error e =>
      rw [hhdr] at h
      cases h
  | ok hdr =>
      rw [hhdr] at h
      change (if d.pduLen < pad4 hdr.2.toNat then _ else _) = _ at h
      split at h
      · cases h
      · cases hdesc : findAttrDesc hdr.1 with
        | none =>
            rw [hdesc] at h
            dsimp only at h
            split at h
            · cases h
            · split at h
              · cases h
              · cases hr : readBytes d.pdu 4 hdr.2.toNat with
                | none =>
                    rw [hr] at h
                    cases h
                | some data =>
                    rw [hr] at h
                    cases h
                    exact next_left _ _ _
        | some desc =>
            rw [hdesc] at h
            dsimp only at h
            cases ha : decodeAttr msghdr d.pdu desc with
            | error e =>
                rw [ha] at h
                cases h
            | ok a =>
                rw [ha] at h
                change (d.checkOrder hdr.1 >>= fun d => _) = _ at h
                cases ho : d.checkOrder hdr.1 with
                | error e =>
                    rw [ho] at h
                    cases h
                | ok d1 =>
                    rw [ho] at h
                    change (if stunMaxAttr ≤ d1.attrs.length then _ else _) = _ at h
                    split at h
                    · cases h
                    · cases h
                      rw [next_left, checkOrder_left ho]

theorem decodeLoop_left : ∀ {fuel : Nat} {d d' : Decoding},
    decodeLoop msghdr fuel d = .ok d' → d'.pos + d'.pduLen = d.pos + d.pduLen
  | 0, d, d', h => by
      unfold decodeLoop at h
      split at h
      · cases h
        rfl
      · cases h
  | fuel + 1, d, d', h => by
      rw [decodeLoop] at h
      split at h
      · cases h
        rfl
      · cases hs : decodeStep msghdr d with
        | error e =>
            rw [hs] at h
            cases h
        | ok d1 =>
            rw [hs] at h
            rw [decodeLoop_left (show decodeLoop msghdr fuel d1 = .ok d' from h),
              decodeStep_left hs]

/-- A message that is decoded has been parsed to its end. -/
theorem parsed_length {pdu : List UInt8} {options : DecodeOptions} {msg : Msg} {n : Nat}
    (h : stunMsgDecode env pdu options = .ok (msg, n)) :
    ∃ length, read16 pdu 2 = some length ∧ n = length.toNat + 20 := by
  have hend : ∀ {x : Except MsgStatus Unit}, (x >>= fun _ => decodeHdr pdu >>= fun hdr =>
      decodeLoop hdr hdr.length.toNat ⟨pdu.drop 20, hdr.length.toNat, 20, [], false, false⟩ >>=
        fun d => if 0 < d.pduLen then Except.error MsgStatus.einstunmsglen
          else .ok ((⟨hdr, d.attrs⟩ : Msg), d.pos)) = .ok (msg, n) →
      ∃ length, read16 pdu 2 = some length ∧ n = length.toNat + 20 := by
    intro x h
    cases x with
    | error e => cases h
    | ok u =>
        change (decodeHdr pdu >>= _) = _ at h
        cases hhdr : decodeHdr pdu with
        | error e =>
            rw [hhdr] at h
            cases h
        | ok hdr =>
            rw [hhdr] at h
            change (decodeLoop hdr hdr.length.toNat
              ⟨pdu.drop 20, hdr.length.toNat, 20, [], false, false⟩ >>= _) = _ at h
            cases hloop : decodeLoop hdr hdr.length.toNat
                ⟨pdu.drop 20, hdr.length.toNat, 20, [], false, false⟩ with
            | error e =>
                rw [hloop] at h
                cases h
            | ok d =>
                rw [hloop] at h
                change (if 0 < d.pduLen then _ else _) = _ at h
                split at h
                · cases h
                · rename_i hzero
                  cases h
                  have hleft : d.pos + d.pduLen = 20 + hdr.length.toNat := decodeLoop_left hloop
                  refine ⟨hdr.length, decodeHdr_length hhdr, by omega⟩
  unfold stunMsgDecode stunMsgDecodeIn Decoding.start at h
  split at h
  · cases h
  · dsimp only at h
    split at h
    · exact hend h
    · exact hend h

/-! ## The round trip -/

theorem length_msgintBytes (hmac : Option (Bytes 20)) :
    (msgintBytes hmac).length = wireLenAll (msgintAttrs hmac) := by
  cases hmac with
  | none => rfl
  | some hmac =>
      rw [wireLenAll_msgint]
      show hmac.val.length + 4 = 24
      rw [hmac.property]

theorem length_fingerprintBytes (value : Option UInt32) :
    (fingerprintBytes value).length = wireLenAll (fingerprintAttrs value) := by
  cases value with
  | none => rfl
  | some value =>
      rw [wireLenAll_fingerprint]
      rfl

theorem wireLenAll_sums {hmac hmac' : Option (Bytes 20)} {value value' : Option UInt32}
    (hh : hmac'.isSome = hmac.isSome) (hv : value'.isSome = value.isSome) :
    wireLenAll (msgintAttrs hmac') = wireLenAll (msgintAttrs hmac) ∧
      wireLenAll (fingerprintAttrs value') = wireLenAll (fingerprintAttrs value) := by
  refine ⟨?_, ?_⟩
  · cases hmac <;> cases hmac' <;> first | rfl | cases hh
  · cases value <;> cases value' <;> first | rfl | cases hv

/-- The attributes of a message: the ones before the sums, MESSAGE-INTEGRITY and FINGERPRINT. -/
def msgAttrs (plain : List Attr) (hmac : Option (Bytes 20)) (value : Option UInt32) : List Attr :=
  plain ++ (msgintAttrs hmac ++ fingerprintAttrs value)

theorem length_msgAttrs {hmac hmac' : Option (Bytes 20)} {value value' : Option UInt32}
    (plain : List Attr) (hh : hmac'.isSome = hmac.isSome) (hv : value'.isSome = value.isSome) :
    (msgAttrs plain hmac' value').length = (msgAttrs plain hmac value).length := by
  unfold msgAttrs
  rw [List.length_append, List.length_append, List.length_append, List.length_append]
  have hm : (msgintAttrs hmac').length = (msgintAttrs hmac).length := by
    cases hmac <;> cases hmac' <;> first | rfl | cases hh
  have hf : (fingerprintAttrs value').length = (fingerprintAttrs value).length := by
    cases value <;> cases value' <;> first | rfl | cases hv
  rw [hm, hf]

/-- The encoder on a message of legal attributes and sums. -/
theorem stunMsgEncode_legal (env : MsgEnv) {hdr : MsgHdr} {plain : List Attr} {hmac : Option (Bytes 20)}
    {value : Option UInt32} {key : Option (List UInt8)} (hmagic : hdr.magic = stunMagic)
    (hplain : ∀ a ∈ plain, Legal a) (hkey : hmac.isSome = true → key.isSome = true)
    (hlen : wireLenAll (msgAttrs plain hmac value) < 65536)
    (hbuf : 20 + wireLenAll (msgAttrs plain hmac value) ≤ buf.length) :
    ∃ (body : List UInt8) (hmac' : Option (Bytes 20)) (value' : Option UInt32) (length : UInt16),
      hmac'.isSome = hmac.isSome ∧ value'.isSome = value.isSome ∧
      CodedList hdr plain body ∧ body.length = wireLenAll plain ∧
      length.toNat = (body ++ msgintBytes hmac' ++ fingerprintBytes value').length ∧
      (∀ v, value' = some v →
        v = env.crc32 (written hdr length (body ++ msgintBytes hmac')) ^^^ stunXorFingerprint) ∧
      stunMsgEncode env ⟨hdr, msgAttrs plain hmac value⟩ buf 0 key =
        .ok (written hdr length (body ++ msgintBytes hmac' ++ fingerprintBytes value'),
          ⟨{ hdr with length := length }, msgAttrs plain hmac' value'⟩) := by
  have hsum : wireLenAll (msgAttrs plain hmac value) = wireLenAll plain +
      (wireLenAll (msgintAttrs hmac) + wireLenAll (fingerprintAttrs value)) := by
    unfold msgAttrs
    rw [wireLenAll_append, wireLenAll_append]
  rw [hsum] at hlen hbuf
  have hroom : (buf.drop 20).length = buf.length - 20 := List.length_drop
  have hstop : ∀ a, (msgintAttrs hmac ++ fingerprintAttrs value).head? = some a →
      a.isSum = true := by
    intro a ha
    cases hmac <;> cases value <;> cases ha <;> rfl
  -- The loop over the attributes before the sums.
  rcases encodeAttrs_coded env hmagic hstop plain (buf.drop 20) hplain (by omega)
    (by omega) with ⟨body, hbody, hblen, hcoded⟩
  have hadd : (if (hmac.map fun _ => plain.length).isSome = true then 24 else 0) =
      wireLenAll (msgintAttrs hmac) := by
    cases hmac with
    | none => rfl
    | some hmac => exact (wireLenAll_msgint hmac).symm
  -- MESSAGE-INTEGRITY is over the message with the length behind it.
  have hroom1 : body.length + wireLenAll (msgintAttrs hmac) ≤ (buf.drop 20).length := by omega
  rcases putMsgint_sums env hdr (UInt16.ofNat (body.length + wireLenAll (msgintAttrs hmac))) plain
    (fingerprintAttrs value) hmac hkey hroom1 with ⟨hmac', hh, hmsgint⟩
  have hmlen : (msgintBytes hmac').length = wireLenAll (msgintAttrs hmac) :=
    (length_msgintBytes hmac').trans (wireLenAll_sums hh (rfl : value.isSome = _)).1
  have hplace : (plain ++ msgintAttrs hmac').length = (plain ++ msgintAttrs hmac).length := by
    have h : (msgAttrs plain hmac' none).length = (msgAttrs plain hmac none).length :=
      length_msgAttrs plain hh rfl
    unfold msgAttrs at h
    rw [show fingerprintAttrs none = [] from rfl, List.append_nil, List.append_nil] at h
    exact h
  have hblen' : (body ++ msgintBytes hmac').length =
      wireLenAll plain + wireLenAll (msgintAttrs hmac) := by
    rw [List.length_append, hblen, hmlen]
  have hlength : (UInt16.ofNat (body.length + wireLenAll (msgintAttrs hmac))).toNat =
      (body ++ msgintBytes hmac').length := by
    rw [toNat_length (by omega), hblen', hblen]
  have hroom2 : (body ++ msgintBytes hmac').length + wireLenAll (fingerprintAttrs value) ≤
      (buf.drop 20).length := by omega
  rcases putFingerprint_sums env hdr (plain ++ msgintAttrs hmac') value hroom2 hlength (by omega)
    with ⟨value', length, hv, hlen', hcrc, hfp⟩
  refine ⟨body, hmac', value', length, hh, hv, hcoded, hblen, hlen', hcrc, ?_⟩
  have hlast : UInt16.ofNat (body ++ msgintBytes hmac' ++ fingerprintBytes value').length =
      length := by
    rw [← hlen', UInt16.ofNat_toNat]
  rw [hplace, List.append_assoc plain, List.append_assoc plain] at hfp
  unfold stunMsgEncode
  rw [if_neg (by omega), if_neg (fun h => h rfl), if_neg (by omega)]
  show (encodeAttrs env hdr (plain ++ (msgintAttrs hmac ++ fingerprintAttrs value)) (buf.drop 20)
    >>= _) = _
  rw [hbody]
  show (scanSums ((plain ++ (msgintAttrs hmac ++ fingerprintAttrs value)).drop (plain.length + 1))
    (plain.length + 1)
    (stoppedAt (plain ++ (msgintAttrs hmac ++ fingerprintAttrs value)) plain.length) >>= _) = _
  rw [scanSums_found plain hmac value]
  show (putMsgint env key hdr (plain ++ (msgintAttrs hmac ++ fingerprintAttrs value))
    (hmac.map fun _ => plain.length) (UInt16.ofNat (body.length +
      if (hmac.map fun _ => plain.length).isSome = true then 24 else 0)) body (buf.drop 20)
    >>= _) = _
  rw [hadd, hmsgint]
  show (putFingerprint env hdr (plain ++ (msgintAttrs hmac' ++ fingerprintAttrs value))
    (value.map fun _ => (plain ++ msgintAttrs hmac).length) _ (body ++ msgintBytes hmac')
    (buf.drop 20) >>= _) = _
  rw [hfp]
  show Except.ok (_, (⟨{ hdr with length := UInt16.ofNat _ }, _⟩ : Msg)) = _
  rw [hlast]
  rfl

/-- **Encoding and decoding.** A message of legal attributes, with MESSAGE-INTEGRITY and FINGERPRINT
or without, is encoded to a multiple of four bytes with their number behind the header in its length
field. It is the message with the new sums (`msg'`) that the decoder returns from all of these bytes.
With `PJ_STUN_CHECK_PACKET` the type begins with a byte of 0 or 1, and a message without FINGERPRINT
does not read as one where it would be. -/
theorem stun_round_trip (env : MsgEnv) {hdr : MsgHdr} {plain : List Attr} {hmac : Option (Bytes 20)}
    {value : Option UInt32} {key : Option (List UInt8)} {buf : List UInt8}
    (hmagic : hdr.magic = stunMagic) (hplain : ∀ a ∈ plain, Legal a)
    (hmax : (msgAttrs plain hmac value).length ≤ stunMaxAttr)
    (hkey : hmac.isSome = true → key.isSome = true)
    (hlen : wireLenAll (msgAttrs plain hmac value) < 65536)
    (hbuf : 20 + wireLenAll (msgAttrs plain hmac value) ≤ buf.length) :
    ∃ bytes msg', stunMsgEncode env ⟨hdr, msgAttrs plain hmac value⟩ buf 0 key =
        .ok (bytes, msg') ∧
      bytes.length = 20 + wireLenAll (msgAttrs plain hmac value) ∧ bytes.length % 4 = 0 ∧
      (∃ length : UInt16, read16 bytes 2 = some length ∧ length.toNat = bytes.length - 20 ∧
        msg'.hdr = { hdr with length := length }) ∧
      (∃ hmac' value', hmac'.isSome = hmac.isSome ∧ value'.isSome = value.isSome ∧
        msg'.attrs = msgAttrs plain hmac' value') ∧
      ∀ options : DecodeOptions,
        (options.checkPacket = true → hdr.type < 0x200 ∧ (options.noFingerprintCheck = true ∨
          value.isSome = true ∨ read16 bytes (bytes.length - 8) ≠ some attrFingerprint)) →
        stunMsgDecode env bytes options = .ok (msg', bytes.length) := by
  rcases stunMsgEncode_legal env hmagic hplain hkey hlen hbuf with
    ⟨body, hmac', value', length, hh, hv, hcoded, hblen, hlength, hcrc, henc⟩
  have hsums := wireLenAll_sums hh hv
  have hbody : (body ++ msgintBytes hmac' ++ fingerprintBytes value').length =
      wireLenAll (msgAttrs plain hmac value) := by
    unfold msgAttrs
    rw [wireLenAll_append, wireLenAll_append, List.length_append, List.length_append, hblen,
      length_msgintBytes, length_fingerprintBytes, hsums.1, hsums.2, Nat.add_assoc]
  have hmod := wireLenAll_mod (msgAttrs plain hmac value)
  have hall := length_written hdr length (body ++ msgintBytes hmac' ++ fingerprintBytes value')
  refine ⟨_, _, henc, by rw [hall, hbody, Nat.add_comm], by rw [hall, hbody]; omega,
    ⟨length, read_length _ _ _, by rw [hall, hlength, Nat.add_sub_cancel], rfl⟩,
    ⟨hmac', value', hh, hv, rfl⟩, fun options hoptions => ?_⟩
  have hlist : CodedList hdr (msgAttrs plain hmac' value')
      (body ++ msgintBytes hmac' ++ fingerprintBytes value') := by
    rw [List.append_assoc]
    exact hcoded.append ((coded_msgintAttrs hmac').append (coded_fingerprintAttrs value'))
  refine decode_written hlist hlength (by rw [length_msgAttrs plain hh hv]; exact hmax)
    (inOrder_plain (inOrder_sums hmac' value') plain fun a ha => (hplain a ha).not_sum)
    fun hcheck => ?_
  rcases hoptions hcheck with ⟨htype, hfp⟩
  refine stunMsgCheck_written htype hlength (by rw [hbody]; exact hmod) fun hno => ?_
  rcases hfp with hfp | hfp | hfp
  · rw [hno] at hfp
    cases hfp
  · cases hval : value' with
    | none =>
        rw [hval] at hv
        rw [hfp] at hv
        cases hv
    | some v => exact checkFingerprint_written (hcrc v hval)
  · -- No fingerprint is found where it would be.
    have hpos : (written hdr length (body ++ msgintBytes hmac' ++ fingerprintBytes value')).length -
        8 = (body ++ msgintBytes hmac' ++ fingerprintBytes value').length + 12 := by
      rw [hall]
      omega
    rw [hpos] at hfp
    refine checkFingerprint_other ?_ hfp
    rw [hall]
    omega

/-- 10.0.0.1, port 5000. -/
def sampleAddr : SockAddr := .ipv4 ⟨[19, 136], rfl⟩ ⟨[10, 0, 0, 1], rfl⟩

/-- The user name "bob" and a peer. -/
def signedPlain : List Attr :=
  [stringAttrCreate 0x0006 [98, 111, 98], sockaddrAttrCreate 0x0012 true sampleAddr]

/-- The hash that MESSAGE-INTEGRITY is created with. -/
def noHmac : Bytes 20 := zeroBytes 20

/-- A request with MESSAGE-INTEGRITY and FINGERPRINT. -/
def signedRequest : Msg :=
  ⟨⟨0x0003, 0, stunMagic, ⟨List.replicate 12 7, rfl⟩⟩,
    msgAttrs signedPlain (some noHmac) (some 0)⟩

/-- Sums that depend on the length of what they are over. -/
def lengthSums : MsgEnv :=
  ⟨0, fun key l => ⟨List.replicate 20 (UInt8.ofNat (key.length + l.length)), List.length_replicate⟩,
    fun l => UInt32.ofNat l.length⟩

theorem stun_round_trip_signed : ∃ bytes msg',
    stunMsgEncode lengthSums signedRequest (List.replicate 100 0) 0 (some [1]) =
      .ok (bytes, msg') ∧ bytes.length = 72 ∧
    stunMsgDecode lengthSums bytes ⟨true, true, false⟩ = .ok (msg', bytes.length) := by
  have hlegal : ∀ a ∈ signedPlain, Legal a := by
    intro a ha
    rcases List.mem_cons.mp ha with rfl | ha
    · exact .string _ _ rfl fun h => absurd h (by decide)
    · rw [List.mem_singleton.mp ha]
      exact .xoredSockaddr _ _ rfl
  rcases @stun_round_trip lengthSums signedRequest.hdr signedPlain (some noHmac) (some 0)
    (some [1]) (List.replicate 100 0) rfl hlegal (by decide) (fun _ => rfl) (by decide)
    (by decide) with ⟨bytes, msg', henc, hlen, _, _, _, hdec⟩
  exact ⟨bytes, msg', henc, hlen, hdec _ fun _ => ⟨by decide, Or.inr (Or.inl rfl)⟩⟩

/-- **A mandatory attribute that the decoder does not know.** The binary attribute 0x7FFF is created
and encoded, and the decoder refuses the message. -/
theorem mandatory_not_decoded :
    ∃ a, binaryAttrCreate 0x7FFF [] = .ok a ∧
    ∃ bytes msg', stunMsgEncode lengthSums ⟨signedRequest.hdr, [a]⟩ (List.replicate 24 0) 0 none =
        .ok (bytes, msg') ∧
      stunMsgDecode lengthSums bytes ⟨false, false, false⟩ = .error .unknownAttribute :=
  ⟨_, rfl, _, _, rfl, rfl⟩

end Stun
