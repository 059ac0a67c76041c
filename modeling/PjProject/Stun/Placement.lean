import PjProject.Stun.DecodeBounds
import PjProject.Stun.EncodeShape

set_option autoImplicit false

/-! # Which attributes come through

MESSAGE-INTEGRITY is meant to be the last attribute of a message but FINGERPRINT, and FINGERPRINT
the last one. The encoder stops its loop at the first of the two and scans the rest; when it comes to
check the place of MESSAGE-INTEGRITY the index is at the end already, so that attributes in between
are passed over (`stunMsgEncode_drops`). The decoder checks the order for attributes with a
descriptor only. `placement_iff` says which messages come through whole.
-/

namespace Stun

open Wire

/-! ## What is claimed -/

/-- The bytes have every attribute of the message once and in order. -/
def EmitsAll (env : MsgEnv) (msg : Msg) (bytes : List UInt8) : Prop :=
  ∃ length body, bytes = written msg.hdr length body ∧ EmitsList env msg.hdr msg.attrs body

/-- No attribute is behind FINGERPRINT, and there is one MESSAGE-INTEGRITY at most. -/
def WellPlaced (types : List UInt16) : Prop :=
  types.Pairwise (fun a _ => a ≠ attrFingerprint) ∧ types.count attrMessageIntegrity ≤ 1

/-- Behind MESSAGE-INTEGRITY there is nothing but FINGERPRINT. -/
def OnlyFingerprintBehindMsgint (types : List UInt16) : Prop :=
  types.Pairwise fun a b => a = attrMessageIntegrity → b = attrFingerprint

/-- Behind FINGERPRINT there is no attribute without a descriptor. -/
def RecognizedBehindFingerprint (types : List UInt16) : Prop :=
  types.Pairwise fun a b => a = attrFingerprint → findAttrDesc b ≠ none

instance (types : List UInt16) : Decidable (WellPlaced types) :=
  inferInstanceAs (Decidable (_ ∧ _))

instance (types : List UInt16) : Decidable (OnlyFingerprintBehindMsgint types) :=
  inferInstanceAs (Decidable (List.Pairwise _ _))

instance (types : List UInt16) : Decidable (RecognizedBehindFingerprint types) :=
  inferInstanceAs (Decidable (List.Pairwise _ _))

/-- The types of the attributes one after the other in `left` bytes of a buffer. -/
def typesFrom : Nat → List UInt8 → Nat → List UInt16
  | 0, _, _ => []
  | fuel + 1, buf, left =>
      if left < 4 then []
      else
        match read16 buf 0, read16 buf 2 with
        | some t, some l =>
            t :: typesFrom fuel (buf.drop (4 + pad4 l.toNat)) (left - (4 + pad4 l.toNat))
        | _, _ => []

/-- The types of the attributes of a packet. -/
def attrTypes (pdu : List UInt8) : List UInt16 :=
  match read16 pdu 2 with
  | some len => typesFrom len.toNat (pdu.drop 20) len.toNat
  | none => []

/-! ## The encoder -/

section Encoder

variable {env : MsgEnv} {msg msg' : Msg} {p : Parts} {buf bytes : List UInt8} {options : Nat}
  {key : Option (List UInt8)}

theorem Parts.Of.types (h : p.Of msg.attrs) : msg.attrs.map Attr.type =
    p.plain.map Attr.type ++ (p.msgint.map Attr.type ++
      (p.dropped.map Attr.type ++ p.fingerprint.map Attr.type)) := by
  rw [h.attrs, List.map_append, List.map_append, List.map_append]

theorem not_msgint_of_plain {attrs : List Attr} (h : ∀ a ∈ attrs, a.isSum = false) {t : UInt16}
    (ht : t ∈ attrs.map Attr.type) : t ≠ attrMessageIntegrity ∧ t ≠ attrFingerprint := by
  obtain ⟨a, ha, rfl⟩ := List.mem_map.mp ht
  have hno := h a ha
  rw [Bool.eq_false_iff, ne_eq, isSum_iff, not_or] at hno
  exact hno

/-- Nothing is dropped exactly if there is nothing but FINGERPRINT behind MESSAGE-INTEGRITY. -/
theorem Parts.Of.dropped_nil_iff (h : p.Of msg.attrs) :
    p.dropped = [] ↔ OnlyFingerprintBehindMsgint (msg.attrs.map Attr.type) := by
  rw [h.types]
  unfold OnlyFingerprintBehindMsgint
  constructor
  · intro hnil
    rw [hnil, List.map_nil, List.nil_append]
    refine List.pairwise_append.mpr ⟨?_, ?_, ?_⟩
    · refine List.pairwise_of_forall_mem_list fun a ha b _ hmi => ?_
      exact absurd hmi (not_msgint_of_plain h.plain ha).1
    · -- At most the two sums are left.
      rcases h.msgint with ⟨hm, -⟩ | ⟨m, hm, hmt⟩ <;>
        rcases h.fingerprint with hf | ⟨f, hf, hft⟩ <;> simp_all
    · intro a ha b _ hmi
      exact absurd hmi (not_msgint_of_plain h.plain ha).1
  · intro hpair
    rcases h.msgint with ⟨-, hd⟩ | ⟨m, hm, hmt⟩
    · exact hd
    · have hrest := (List.pairwise_append.mp (List.pairwise_append.mp hpair).2.1).2.2
      rw [hm] at hrest
      by_contra hne
      obtain ⟨d, hd⟩ := List.exists_mem_of_ne_nil _ hne
      have hdt : d.type ∈ p.dropped.map Attr.type := List.mem_map_of_mem hd
      have hfp := hrest m.type (by simp) d.type (List.mem_append_left _ hdt) hmt
      exact (not_msgint_of_plain h.dropped hdt).2 hfp

/-- Two bodies behind the same header. -/
theorem written_body_length {hdr : MsgHdr} {l l' : UInt16} {body body' : List UInt8}
    (h : written hdr l body = written hdr l' body') : body.length = body'.length := by
  have hlen := congrArg List.length h
  rw [length_written, length_written] at hlen
  omega

/-- The encoder emits all attributes exactly if it drops none. -/
theorem emitsAll_iff (h : stunMsgEncode env msg buf options key = .ok (bytes, msg')) :
    EmitsAll env msg bytes ↔ OnlyFingerprintBehindMsgint (msg.attrs.map Attr.type) := by
  obtain ⟨p, length, body, hp, rfl, hw⟩ := stunMsgEncode_parts h
  rw [← hp.dropped_nil_iff]
  constructor
  · rintro ⟨length', body', heq, hall⟩
    -- What is dropped would take four bytes at least.
    have hlen := written_body_length heq
    have hsum : emitLenAll msg.attrs = emitLenAll p.emitted + emitLenAll p.dropped := by
      rw [hp.attrs, Parts.emitted]
      simp only [emitLenAll_append]
      omega
    rw [hw.emits.length, hall.length, hsum] at hlen
    exact emitLenAll_eq_zero (by omega)
  · intro hnil
    refine ⟨length, body, rfl, ?_⟩
    have hattrs : msg.attrs = p.emitted := by
      rw [hp.attrs, hnil, List.nil_append, Parts.emitted]
    rw [hattrs]
    exact hw.emits

end Encoder

/-! ## The decoder -/

section Decoder

variable {msghdr : MsgHdr}

theorem decodeSockaddr_type {buf : List UInt8} {hdr : UInt16 × UInt16}
    {r : UInt16 × UInt16 × SockAddr} (hhdr : getattrhdr buf = .ok hdr)
    (h : decodeSockaddr buf = .ok r) : r.1 = hdr.1 := by
  unfold decodeSockaddr at h
  obtain ⟨hdr', hh, h⟩ := Outcome.bind_eq_ok h
  rw [hhdr] at hh
  cases hh
  split at h
  · cases h
  obtain ⟨val, -, h⟩ := Outcome.bind_eq_ok h
  -- Both families end in the same way.
  split_ifs at h
  all_goals first
    | cases h
    | obtain ⟨port, -, h⟩ := Outcome.bind_eq_ok h
      obtain ⟨addr, -, h⟩ := Outcome.bind_eq_ok h
      cases h
      rfl

/-- Every decoder keeps the type of the header. -/
theorem decodeAttr_type {buf : List UInt8} {desc : AttrDesc} {hdr : UInt16 × UInt16} {a : Attr}
    (hhdr : getattrhdr buf = .ok hdr) (h : decodeAttr msghdr buf desc = .ok a) :
    a.type = hdr.1 := by
  cases desc with
  | sockaddr | xoredSockaddr =>
      obtain ⟨r, hr, h⟩ := Outcome.bind_eq_ok h
      cases h
      exact decodeSockaddr_type hhdr hr
  | errcode =>
      obtain ⟨hdr', hh, h⟩ := Outcome.bind_eq_ok h
      rw [hhdr] at hh
      cases hh
      obtain ⟨cls, -, h⟩ := Outcome.bind_eq_ok h
      obtain ⟨number, -, h⟩ := Outcome.bind_eq_ok h
      split at h
      · cases h
      · obtain ⟨reason, -, h⟩ := Outcome.bind_eq_ok h
        cases h
        rfl
  | uint =>
      obtain ⟨hdr', hh, h⟩ := Outcome.bind_eq_ok h
      rw [hhdr] at hh
      cases hh
      obtain ⟨value, -, h⟩ := Outcome.bind_eq_ok h
      split at h
      · cases h
      · cases h
        rfl
  | uint64 =>
      obtain ⟨hdr', hh, h⟩ := Outcome.bind_eq_ok h
      rw [hhdr] at hh
      cases hh
      split at h
      · cases h
      · obtain ⟨hi, -, h⟩ := Outcome.bind_eq_ok h
        obtain ⟨lo, -, h⟩ := Outcome.bind_eq_ok h
        cases h
        rfl
  | empty =>
      obtain ⟨hdr', hh, h⟩ := Outcome.bind_eq_ok h
      rw [hhdr] at hh
      cases hh
      split at h
      · cases h
      · cases h
        rfl
  | string | binary =>
      obtain ⟨hdr', hh, h⟩ := Outcome.bind_eq_ok h
      rw [hhdr] at hh
      cases hh
      obtain ⟨value, -, h⟩ := Outcome.bind_eq_ok h
      cases h
      rfl
  | msgint | unknown =>
      obtain ⟨hdr', hh, h⟩ := Outcome.bind_eq_ok h
      rw [hhdr] at hh
      cases hh
      split at h
      · cases h
      · obtain ⟨value, -, h⟩ := Outcome.bind_eq_ok h
        cases h
        rfl

/-- What the next turn of the loop starts from. -/
theorem next_moves (d : Decoding) (a : Attr) (v : Nat) :
    (d.next a v).pduLen = d.pduLen - (4 + v) ∧
      (4 ≤ (d.next a v).pduLen → (d.next a v).pdu = d.pdu.drop (4 + v)) := by
  unfold Decoding.next
  dsimp only
  split
  · refine ⟨by omega, fun h => ?_⟩
    omega
  · rw [Nat.add_comm v 4]
    exact ⟨rfl, fun _ => rfl⟩

/-- A turn of the loop adds an attribute: either it has no descriptor, or no FINGERPRINT is in front
of it. -/
structure Adds (d : Decoding) (a : Attr) (len : UInt16) (d' : Decoding) : Prop where
  hdr : getattrhdr d.pdu = .ok (a.type, len)
  attrs : d'.attrs = d.attrs ++ [a]
  order : findAttrDesc a.type = none ∨
    d.hasFingerprint = false ∧ (a.type = attrMessageIntegrity → d.hasMsgInt = false)
  msgInt : d'.hasMsgInt = (d.hasMsgInt || a.type == attrMessageIntegrity)
  fingerprint : d'.hasFingerprint = (d.hasFingerprint || a.type == attrFingerprint)
  left : d'.pduLen = d.pduLen - (4 + pad4 len.toNat)
  pdu : 4 ≤ d'.pduLen → d'.pdu = d.pdu.drop (4 + pad4 len.toNat)

theorem decodeStep_adds {d d' : Decoding} (h : decodeStep msghdr d = .ok d') :
    ∃ a len, Adds d a len d' := by
  unfold decodeStep at h
  obtain ⟨hdr, hhdr, h⟩ := Outcome.bind_eq_ok h
  dsimp only at h
  split at h
  · cases h
  cases hdesc : findAttrDesc hdr.1 with
  | none =>
      rw [hdesc] at h
      dsimp only at h
      split at h
      · cases h
      split at h
      · cases h
      obtain ⟨data, -, h⟩ := Outcome.bind_eq_ok h
      cases h
      have hmi : ¬ hdr.1 = attrMessageIntegrity := by
        intro ht
        rw [ht, findAttrDesc_msgint] at hdesc
        cases hdesc
      have hfp : ¬ hdr.1 = attrFingerprint := by
        intro ht
        rw [ht, findAttrDesc_fingerprint] at hdesc
        cases hdesc
      obtain ⟨hleft, hpdu⟩ := next_moves d ⟨hdr.1, hdr.2, .binary data.val⟩ (pad4 hdr.2.toNat)
      exact ⟨_, _, hhdr, rfl, .inl hdesc, by simp [Decoding.next, hmi],
        by simp [Decoding.next, hfp], hleft, hpdu⟩
  | some desc =>
      rw [hdesc] at h
      obtain ⟨a, ha, h⟩ := Outcome.bind_eq_ok h
      obtain ⟨d1, hd1, h⟩ := Outcome.bind_eq_ok h
      split at h
      · cases h
      cases h
      have ht := decodeAttr_type hhdr ha
      by_cases hord : d.hasFingerprint = false ∧
          (hdr.1 = attrMessageIntegrity → d.hasMsgInt = false)
      · rw [checkOrder_ok hord.1 hord.2] at hd1
        cases hd1
        rw [← ht] at hord
        have hhdr : getattrhdr d.pdu = .ok (a.type, hdr.2) := by rw [hhdr, ht]
        obtain ⟨hleft, hpdu⟩ := next_moves { d with
          hasMsgInt := d.hasMsgInt || hdr.1 == attrMessageIntegrity
          hasFingerprint := d.hasFingerprint || hdr.1 == attrFingerprint } a (pad4 hdr.2.toNat)
        exact ⟨a, hdr.2, hhdr, rfl, .inr hord, by rw [ht]; rfl, by rw [ht]; rfl, hleft, hpdu⟩
      · obtain ⟨e, he, -⟩ := checkOrder_error hord
        rw [he] at hd1
        cases hd1

/-- What the flags of the loop say about the attributes, and the order that it keeps. -/
structure Decoding.Ordered (d : Decoding) : Prop where
  msgInt : d.hasMsgInt = false → attrMessageIntegrity ∉ d.attrs.map Attr.type
  fingerprint : d.hasFingerprint = false → attrFingerprint ∉ d.attrs.map Attr.type
  behind : (d.attrs.map Attr.type).Pairwise fun a b => a = attrFingerprint → findAttrDesc b = none
  count : (d.attrs.map Attr.type).count attrMessageIntegrity ≤ 1

theorem Adds.ordered {d d' : Decoding} {a : Attr} {len : UInt16} (h : Adds d a len d')
    (hd : d.Ordered) : d'.Ordered := by
  have htypes : d'.attrs.map Attr.type = d.attrs.map Attr.type ++ [a.type] := by
    rw [h.attrs, List.map_append]
    rfl
  refine ⟨fun hno => ?_, fun hno => ?_, ?_, ?_⟩
  · rw [h.msgInt, Bool.or_eq_false_iff, beq_eq_false_iff_ne] at hno
    rw [htypes, List.mem_append, not_or, List.mem_singleton]
    exact ⟨hd.msgInt hno.1, fun he => hno.2 he.symm⟩
  · rw [h.fingerprint, Bool.or_eq_false_iff, beq_eq_false_iff_ne] at hno
    rw [htypes, List.mem_append, not_or, List.mem_singleton]
    exact ⟨hd.fingerprint hno.1, fun he => hno.2 he.symm⟩
  · rw [htypes]
    refine List.pairwise_append.mpr ⟨hd.behind, List.pairwise_singleton _ _, ?_⟩
    intro x hx b hb hfp
    rw [List.mem_singleton.mp hb]
    rcases h.order with hnone | ⟨hno, -⟩
    · exact hnone
    · exact absurd (hfp ▸ hx) (hd.fingerprint hno)
  · rw [htypes, List.count_append, List.count_singleton]
    by_cases hmi : a.type = attrMessageIntegrity
    · have hno : d.hasMsgInt = false := by
        rcases h.order with hnone | ⟨-, hord⟩
        · rw [hmi, findAttrDesc_msgint] at hnone
          cases hnone
        · exact hord hmi
      have hzero := List.count_eq_zero.mpr (hd.msgInt hno)
      simp [hmi, hzero]
    · have := hd.count
      simpa [hmi] using this

/-- The loop adds the attributes that stand one after the other in the buffer. -/
theorem decodeLoop_types : ∀ {fuel : Nat} {d d' : Decoding},
    decodeLoop msghdr fuel d = .ok d' → d.Ordered → d'.Ordered ∧
      d'.attrs.map Attr.type = d.attrs.map Attr.type ++ typesFrom fuel d.pdu d.pduLen
  | 0, d, d', h, hd => by
      unfold decodeLoop at h
      split at h
      · cases h
        exact ⟨hd, by rw [typesFrom, List.append_nil]⟩
      · cases h
  | fuel + 1, d, d', h, hd => by
      rw [decodeLoop] at h
      rw [typesFrom]
      split at h
      · rename_i h4
        cases h
        rw [if_pos h4, List.append_nil]
        exact ⟨hd, rfl⟩
      · rename_i h4
        obtain ⟨d1, hs, h⟩ := Outcome.bind_eq_ok h
        obtain ⟨a, len, hadds⟩ := decodeStep_adds hs
        obtain ⟨hord, htypes⟩ := decodeLoop_types h (hadds.ordered hd)
        refine ⟨hord, ?_⟩
        obtain ⟨ht, hl⟩ := getattrhdr_ok hadds.hdr
        have htail : typesFrom fuel d1.pdu d1.pduLen =
            typesFrom fuel (d.pdu.drop (4 + pad4 len.toNat)) (d.pduLen - (4 + pad4 len.toNat)) := by
          rw [← hadds.left]
          by_cases h4' : 4 ≤ d1.pduLen
          · rw [hadds.pdu h4']
          · -- Nothing more is read.
            cases fuel with
            | zero => rfl
            | succ fuel => rw [typesFrom, typesFrom, if_pos (by omega), if_pos (by omega)]
        rw [if_neg h4, ht, hl, htypes, hadds.attrs, htail]
        simp

/-- An accepted message has the attributes of the packet, in the order that the loop keeps. -/
theorem stunMsgDecode_types {env : MsgEnv} {pdu : List UInt8} {options : DecodeOptions} {msg : Msg}
    {n : Nat} (h : stunMsgDecode env pdu options = .ok (msg, n)) :
    msg.attrs.map Attr.type = attrTypes pdu ∧
      (attrTypes pdu).Pairwise (fun a b => a = attrFingerprint → findAttrDesc b = none) ∧
      (attrTypes pdu).count attrMessageIntegrity ≤ 1 := by
  have hrest : decodeRest pdu = .ok (msg, n) := by
    unfold stunMsgDecode stunMsgDecodeIn Decoding.start at h
    split at h
    · cases h
    · split at h
      · obtain ⟨_, -, h⟩ := Outcome.bind_eq_ok h
        exact h
      · exact h
  obtain ⟨hdr, hhdr, h⟩ := Outcome.bind_eq_ok hrest
  obtain ⟨d, hloop, h⟩ := Outcome.bind_eq_ok h
  have hstart : (Decoding.start pdu hdr.length).Ordered :=
    ⟨by simp [Decoding.start], by simp [Decoding.start], by simp [Decoding.start],
      by simp [Decoding.start]⟩
  obtain ⟨hord, htypes⟩ := decodeLoop_types hloop hstart
  split at h
  · cases h
  cases h
  have hpdu : attrTypes pdu = d.attrs.map Attr.type := by
    rw [htypes, attrTypes, decodeHdr_length hhdr]
    rfl
  rw [hpdu]
  exact ⟨rfl, hord.behind, hord.count⟩

/-- An accepted message is well placed exactly if nothing without a descriptor is behind
FINGERPRINT: that is all that the loop lets through. -/
theorem wellPlaced_iff {env : MsgEnv} {pdu : List UInt8} {options : DecodeOptions} {msg : Msg}
    {n : Nat} (h : stunMsgDecode env pdu options = .ok (msg, n)) :
    WellPlaced (msg.attrs.map Attr.type) ↔ RecognizedBehindFingerprint (attrTypes pdu) := by
  obtain ⟨htypes, hbehind, hcount⟩ := stunMsgDecode_types h
  rw [htypes]
  constructor
  · intro hp
    exact hp.1.imp fun hne he => absurd he hne
  · intro hp
    exact ⟨(hp.and hbehind).imp fun hab he => hab.1 he (hab.2 he), hcount⟩

end Decoder

/-! ## Both -/

/-- **Which attributes come through.** The encoder emits all attributes of a message exactly if
nothing but FINGERPRINT is behind MESSAGE-INTEGRITY, and an accepted packet is well placed exactly
if nothing without a descriptor is behind FINGERPRINT. What the encoder makes of a decoded message
is decided by the attributes of the packet. -/
theorem placement_iff (env env' : MsgEnv) (msg : Msg) (buf pdu : List UInt8) (options : Nat)
    (key : Option (List UInt8)) (dopts : DecodeOptions) :
    (∀ bytes msg', stunMsgEncode env msg buf options key = .ok (bytes, msg') →
      (EmitsAll env msg bytes ↔ OnlyFingerprintBehindMsgint (msg.attrs.map Attr.type))) ∧
    (∀ dec n, stunMsgDecode env' pdu dopts = .ok (dec, n) →
      (WellPlaced (dec.attrs.map Attr.type) ↔ RecognizedBehindFingerprint (attrTypes pdu))) ∧
    (∀ dec n bytes msg', stunMsgDecode env' pdu dopts = .ok (dec, n) →
      stunMsgEncode env dec buf options key = .ok (bytes, msg') →
        (EmitsAll env dec bytes ↔ OnlyFingerprintBehindMsgint (attrTypes pdu))) := by
  refine ⟨fun _ _ h => emitsAll_iff h, fun _ _ h => wellPlaced_iff h, ?_⟩
  intro dec n bytes msg' hdec henc
  rw [← (stunMsgDecode_types hdec).1]
  exact emitsAll_iff henc

/-- A packet with SOFTWARE and FINGERPRINT. -/
def softwarePdu : List UInt8 :=
  [0, 1, 0, 16, 0x21, 0x12, 0xA4, 0x42, 0, 0, 0, 0, 0, 0, 0, 0, 0, 0, 0, 0,
    0x80, 0x22, 0, 4, 112, 106, 115, 105, 0x80, 0x28, 0, 4, 0, 0, 0, 0]

/-- The message that is decoded from it. -/
def softwareMsg : Msg :=
  ⟨⟨1, 16, stunMagic, zeroBytes 12⟩,
    [stringAttrCreate attrSoftware [112, 106, 115, 105], uintAttrCreate attrFingerprint 0]⟩

theorem placement_iff_software : ∃ bytes msg',
    stunMsgDecode lengthSums softwarePdu ⟨false, false, false⟩ = .ok (softwareMsg, 36) ∧
    stunMsgEncode lengthSums softwareMsg (List.replicate 40 0) 0 none = .ok (bytes, msg') ∧
    WellPlaced (softwareMsg.attrs.map Attr.type) ∧ EmitsAll lengthSums softwareMsg bytes :=
  have h := placement_iff lengthSums lengthSums softwareMsg (List.replicate 40 0) softwarePdu 0 none
    ⟨false, false, false⟩
  ⟨_, _, rfl, rfl, (h.2.1 softwareMsg 36 rfl).mpr (by decide), (h.1 _ _ rfl).mpr (by decide)⟩

/-- A message with SOFTWARE behind MESSAGE-INTEGRITY. -/
def softwareBehindMsgint : Msg :=
  ⟨⟨1, 0, stunMagic, zeroBytes 12⟩,
    [msgintAttrCreate, stringAttrCreate attrSoftware [112, 106, 115, 105]]⟩

/-- A packet with an attribute of the type 0xC001 behind FINGERPRINT. -/
def unknownBehindFingerprint : List UInt8 :=
  [0, 1, 0, 12, 0x21, 0x12, 0xA4, 0x42, 0, 0, 0, 0, 0, 0, 0, 0, 0, 0, 0, 0,
    0x80, 0x28, 0, 4, 0, 0, 0, 0, 0xC0, 0x01, 0, 0]

/-- **Both fail.** SOFTWARE behind MESSAGE-INTEGRITY is left out of a message that is encoded with
success, and a packet with an attribute behind FINGERPRINT is accepted. -/
theorem stunMsgEncode_drops :
    (∃ bytes msg', stunMsgEncode lengthSums softwareBehindMsgint (List.replicate 60 0) 0
        (some [1]) = .ok (bytes, msg') ∧ ¬ EmitsAll lengthSums softwareBehindMsgint bytes) ∧
    ∃ msg, stunMsgDecode lengthSums unknownBehindFingerprint ⟨true, true, false⟩ = .ok (msg, 32) ∧
      ¬ WellPlaced (msg.attrs.map Attr.type) := by
  refine ⟨⟨_, _, rfl, ?_⟩, _, rfl, by decide⟩
  rintro ⟨length, body, heq, hall⟩
  have hwritten : 44 = body.length + 20 := (congrArg List.length heq).trans (length_written _ _ _)
  rw [hall.length] at hwritten
  exact absurd hwritten (by decide)

end Stun
