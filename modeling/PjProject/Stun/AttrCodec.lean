import PjProject.Stun.Msg

set_option autoImplicit false

/-! # The wire form of an attribute

`Coded` says that some bytes are the wire form of an attribute, whatever follows them: its header
and its value with padding, from which the decoder of its kind gets it back. `Legal.encodes`: the
encoder makes the wire form of every attribute of the creation functions.
-/

namespace Stun

open Wire

variable {msghdr : MsgHdr} {a : Attr} {bytes rest : List UInt8}

/-! ## The wire form of an attribute -/

/-- The header and what follows. -/
def wire (attrType length : UInt16) (payload : List UInt8) : List UInt8 :=
  put16 attrType ++ (put16 length ++ payload)

theorem wire_append (attrType length : UInt16) (payload rest : List UInt8) :
    wire attrType length payload ++ rest = wire attrType length (payload ++ rest) := rfl

theorem length_wire (attrType length : UInt16) (payload : List UInt8) :
    (wire attrType length payload).length = payload.length + 4 := rfl

theorem getattrhdr_wire (attrType length : UInt16) (payload : List UInt8) :
    getattrhdr (wire attrType length payload) = .ok (attrType, length) := by
  have h0 : read16 (wire attrType length payload) 0 = some attrType :=
    read16_append [] rfl attrType
  have h2 : read16 (wire attrType length payload) 2 = some length :=
    read16_append (put16 attrType) rfl length
  unfold getattrhdr
  rw [h0, h2]
  rfl

/-- A part of the payload. -/
theorem readBytes_wire {attrType length : UInt16} (pre : List UInt8) {s rest : List UInt8} {k n : Nat}
    (hpre : pre.length + 4 = k) (hs : s.length = n) :
    readBytes (wire attrType length (pre ++ (s ++ rest))) k n = some ⟨s, hs⟩ :=
  readBytes_append (wire attrType length pre) hpre hs

/-- The beginning of the payload. -/
theorem readBytes_payload {attrType length : UInt16} {s rest : List UInt8} {n : Nat}
    (hs : s.length = n) :
    readBytes (wire attrType length (s ++ rest)) 4 n = some ⟨s, hs⟩ :=
  readBytes_wire [] rfl hs

/-- The port and the address behind the family. -/
theorem readBytes_addr {attrType length : UInt16} (family : UInt8) (port : Bytes 2) {n : Nat} (addr : Bytes n)
    (rest : List UInt8) : ∀ pdu, pdu = wire attrType length ([0, family] ++ (port.val ++ addr.val) ++ rest) →
      readBytes pdu 6 2 = some port ∧ readBytes pdu 8 n = some addr := by
  rintro pdu rfl
  rw [List.append_assoc, List.append_assoc]
  refine ⟨readBytes_wire _ rfl port.property, ?_⟩
  rw [← List.append_assoc [0, family]]
  refine readBytes_wire _ ?_ addr.property
  rw [List.length_append, port.property]
  rfl

theorem decodeSockaddr_wire (attrType : UInt16) (addr : SockAddr) (rest : List UInt8) :
    decodeSockaddr (wire attrType (UInt16.ofNat addr.attrLen) (addr.wire ++ rest)) =
      .ok (attrType, UInt16.ofNat addr.attrLen, addr) := by
  unfold decodeSockaddr
  rw [getattrhdr_wire]
  cases addr with
  | ipv4 port addr =>
      obtain ⟨hp, ha⟩ := readBytes_addr 1 port addr rest
        (wire attrType 8 ((SockAddr.ipv4 port addr).wire ++ rest)) rfl
      show (inBuf (readBytes (wire attrType 8 _) 6 2) >>= fun port' =>
        inBuf (readBytes (wire attrType 8 _) 8 4) >>= fun addr' =>
          .ok (attrType, 8, SockAddr.ipv4 port' addr')) = _
      rw [hp, ha]
      rfl
  | ipv6 port addr =>
      obtain ⟨hp, ha⟩ := readBytes_addr 2 port addr rest
        (wire attrType 20 ((SockAddr.ipv6 port addr).wire ++ rest)) rfl
      show (inBuf (readBytes (wire attrType 20 _) 6 2) >>= fun port' =>
        inBuf (readBytes (wire attrType 20 _) 8 16) >>= fun addr' =>
          .ok (attrType, 20, SockAddr.ipv6 port' addr')) = _
      rw [hp, ha]
      rfl

theorem SockAddr.xor_xor (tsxId : Bytes 12) (addr : SockAddr) :
    (addr.xor tsxId).xor tsxId = addr := by
  cases addr with
  | ipv4 port addr =>
      show SockAddr.ipv4 _ _ = _
      rw [Bytes.xor_xor, Bytes.xor_xor]
  | ipv6 port addr =>
      show SockAddr.ipv6 _ _ = _
      rw [Bytes.xor_xor, Bytes.xor_xor]

theorem SockAddr.attrLen_xor (tsxId : Bytes 12) (addr : SockAddr) :
    (addr.xor tsxId).attrLen = addr.attrLen := by
  cases addr
  · rfl
  · rfl

theorem SockAddr.length_wire (addr : SockAddr) : addr.wire.length = addr.attrLen := by
  cases addr with
  | ipv4 port addr =>
      show ([0, 1] ++ (port.val ++ addr.val)).length = 8
      rw [List.length_append, List.length_append, port.property, addr.property]
      rfl
  | ipv6 port addr =>
      show ([0, 2] ++ (port.val ++ addr.val)).length = 20
      rw [List.length_append, List.length_append, port.property, addr.property]
      rfl

theorem decodeStringAttr_wire {attrType length : UInt16} {value : List UInt8}
    (hl : value.length = length.toNat) (rest : List UInt8) :
    decodeStringAttr (wire attrType length (value ++ rest)) =
      .ok ⟨attrType, length, .string value⟩ := by
  unfold decodeStringAttr
  rw [getattrhdr_wire]
  show (inBuf (readBytes (wire attrType length (value ++ rest)) 4 length.toNat) >>= _) = _
  rw [readBytes_payload hl]
  rfl

theorem decodeBinaryAttr_wire {attrType length : UInt16} {data : List UInt8}
    (hl : data.length = length.toNat) (rest : List UInt8) :
    decodeBinaryAttr (wire attrType length (data ++ rest)) =
      .ok ⟨attrType, length, .binary data⟩ := by
  unfold decodeBinaryAttr
  rw [getattrhdr_wire]
  show (inBuf (readBytes (wire attrType length (data ++ rest)) 4 length.toNat) >>= _) = _
  rw [readBytes_payload hl]
  rfl

theorem decodeEmptyAttr_wire (attrType : UInt16) (rest : List UInt8) :
    decodeEmptyAttr (wire attrType 0 rest) = .ok ⟨attrType, 0, .empty⟩ := by
  unfold decodeEmptyAttr
  rw [getattrhdr_wire]
  rfl

theorem decodeUintAttr_wire (attrType : UInt16) (value : UInt32) (rest : List UInt8) :
    decodeUintAttr (wire attrType 4 (put32 value ++ rest)) =
      .ok ⟨attrType, 4, .uint value⟩ := by
  have hv : read32 (wire attrType 4 (put32 value ++ rest)) 4 = some value :=
    read32_append (wire attrType 4 []) rfl value
  unfold decodeUintAttr
  rw [getattrhdr_wire, hv]
  rfl

theorem decodeUint64Attr_wire (attrType : UInt16) (hi lo : UInt32) (rest : List UInt8) :
    decodeUint64Attr (wire attrType 8 (put32 hi ++ (put32 lo ++ rest))) =
      .ok ⟨attrType, 8, .uint64 hi lo⟩ := by
  have hh : read32 (wire attrType 8 (put32 hi ++ (put32 lo ++ rest))) 4 = some hi :=
    read32_append (wire attrType 8 []) rfl hi
  have hl : read32 (wire attrType 8 (put32 hi ++ (put32 lo ++ rest))) 8 = some lo :=
    read32_append (wire attrType 8 (put32 hi)) rfl lo
  unfold decodeUint64Attr
  rw [getattrhdr_wire, hh, hl]
  rfl

theorem decodeMsgintAttr_wire (attrType : UInt16) (hmac : Bytes 20) (rest : List UInt8) :
    decodeMsgintAttr (wire attrType 20 (hmac.val ++ rest)) =
      .ok ⟨attrType, 20, .msgint hmac⟩ := by
  have hh : readBytes (wire attrType 20 (hmac.val ++ rest)) 4 20 = some hmac :=
    readBytes_payload hmac.property
  unfold decodeMsgintAttr
  rw [getattrhdr_wire, hh]
  rfl

theorem decodeErrcodeAttr_wire {attrType length : UInt16} {errCode : Nat} {reason : List UInt8}
    (hc : errCode < 25600) (hl : length.toNat = 4 + reason.length) (rest : List UInt8) :
    decodeErrcodeAttr (wire attrType length
      ([0, 0, UInt8.ofNat (errCode / 100), UInt8.ofNat (errCode % 100)] ++ (reason ++ rest))) =
      .ok ⟨attrType, length, .errcode errCode reason⟩ := by
  have hlen : ¬ length < 4 := by
    rw [UInt16.lt_iff_toNat_lt, hl]
    show ¬ 4 + reason.length < 4
    omega
  have hr : readBytes (wire attrType length
      ([0, 0, UInt8.ofNat (errCode / 100), UInt8.ofNat (errCode % 100)] ++ (reason ++ rest))) 8
      (length.toNat - 4) = some ⟨reason, by rw [hl]; omega⟩ :=
    readBytes_wire _ rfl (by rw [hl]; omega)
  have hcode : (UInt8.ofNat (errCode / 100)).toNat * 100 + (UInt8.ofNat (errCode % 100)).toNat =
      errCode := by
    rw [UInt8.toNat_ofNat', UInt8.toNat_ofNat']
    omega
  unfold decodeErrcodeAttr
  rw [getattrhdr_wire]
  show (if length < 4 then Except.error MsgStatus.overread else
    inBuf (readBytes (wire attrType length ([0, 0, UInt8.ofNat (errCode / 100),
      UInt8.ofNat (errCode % 100)] ++ (reason ++ rest))) 8 (length.toNat - 4)) >>= fun reason =>
        .ok (⟨attrType, length, .errcode ((UInt8.ofNat (errCode / 100)).toNat * 100 +
          (UInt8.ofNat (errCode % 100)).toNat) reason.val⟩ : Attr)) = _
  rw [if_neg hlen, hr, hcode]
  rfl

theorem get16s_flatMap : ∀ attrs : List UInt16, get16s (attrs.flatMap put16) = attrs
  | [] => rfl
  | v :: attrs => by
      show get16 _ _ :: get16s (attrs.flatMap put16) = v :: attrs
      rw [get16_put16, get16s_flatMap attrs]

theorem length_flatMap_put16 : ∀ attrs : List UInt16,
    (attrs.flatMap put16).length = attrs.length * 2
  | [] => rfl
  | v :: attrs => by
      rw [List.flatMap_cons, List.length_append, length_flatMap_put16 attrs, length_put16,
        List.length_cons]
      omega

theorem decodeUnknownAttr_wire {attrType length : UInt16} {attrs : List UInt16}
    (hl : length.toNat = attrs.length * 2) (hmax : attrs.length ≤ stunMaxAttr)
    (rest : List UInt8) :
    decodeUnknownAttr (wire attrType length (attrs.flatMap put16 ++ rest)) =
      .ok ⟨attrType, length, .unknown attrs⟩ := by
  have hcount : length.toNat / 2 = attrs.length := by omega
  have hr : readBytes (wire attrType length (attrs.flatMap put16 ++ rest)) 4
      (length.toNat / 2 * 2) =
        some ⟨attrs.flatMap put16, by rw [length_flatMap_put16, hcount]⟩ :=
    readBytes_payload (by rw [length_flatMap_put16, hcount])
  unfold decodeUnknownAttr
  rw [getattrhdr_wire]
  show (if stunMaxAttr < length.toNat / 2 then Except.error MsgStatus.etoomany else
    inBuf (readBytes (wire attrType length (attrs.flatMap put16 ++ rest)) 4
      (length.toNat / 2 * 2)) >>= fun attrs =>
        .ok (⟨attrType, length, .unknown (get16s attrs.val)⟩ : Attr)) = _
  rw [if_neg (by rw [hcount]; exact Nat.not_lt.mpr hmax), hr]
  show Except.ok (⟨attrType, length, .unknown (get16s (attrs.flatMap put16))⟩ : Attr) = _
  rw [get16s_flatMap]

/-! ## Every kind of attribute -/

/-- The attribute is what the loop of the decoder gets from the buffer. -/
def Decodes (msghdr : MsgHdr) (a : Attr) (buf : List UInt8) : Prop :=
  match findAttrDesc a.type with
  | some desc => decodeAttr msghdr buf desc = .ok a
  | none => ¬ a.type ≤ 0x7FFF ∧ decodeBinaryAttr buf = .ok a

/-- The bytes are the wire form of the attribute. -/
structure Coded (msghdr : MsgHdr) (a : Attr) (bytes : List UInt8) : Prop where
  payload : ∃ payload, bytes = wire a.type a.length payload ∧
    payload.length = pad4 a.length.toNat
  decodes : ∀ rest, Decodes msghdr a (bytes ++ rest)

/-- The bytes that the value takes, without padding. -/
def AttrValue.size : AttrValue → Nat
  | .sockaddr _ addr => addr.attrLen
  | .string value => value.length
  | .empty => 0
  | .uint _ => 4
  | .uint64 _ _ => 8
  | .msgint _ => 20
  | .errcode _ reason => 4 + reason.length
  | .unknown attrs => attrs.length * 2
  | .binary data => data.length

/-- The bytes that the attribute takes. -/
def Attr.wireLen (a : Attr) : Nat := 4 + pad4 a.value.size

theorem Attr.wireLen_eq {n : Nat} (h : a.value.size = n) (hn : n % 4 = 0) : a.wireLen = n + 4 := by
  unfold Attr.wireLen
  rw [h, pad4_of_mod hn, Nat.add_comm]

/-- An attribute of a creation function, of a type that has the kind of that function in the table.
The type of a binary attribute without a place in the table is one that may be ignored. -/
inductive Legal : Attr → Prop where
  | sockaddr (t : UInt16) (addr : SockAddr) (h : findAttrDesc t = some .sockaddr) :
      Legal (sockaddrAttrCreate t false addr)
  | xoredSockaddr (t : UInt16) (addr : SockAddr) (h : findAttrDesc t = some .xoredSockaddr) :
      Legal (sockaddrAttrCreate t true addr)
  | string (t : UInt16) (value : List UInt8) (h : findAttrDesc t = some .string)
      (hs : t = attrSoftware → value.length % 4 = 0) : Legal (stringAttrCreate t value)
  | empty (t : UInt16) (h : findAttrDesc t = some .empty) : Legal (emptyAttrCreate t)
  | uint (t : UInt16) (value : UInt32) (h : findAttrDesc t = some .uint)
      (hf : t ≠ attrFingerprint) : Legal (uintAttrCreate t value)
  | uint64 (t : UInt16) (value : Option (UInt32 × UInt32)) (h : findAttrDesc t = some .uint64) :
      Legal (uint64AttrCreate t value)
  | errcode (errCode : Nat) (reason : List UInt8) (hc : 100 ≤ errCode ∧ errCode ≤ 25599) (a : Attr)
      (ha : errcodeAttrCreate errCode reason = .ok a) : Legal a
  | unknown (attrs : List UInt16) (a : Attr) (ha : unknownAttrCreate attrs = .ok a) : Legal a
  | binary (t : UInt16) (data : List UInt8)
      (h : findAttrDesc t = some .binary ∨ findAttrDesc t = none ∧ ¬ t ≤ 0x7FFF) (a : Attr)
      (ha : binaryAttrCreate t data = .ok a) : Legal a

variable {env : MsgEnv} {buf : List UInt8}

theorem toNat_length {n : Nat} (h : n < 65536) : (UInt16.ofNat n).toNat = n := by
  rw [UInt16.toNat_ofNat']
  exact Nat.mod_eq_of_lt h

/-- A value with its padding. -/
theorem length_padded {value pad : List UInt8}
    (h : pad.length = pad4 value.length - value.length) :
    (value ++ pad).length = pad4 value.length := by
  have hle := le_pad4 value.length
  rw [List.length_append, h]
  omega

theorem length_kept (buf : List UInt8) (pos n : Nat) : (kept buf pos n).length = n := by
  unfold kept
  rw [List.length_map, List.length_range]

/-- The wire form of an attribute that has a decoder. -/
theorem coded_of_decodeAttr (desc : AttrDesc) {t length : UInt16} {value : AttrValue}
    {payload : List UInt8} (h : findAttrDesc t = some desc)
    (hp : payload.length = pad4 length.toNat)
    (hd : ∀ rest, decodeAttr msghdr (wire t length (payload ++ rest)) desc =
      .ok ⟨t, length, value⟩) : Coded msghdr ⟨t, length, value⟩ (wire t length payload) := by
  refine ⟨⟨payload, rfl, hp⟩, fun rest => ?_⟩
  unfold Decodes
  dsimp only
  rw [h]
  exact hd rest

/-- What an encoder returns: the wire form of the attribute, with its padding. -/
def Encodes (env : MsgEnv) (msghdr : MsgHdr) (a : Attr) (buf : List UInt8) : Prop :=
  ∃ bytes, encodeAttr env msghdr a buf = .ok bytes ∧ bytes.length = a.wireLen ∧
    Coded msghdr a bytes

theorem encodes_sockaddr {t : UInt16} {addr : SockAddr} {desc : AttrDesc} {xorEd : Bool}
    (h : findAttrDesc t = some desc)
    (hk : desc = .sockaddr ∧ xorEd = false ∨ desc = .xoredSockaddr ∧ xorEd = true)
    (hbuf : (sockaddrAttrCreate t xorEd addr).wireLen ≤ buf.length) :
    Encodes env msghdr (sockaddrAttrCreate t xorEd addr) buf := by
  have hmod : addr.attrLen % 4 = 0 := by
    cases addr
    · exact (by decide : 8 % 4 = 0)
    · exact (by decide : 20 % 4 = 0)
  have hlen : (UInt16.ofNat addr.attrLen).toNat = addr.attrLen := by
    cases addr
    · rfl
    · rfl
  have hroom : ¬ buf.length < 4 + addr.attrLen := by
    have hbuf : 4 + pad4 addr.attrLen ≤ buf.length := hbuf
    rw [pad4_of_mod hmod] at hbuf
    exact Nat.not_lt.mpr hbuf
  -- The address as it is sent.
  have hsent : ∀ addr' : SockAddr, addr'.attrLen = addr.attrLen →
      (wire t (UInt16.ofNat addr.attrLen) addr'.wire).length =
        (sockaddrAttrCreate t xorEd addr).wireLen ∧
      addr'.wire.length = pad4 (UInt16.ofNat addr.attrLen).toNat := by
    intro addr' hl
    have hw : addr'.wire.length = pad4 addr.attrLen := by
      rw [addr'.length_wire, hl, pad4_of_mod hmod]
    refine ⟨?_, by rw [hlen]; exact hw⟩
    rw [length_wire, hw]
    exact Nat.add_comm _ _
  rcases hk with ⟨rfl, rfl⟩ | ⟨rfl, rfl⟩
  · refine ⟨wire t (UInt16.ofNat addr.attrLen) addr.wire, ?_, (hsent addr rfl).1,
      coded_of_decodeAttr _ h (hsent addr rfl).2 fun rest => ?_⟩
    · unfold encodeAttr sockaddrAttrCreate
      dsimp only
      rw [h]
      show encodeSockaddrAttr msghdr t false addr buf = _
      unfold encodeSockaddrAttr
      rw [if_neg hroom]
      rfl
    · show decodeSockaddrAttr _ = _
      unfold decodeSockaddrAttr
      rw [decodeSockaddr_wire]
      rfl
  · have hx := addr.attrLen_xor msghdr.tsxId
    refine ⟨wire t (UInt16.ofNat addr.attrLen) (addr.xor msghdr.tsxId).wire, ?_, (hsent _ hx).1,
      coded_of_decodeAttr _ h (hsent _ hx).2 fun rest => ?_⟩
    · unfold encodeAttr sockaddrAttrCreate
      dsimp only
      rw [h]
      show encodeSockaddrAttr msghdr t true addr buf = _
      unfold encodeSockaddrAttr
      rw [if_neg hroom]
      rfl
    · show decodeXoredSockaddrAttr msghdr _ = _
      unfold decodeXoredSockaddrAttr
      rw [← hx, decodeSockaddr_wire]
      show Except.ok (⟨t, _, .sockaddr true ((addr.xor msghdr.tsxId).xor msghdr.tsxId)⟩ : Attr) = _
      rw [SockAddr.xor_xor]

theorem encodes_string {t : UInt16} {value : List UInt8} (hm : msghdr.magic = stunMagic)
    (h : findAttrDesc t = some .string) (hs : t = attrSoftware → value.length % 4 = 0)
    (hsize : value.length < 65536) (hbuf : (stringAttrCreate t value).wireLen ≤ buf.length) :
    Encodes env msghdr (stringAttrCreate t value) buf := by
  have hlen := toNat_length hsize
  have hpad : (value ++ List.replicate (pad4 value.length - value.length) env.paddingChar).length =
      pad4 value.length := length_padded List.length_replicate
  refine ⟨wire t (UInt16.ofNat value.length)
    (value ++ List.replicate (pad4 value.length - value.length) env.paddingChar), ?_, ?_,
    coded_of_decodeAttr _ h (by rw [hlen]; exact hpad) fun rest => ?_⟩
  · unfold encodeAttr stringAttrCreate
    dsimp only
    rw [h]
    show encodeStringAttr env msghdr t value buf = _
    have hroom : ¬ buf.length < pad4 (value.length + 4) := by
      rw [pad4_add_four, Nat.add_comm]
      exact Nat.not_lt.mpr hbuf
    have hfield : (if msghdr.magic ≠ stunMagic ∨ t = attrSoftware then pad4 value.length
        else value.length) = value.length := by
      split
      · rename_i hc
        exact pad4_of_mod (hs (hc.resolve_left fun hne => hne hm))
      · rfl
    unfold encodeStringAttr
    rw [if_neg hroom, hfield]
    rfl
  · rw [length_wire, hpad]
    exact Nat.add_comm _ _
  · rw [List.append_assoc]
    exact decodeStringAttr_wire hlen.symm _

theorem encodes_binary {t : UInt16} {data : List UInt8}
    (h : findAttrDesc t = some .binary ∨ findAttrDesc t = none ∧ ¬ t ≤ 0x7FFF)
    (hsize : data.length < 65536)
    (hbuf : Attr.wireLen ⟨t, UInt16.ofNat data.length, .binary data⟩ ≤ buf.length) :
    Encodes env msghdr ⟨t, UInt16.ofNat data.length, .binary data⟩ buf := by
  have hlen := toNat_length hsize
  have hpad : (data ++ kept buf (4 + data.length) (pad4 data.length - data.length)).length =
      pad4 data.length := length_padded (length_kept _ _ _)
  have hroom : ¬ buf.length < pad4 (data.length + 4) := by
    rw [pad4_add_four, Nat.add_comm]
    exact Nat.not_lt.mpr hbuf
  have henc : encodeAttr env msghdr ⟨t, UInt16.ofNat data.length, .binary data⟩ buf =
      encodeBinaryAttr t data buf := by
    unfold encodeAttr
    dsimp only
    rcases h with h | h
    · rw [h]
    · rw [h.1]
  have hdec : ∀ rest, decodeBinaryAttr (wire t (UInt16.ofNat data.length)
      (data ++ kept buf (4 + data.length) (pad4 data.length - data.length)) ++ rest) =
        .ok ⟨t, UInt16.ofNat data.length, .binary data⟩ := by
    intro rest
    rw [wire_append, List.append_assoc]
    exact decodeBinaryAttr_wire hlen.symm _
  refine ⟨_, ?_, ?_, ⟨_, rfl, by rw [hlen]; exact hpad⟩, fun rest => ?_⟩
  · rw [henc]
    unfold encodeBinaryAttr
    rw [if_neg hroom]
    rfl
  · rw [length_wire, hpad]
    exact Nat.add_comm _ _
  · unfold Decodes
    dsimp only
    rcases h with h | h
    · rw [h]
      exact hdec rest
    · rw [h.1]
      exact ⟨h.2, hdec rest⟩

theorem encodes_empty {t : UInt16} (h : findAttrDesc t = some .empty)
    (hbuf : (emptyAttrCreate t).wireLen ≤ buf.length) :
    Encodes env msghdr (emptyAttrCreate t) buf := by
  have hlen : (emptyAttrCreate t).wireLen = 0 + 4 := Attr.wireLen_eq rfl rfl
  rw [hlen] at hbuf
  have hroom : ¬ buf.length < 4 := Nat.not_lt.mpr hbuf
  refine ⟨wire t 0 [], ?_, hlen.symm,
    coded_of_decodeAttr _ h (by decide) fun rest => decodeEmptyAttr_wire t rest⟩
  unfold encodeAttr emptyAttrCreate
  dsimp only
  rw [h]
  show encodeEmptyAttr t buf = _
  unfold encodeEmptyAttr
  rw [if_neg hroom]
  rfl

theorem encodes_uint {t : UInt16} {value : UInt32} (h : findAttrDesc t = some .uint)
    (hbuf : (uintAttrCreate t value).wireLen ≤ buf.length) :
    Encodes env msghdr (uintAttrCreate t value) buf := by
  have hlen : (uintAttrCreate t value).wireLen = 4 + 4 := Attr.wireLen_eq rfl rfl
  rw [hlen] at hbuf
  have hroom : ¬ buf.length < 8 := Nat.not_lt.mpr hbuf
  refine ⟨wire t 4 (put32 value), ?_, hlen.symm, coded_of_decodeAttr _ h (length_put32 value)
    fun rest => decodeUintAttr_wire t value rest⟩
  unfold encodeAttr uintAttrCreate
  dsimp only
  rw [h]
  show encodeUintAttr t value buf = _
  unfold encodeUintAttr
  rw [if_neg hroom]
  rfl

theorem encodes_uint64 {t : UInt16} {value : Option (UInt32 × UInt32)}
    (h : findAttrDesc t = some .uint64)
    (hbuf : (uint64AttrCreate t value).wireLen ≤ buf.length) :
    Encodes env msghdr (uint64AttrCreate t value) buf := by
  have hlen : (uint64AttrCreate t value).wireLen = 8 + 4 := Attr.wireLen_eq rfl rfl
  rw [hlen] at hbuf
  have hroom : ¬ buf.length < 12 := Nat.not_lt.mpr hbuf
  refine ⟨wire t 8 (put32 (value.getD (0, 0)).1 ++ put32 (value.getD (0, 0)).2), ?_, hlen.symm,
    coded_of_decodeAttr _ h (pad4_of_mod (n := 8) rfl).symm
      fun rest => decodeUint64Attr_wire t _ _ rest⟩
  unfold encodeAttr uint64AttrCreate
  dsimp only
  rw [h]
  show encodeUint64Attr t _ _ buf = _
  unfold encodeUint64Attr
  rw [if_neg hroom]
  rfl

theorem encodes_errcode {errCode : Nat} {reason : List UInt8} (hc : errCode ≤ 25599)
    (hsize : 4 + reason.length < 65536)
    (hbuf : Attr.wireLen ⟨attrErrorCode, UInt16.ofNat (4 + reason.length),
      .errcode errCode reason⟩ ≤ buf.length) :
    Encodes env msghdr ⟨attrErrorCode, UInt16.ofNat (4 + reason.length), .errcode errCode reason⟩
      buf := by
  have hlen := toNat_length hsize
  have hpad4 : pad4 (4 + reason.length) = pad4 reason.length + 4 := by
    rw [Nat.add_comm, pad4_add_four]
  have hpad : ([0, 0, UInt8.ofNat (errCode / 100), UInt8.ofNat (errCode % 100)] ++ (reason ++
      kept buf (8 + reason.length) (pad4 reason.length - reason.length))).length =
        pad4 (4 + reason.length) := by
    rw [List.length_append, length_padded (length_kept _ _ _), hpad4]
    exact Nat.add_comm _ _
  have hroom : ¬ buf.length < 8 + reason.length := by
    have hbuf : 4 + pad4 (4 + reason.length) ≤ buf.length := hbuf
    have hle := le_pad4 reason.length
    omega
  refine ⟨wire attrErrorCode (UInt16.ofNat (4 + reason.length)) _, ?_, ?_,
    coded_of_decodeAttr .errcode rfl (by rw [hlen]; exact hpad) fun rest => ?_⟩
  · show encodeErrcodeAttr attrErrorCode errCode reason buf = _
    unfold encodeErrcodeAttr
    rw [if_neg hroom]
    rfl
  · rw [length_wire, hpad]
    exact Nat.add_comm _ _
  · rw [List.append_assoc, List.append_assoc]
    exact decodeErrcodeAttr_wire (Nat.lt_succ_of_le hc) hlen _

theorem encodes_unknown {attrs : List UInt16} (hmax : attrs.length < stunMaxAttr)
    (hbuf : Attr.wireLen ⟨attrUnknownAttributes, UInt16.ofNat (attrs.length * 2),
      .unknown attrs⟩ ≤ buf.length) :
    Encodes env msghdr ⟨attrUnknownAttributes, UInt16.ofNat (attrs.length * 2), .unknown attrs⟩
      buf := by
  have hsmall : attrs.length * 2 < 65536 := by
    have : attrs.length < 16 := hmax
    omega
  have hlen := toNat_length hsmall
  have hpad : (attrs.flatMap put16 ++ kept buf (4 + attrs.length * 2)
      (pad4 (attrs.length * 2) - attrs.length * 2)).length = pad4 (attrs.length * 2) := by
    rw [length_padded, length_flatMap_put16]
    rw [length_kept, length_flatMap_put16]
  have hroom : ¬ buf.length < 4 + attrs.length * 2 := by
    have hbuf : 4 + pad4 (attrs.length * 2) ≤ buf.length := hbuf
    have hle := le_pad4 (attrs.length * 2)
    omega
  refine ⟨wire attrUnknownAttributes (UInt16.ofNat (attrs.length * 2)) _, ?_, ?_,
    coded_of_decodeAttr .unknown rfl (by rw [hlen]; exact hpad) fun rest => ?_⟩
  · show encodeUnknownAttr attrUnknownAttributes attrs buf = _
    unfold encodeUnknownAttr
    rw [if_neg hroom]
    rfl
  · rw [length_wire, hpad]
    exact Nat.add_comm _ _
  · rw [List.append_assoc]
    exact decodeUnknownAttr_wire hlen hmax.le _

/-- Every legal attribute has a wire form. -/
theorem Legal.encodes (h : Legal a) (hm : msghdr.magic = stunMagic) (hsize : a.value.size < 65536)
    (hbuf : a.wireLen ≤ buf.length) : Encodes env msghdr a buf := by
  cases h with
  | sockaddr t addr h => exact encodes_sockaddr h (Or.inl ⟨rfl, rfl⟩) hbuf
  | xoredSockaddr t addr h => exact encodes_sockaddr h (Or.inr ⟨rfl, rfl⟩) hbuf
  | string t value h hs => exact encodes_string hm h hs hsize hbuf
  | empty t h => exact encodes_empty h hbuf
  | uint t value h _ => exact encodes_uint h hbuf
  | uint64 t value h => exact encodes_uint64 h hbuf
  | errcode errCode reason hc a ha =>
      unfold errcodeAttrCreate at ha
      split at ha
      · cases ha
      · cases ha
        exact encodes_errcode hc.2 hsize hbuf
  | unknown attrs a ha =>
      unfold unknownAttrCreate at ha
      split at ha
      · rename_i hmax
        cases ha
        exact encodes_unknown hmax hbuf
      · cases ha
  | binary t data h a ha =>
      unfold binaryAttrCreate at ha
      split at ha
      · cases ha
      · cases ha
        exact encodes_binary h hsize hbuf

theorem findAttrDesc_msgint : findAttrDesc attrMessageIntegrity = some .msgint := by decide

theorem findAttrDesc_fingerprint : findAttrDesc attrFingerprint = some .uint := by decide

/-- A legal attribute is not one of the sums. -/
theorem Legal.not_sum (h : Legal a) : a.isSum = false := by
  have hkind : ∀ {t : UInt16} {desc : AttrDesc}, findAttrDesc t = some desc →
      desc ≠ .msgint → (desc = .uint → t ≠ attrFingerprint) →
      (t == attrMessageIntegrity || t == attrFingerprint) = false := by
    intro t desc h hne hf
    rw [Bool.or_eq_false_iff, beq_eq_false_iff_ne, beq_eq_false_iff_ne]
    refine ⟨fun ht => ?_, fun ht => ?_⟩
    · rw [ht] at h
      exact hne (Option.some.inj h).symm
    · refine hf ?_ ht
      rw [ht] at h
      exact (Option.some.inj h).symm
  cases h with
  | sockaddr t addr h => exact hkind h nofun nofun
  | xoredSockaddr t addr h => exact hkind h nofun nofun
  | string t value h _ => exact hkind h nofun nofun
  | empty t h => exact hkind h nofun nofun
  | uint t value h hf => exact hkind h nofun fun _ => hf
  | uint64 t value h => exact hkind h nofun nofun
  | errcode errCode reason hc a ha =>
      unfold errcodeAttrCreate at ha
      split at ha
      · cases ha
      · cases ha
        rfl
  | unknown attrs a ha =>
      unfold unknownAttrCreate at ha
      split at ha
      · cases ha
        rfl
      · cases ha
  | binary t data h a ha =>
      unfold binaryAttrCreate at ha
      split at ha
      · cases ha
      · cases ha
        rcases h with h | h
        · exact hkind h nofun nofun
        · show (t == attrMessageIntegrity || t == attrFingerprint) = false
          rw [Bool.or_eq_false_iff, beq_eq_false_iff_ne, beq_eq_false_iff_ne]
          refine ⟨fun ht => ?_, fun ht => ?_⟩
          · rw [ht] at h
            cases h.1
          · rw [ht] at h
            cases h.1

end Stun
