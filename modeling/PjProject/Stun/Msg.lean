import PjProject.Library.Outcome
import PjProject.Library.Wire

set_option autoImplicit false

/-! # STUN messages

`pjnath/src/pjnath/stun_msg.c`: the attributes of a STUN message, how each kind is created, encoded
and decoded, and `pj_stun_msg_encode` and `pj_stun_msg_decode`. A buffer is the list of its bytes,
read from the position of a pointer to its end. Where the source reads or writes beyond the end the
model stops with `overread` or `overrun`, where it takes an attribute for one of another kind, with
`badCast`.

HMAC-SHA1 and CRC-32 are functions of the `Env`. The response that the decoder prepares for a
request in error, the texts of error codes and the cloning of messages are left out.
-/

namespace Stun

open Wire

/-- The statuses of this file, and the ways in which memory is misused. -/
inductive MsgStatus where
  | einval
  | einvalidop
  | ebug
  | etoosmall
  | etoomany
  | einvaf
  | einstunmsglen
  | einstunmsgtype
  | estuninattrlen
  | estuntoomanyattr
  | estundupattr
  | estunfingerpos
  | estunmsgintpos
  | estunfingerprint
  | unknownAttribute
  | overread
  | overrun
  | badCast
  | noFuel
  deriving DecidableEq

/-! ## The data model -/

/-- `pj_stun_msg_hdr`. -/
structure MsgHdr where
  type : UInt16
  length : UInt16
  magic : UInt32
  tsxId : Bytes 12
  deriving DecidableEq

/-- A socket address as the attributes use it; port and address are in network byte order. -/
inductive SockAddr where
  | ipv4 (port : Bytes 2) (addr : Bytes 4)
  | ipv6 (port : Bytes 2) (addr : Bytes 16)
  deriving DecidableEq

/-- What an attribute carries after its header, by the kind of its struct. -/
inductive AttrValue where
  | sockaddr (xorEd : Bool) (addr : SockAddr)
  | string (value : List UInt8)
  | empty
  | uint (value : UInt32)
  | uint64 (hi lo : UInt32)
  | msgint (hmac : Bytes 20)
  | errcode (errCode : Nat) (reason : List UInt8)
  | unknown (attrs : List UInt16)
  | binary (data : List UInt8)
  deriving DecidableEq

/-- An attribute: `pj_stun_attr_hdr` and the value. -/
structure Attr where
  type : UInt16
  length : UInt16
  value : AttrValue
  deriving DecidableEq

/-- `pj_stun_msg`. -/
structure Msg where
  hdr : MsgHdr
  attrs : List Attr
  deriving DecidableEq

/-- What the encoder takes from elsewhere: the padding character and the two sums. -/
structure MsgEnv where
  paddingChar : UInt8
  hmacSha1 : List UInt8 → List UInt8 → Bytes 20
  crc32 : List UInt8 → UInt32

/-- `PJ_STUN_MAGIC`. -/
def stunMagic : UInt32 := 0x2112A442

/-- `PJ_STUN_MAX_ATTR`. -/
def stunMaxAttr : Nat := 16

/-- `STUN_XOR_FINGERPRINT`. -/
def stunXorFingerprint : UInt32 := 0x5354554e

def attrMessageIntegrity : UInt16 := 0x0008
def attrErrorCode : UInt16 := 0x0009
def attrUnknownAttributes : UInt16 := 0x000A
def attrEndMandatoryAttr : UInt16 := 0x0031
def attrStartExtendedAttr : UInt16 := 0x8021
def attrSoftware : UInt16 := 0x8022
def attrFingerprint : UInt16 := 0x8028
def attrEndExtendedAttr : UInt16 := 0x802B

/-! ## The table of attributes -/

/-- The decoder and the encoder of an `attr_desc`. -/
inductive AttrDesc where
  | sockaddr
  | xoredSockaddr
  | string
  | msgint
  | errcode
  | unknown
  | uint
  | uint64
  | binary
  | empty
  deriving DecidableEq

/-- `mandatory_attr_desc`. -/
def mandatoryAttrDesc : List (Option AttrDesc) :=
  [none, some .sockaddr, some .sockaddr, some .uint, some .sockaddr, some .sockaddr, some .string,
   some .string, some .msgint, some .errcode, some .unknown, some .sockaddr, some .uint, some .uint,
   none, some .uint, some .uint, none, some .xoredSockaddr, some .binary, some .string, some .string,
   some .xoredSockaddr, some .uint, some .uint, some .uint, some .empty, none, none, none, none,
   none, some .xoredSockaddr, some .uint, some .uint64, some .xoredSockaddr, some .uint, some .empty,
   none, none, none, none, none, none, none, none, none, none, some .uint]

/-- `extended_attr_desc`. -/
def extendedAttrDesc : List (Option AttrDesc) :=
  [none, some .string, some .sockaddr, some .uint, none, none, none, some .uint, some .uint64,
   some .uint64]

/-- `find_attr_desc`. -/
def findAttrDesc (attrType : UInt16) : Option AttrDesc :=
  if attrType < attrEndMandatoryAttr then mandatoryAttrDesc.getD attrType.toNat none
  else if attrStartExtendedAttr ≤ attrType ∧ attrType < attrEndExtendedAttr then
    extendedAttrDesc.getD (attrType.toNat - attrStartExtendedAttr.toNat) none
  else none

/-! ## Creating attributes -/

/-- `pj_sockaddr_get_addr_len` and the four bytes before the address. -/
def SockAddr.attrLen : SockAddr → Nat
  | .ipv4 _ _ => 8
  | .ipv6 _ _ => 20

/-- `pj_stun_sockaddr_attr_create`. -/
def sockaddrAttrCreate (attrType : UInt16) (xorEd : Bool) (addr : SockAddr) : Attr :=
  ⟨attrType, UInt16.ofNat addr.attrLen, .sockaddr xorEd addr⟩

/-- `pj_stun_string_attr_create`. -/
def stringAttrCreate (attrType : UInt16) (value : List UInt8) : Attr :=
  ⟨attrType, UInt16.ofNat value.length, .string value⟩

/-- `pj_stun_empty_attr_create`. -/
def emptyAttrCreate (attrType : UInt16) : Attr := ⟨attrType, 0, .empty⟩

/-- `pj_stun_uint_attr_create`. -/
def uintAttrCreate (attrType : UInt16) (value : UInt32) : Attr := ⟨attrType, 4, .uint value⟩

/-- `pj_stun_uint64_attr_create`. -/
def uint64AttrCreate (attrType : UInt16) (value : Option (UInt32 × UInt32)) : Attr :=
  ⟨attrType, 8, .uint64 (value.getD (0, 0)).1 (value.getD (0, 0)).2⟩

/-- `pj_stun_msgint_attr_create`. -/
def msgintAttrCreate : Attr :=
  ⟨attrMessageIntegrity, 20, .msgint (zeroBytes 20)⟩

/-- `pj_stun_errcode_attr_create` with a reason. -/
def errcodeAttrCreate (errCode : Nat) (reason : List UInt8) : Except MsgStatus Attr :=
  if errCode = 0 then .error .einval
  else .ok ⟨attrErrorCode, UInt16.ofNat (4 + reason.length), .errcode errCode reason⟩

/-- `pj_stun_unknown_attr_create`. -/
def unknownAttrCreate (attrs : List UInt16) : Except MsgStatus Attr :=
  if attrs.length < stunMaxAttr then
    .ok ⟨attrUnknownAttributes, UInt16.ofNat (attrs.length * 2), .unknown attrs⟩
  else .error .einval

/-- `pj_stun_binary_attr_create`. -/
def binaryAttrCreate (attrType : UInt16) (data : List UInt8) : Except MsgStatus Attr :=
  if attrType = 0 then .error .einval
  else .ok ⟨attrType, UInt16.ofNat data.length, .binary data⟩

/-! ## Addresses -/

/-- `PJ_STUN_MAGIC` in network byte order. -/
def magicBytes : Bytes 4 := ⟨put32 stunMagic, rfl⟩

/-- The upper half of `PJ_STUN_MAGIC` in network byte order. -/
def magicPort : Bytes 2 := ⟨(put32 stunMagic).take 2, rfl⟩

/-- The exclusive or of an address with the magic and the transaction. -/
def SockAddr.xor (tsxId : Bytes 12) : SockAddr → SockAddr
  | .ipv4 port addr => .ipv4 (port.xor magicPort) (addr.xor magicBytes)
  | .ipv6 port addr =>
      .ipv6 (port.xor magicPort) (addr.xor
        ⟨magicBytes.val ++ tsxId.val, by
          rw [List.length_append, magicBytes.property, tsxId.property]⟩)

/-- What an attribute carries of an address. -/
def SockAddr.wire : SockAddr → List UInt8
  | .ipv4 port addr => [0, 1] ++ (port.val ++ addr.val)
  | .ipv6 port addr => [0, 2] ++ (port.val ++ addr.val)

/-! ## Decoding attributes -/

/-- A read that goes beyond the end of the buffer. -/
def inBuf {α : Type} : Option α → Except MsgStatus α
  | some a => .ok a
  | none => .error .overread

/-- `GETATTRHDR`. -/
def getattrhdr (buf : List UInt8) : Except MsgStatus (UInt16 × UInt16) := do
  let type ← inBuf (read16 buf 0)
  let length ← inBuf (read16 buf 2)
  .ok (type, length)

/-- The part that `decode_sockaddr_attr` and `decode_xored_sockaddr_attr` share. -/
def decodeSockaddr (buf : List UInt8) : Except MsgStatus (UInt16 × UInt16 × SockAddr) := do
  let hdr ← getattrhdr buf
  if hdr.2 ≠ 8 ∧ hdr.2 ≠ 20 then .error .estuninattrlen
  else do
    let val ← inBuf buf[5]?
    if val = 1 then
      if hdr.2 ≠ 8 then .error .estuninattrlen
      else do
        let port ← inBuf (readBytes buf 6 2)
        let addr ← inBuf (readBytes buf 8 4)
        .ok (hdr.1, hdr.2, .ipv4 port addr)
    else if val = 2 then
      if hdr.2 ≠ 20 then .error .estuninattrlen
      else do
        let port ← inBuf (readBytes buf 6 2)
        let addr ← inBuf (readBytes buf 8 16)
        .ok (hdr.1, hdr.2, .ipv6 port addr)
    else .error .einvaf

/-- `decode_sockaddr_attr`. -/
def decodeSockaddrAttr (buf : List UInt8) : Except MsgStatus Attr := do
  let r ← decodeSockaddr buf
  .ok ⟨r.1, r.2.1, .sockaddr false r.2.2⟩

/-- `decode_xored_sockaddr_attr`. -/
def decodeXoredSockaddrAttr (msghdr : MsgHdr) (buf : List UInt8) : Except MsgStatus Attr := do
  let r ← decodeSockaddr buf
  .ok ⟨r.1, r.2.1, .sockaddr true (r.2.2.xor msghdr.tsxId)⟩

/-- `decode_string_attr`. -/
def decodeStringAttr (buf : List UInt8) : Except MsgStatus Attr := do
  let hdr ← getattrhdr buf
  let value ← inBuf (readBytes buf 4 hdr.2.toNat)
  .ok ⟨hdr.1, hdr.2, .string value.val⟩

/-- `decode_empty_attr`. -/
def decodeEmptyAttr (buf : List UInt8) : Except MsgStatus Attr := do
  let hdr ← getattrhdr buf
  if hdr.2 ≠ 0 then .error .estuninattrlen else .ok ⟨hdr.1, hdr.2, .empty⟩

/-- `decode_uint_attr`: the value is read before the length is checked. -/
def decodeUintAttr (buf : List UInt8) : Except MsgStatus Attr := do
  let hdr ← getattrhdr buf
  let value ← inBuf (read32 buf 4)
  if hdr.2 ≠ 4 then .error .estuninattrlen else .ok ⟨hdr.1, hdr.2, .uint value⟩

/-- `decode_uint64_attr`. -/
def decodeUint64Attr (buf : List UInt8) : Except MsgStatus Attr := do
  let hdr ← getattrhdr buf
  if hdr.2 ≠ 8 then .error .estuninattrlen
  else do
    let hi ← inBuf (read32 buf 4)
    let lo ← inBuf (read32 buf 8)
    .ok ⟨hdr.1, hdr.2, .uint64 hi lo⟩

/-- `decode_msgint_attr`. -/
def decodeMsgintAttr (buf : List UInt8) : Except MsgStatus Attr := do
  let hdr ← getattrhdr buf
  if hdr.2 ≠ 20 then .error .estuninattrlen
  else do
    let hmac ← inBuf (readBytes buf 4 20)
    .ok ⟨hdr.1, hdr.2, .msgint hmac⟩

/-- `decode_errcode_attr`: a length below four makes the length of the reason negative. -/
def decodeErrcodeAttr (buf : List UInt8) : Except MsgStatus Attr := do
  let hdr ← getattrhdr buf
  let cls ← inBuf buf[6]?
  let number ← inBuf buf[7]?
  if hdr.2 < 4 then .error .overread
  else do
    let reason ← inBuf (readBytes buf 8 (hdr.2.toNat - 4))
    .ok ⟨hdr.1, hdr.2, .errcode (cls.toNat * 100 + number.toNat) reason.val⟩

/-- The 16-bit integers of a string. -/
def get16s : List UInt8 → List UInt16
  | a :: b :: l => get16 a b :: get16s l
  | _ => []

/-- `decode_unknown_attr`. -/
def decodeUnknownAttr (buf : List UInt8) : Except MsgStatus Attr := do
  let hdr ← getattrhdr buf
  if stunMaxAttr < hdr.2.toNat / 2 then .error .etoomany
  else do
    let attrs ← inBuf (readBytes buf 4 (hdr.2.toNat / 2 * 2))
    .ok ⟨hdr.1, hdr.2, .unknown (get16s attrs.val)⟩

/-- `decode_binary_attr`. -/
def decodeBinaryAttr (buf : List UInt8) : Except MsgStatus Attr := do
  let hdr ← getattrhdr buf
  let data ← inBuf (readBytes buf 4 hdr.2.toNat)
  .ok ⟨hdr.1, hdr.2, .binary data.val⟩

/-- `decode_attr` of an `attr_desc`. -/
def decodeAttr (msghdr : MsgHdr) (buf : List UInt8) : AttrDesc → Except MsgStatus Attr
  | .sockaddr => decodeSockaddrAttr buf
  | .xoredSockaddr => decodeXoredSockaddrAttr msghdr buf
  | .string => decodeStringAttr buf
  | .msgint => decodeMsgintAttr buf
  | .errcode => decodeErrcodeAttr buf
  | .unknown => decodeUnknownAttr buf
  | .uint => decodeUintAttr buf
  | .uint64 => decodeUint64Attr buf
  | .binary => decodeBinaryAttr buf
  | .empty => decodeEmptyAttr buf

/-! ## Encoding attributes

An encoder returns all bytes up to the next attribute. Padding that it does not write is what the
buffer has there already (`kept`). -/

/-- `n` bytes of the buffer from `pos` on, which are not written. -/
def kept (buf : List UInt8) (pos n : Nat) : List UInt8 :=
  (List.range n).map fun i => buf.getD (pos + i) 0

/-- `encode_sockaddr_attr`. -/
def encodeSockaddrAttr (msghdr : MsgHdr) (attrType : UInt16) (xorEd : Bool) (addr : SockAddr)
    (buf : List UInt8) : Except MsgStatus (List UInt8) :=
  if buf.length < 4 + addr.attrLen then .error .etoosmall
  else .ok (put16 attrType ++ (put16 (UInt16.ofNat addr.attrLen) ++
    (if xorEd then addr.xor msghdr.tsxId else addr).wire))

/-- `encode_string_attr`. -/
def encodeStringAttr (env : MsgEnv) (msghdr : MsgHdr) (attrType : UInt16) (value buf : List UInt8) :
    Except MsgStatus (List UInt8) :=
  if buf.length < pad4 (value.length + 4) then .error .etoosmall
  else
    let length :=
      if msghdr.magic ≠ stunMagic ∨ attrType = attrSoftware then pad4 value.length else value.length
    .ok (put16 attrType ++ (put16 (UInt16.ofNat length) ++
      (value ++ List.replicate (pad4 value.length - value.length) env.paddingChar)))

/-- `encode_empty_attr`. -/
def encodeEmptyAttr (attrType : UInt16) (buf : List UInt8) : Except MsgStatus (List UInt8) :=
  if buf.length < 4 then .error .etoosmall else .ok (put16 attrType ++ (put16 0 ++ []))

/-- `encode_uint_attr`. -/
def encodeUintAttr (attrType : UInt16) (value : UInt32) (buf : List UInt8) :
    Except MsgStatus (List UInt8) :=
  if buf.length < 8 then .error .etoosmall
  else .ok (put16 attrType ++ (put16 4 ++ put32 value))

/-- `encode_uint64_attr`. -/
def encodeUint64Attr (attrType : UInt16) (hi lo : UInt32) (buf : List UInt8) :
    Except MsgStatus (List UInt8) :=
  if buf.length < 12 then .error .etoosmall
  else .ok (put16 attrType ++ (put16 8 ++ (put32 hi ++ put32 lo)))

/-- `encode_msgint_attr`. -/
def encodeMsgintAttr (attrType length : UInt16) (hmac : Bytes 20) (buf : List UInt8) :
    Except MsgStatus (List UInt8) :=
  if buf.length < 24 then .error .etoosmall
  else .ok (put16 attrType ++ (put16 length ++ hmac.val))

/-- `encode_errcode_attr`: the check leaves out the padding. -/
def encodeErrcodeAttr (attrType : UInt16) (errCode : Nat) (reason buf : List UInt8) :
    Except MsgStatus (List UInt8) :=
  if buf.length < 8 + reason.length then .error .etoosmall
  else .ok (put16 attrType ++ (put16 (UInt16.ofNat (4 + reason.length)) ++
    ([0, 0, UInt8.ofNat (errCode / 100), UInt8.ofNat (errCode % 100)] ++
      (reason ++ kept buf (8 + reason.length) (pad4 reason.length - reason.length)))))

/-- `encode_unknown_attr`: the check leaves out the padding. -/
def encodeUnknownAttr (attrType : UInt16) (attrs : List UInt16) (buf : List UInt8) :
    Except MsgStatus (List UInt8) :=
  if buf.length < 4 + attrs.length * 2 then .error .etoosmall
  else .ok (put16 attrType ++ (put16 (UInt16.ofNat (attrs.length * 2)) ++
    (attrs.flatMap put16 ++
      kept buf (4 + attrs.length * 2) (pad4 (attrs.length * 2) - attrs.length * 2))))

/-- `encode_binary_attr`. -/
def encodeBinaryAttr (attrType : UInt16) (data buf : List UInt8) : Except MsgStatus (List UInt8) :=
  if buf.length < pad4 (data.length + 4) then .error .etoosmall
  else .ok (put16 attrType ++ (put16 (UInt16.ofNat data.length) ++
    (data ++ kept buf (4 + data.length) (pad4 data.length - data.length))))

/-- `encode_attr` of the attribute in the table, or `encode_binary_attr`. -/
def encodeAttr (env : MsgEnv) (msghdr : MsgHdr) (a : Attr) (buf : List UInt8) :
    Except MsgStatus (List UInt8) :=
  match findAttrDesc a.type, a.value with
  | some .sockaddr, .sockaddr xorEd addr => encodeSockaddrAttr msghdr a.type xorEd addr buf
  | some .xoredSockaddr, .sockaddr xorEd addr => encodeSockaddrAttr msghdr a.type xorEd addr buf
  | some .string, .string value => encodeStringAttr env msghdr a.type value buf
  | some .msgint, .msgint hmac => encodeMsgintAttr a.type a.length hmac buf
  | some .errcode, .errcode errCode reason => encodeErrcodeAttr a.type errCode reason buf
  | some .unknown, .unknown attrs => encodeUnknownAttr a.type attrs buf
  | some .uint, .uint value => encodeUintAttr a.type value buf
  | some .uint64, .uint64 hi lo => encodeUint64Attr a.type hi lo buf
  | some .binary, .binary data => encodeBinaryAttr a.type data buf
  | some .empty, .empty => encodeEmptyAttr a.type buf
  | none, .binary data => encodeBinaryAttr a.type data buf
  | none, _ => .error .ebug
  | _, _ => .error .badCast

/-! ## `pj_stun_msg_encode` -/

/-- What has been written: the header with the length `length`, and `body`. -/
def written (hdr : MsgHdr) (length : UInt16) (body : List UInt8) : List UInt8 :=
  put16 hdr.type ++ (put16 length ++ (put32 hdr.magic ++ (hdr.tsxId.val ++ body)))

/-- MESSAGE-INTEGRITY and FINGERPRINT are written last. -/
def Attr.isSum (a : Attr) : Bool := a.type == attrMessageIntegrity || a.type == attrFingerprint

/-- The loop over the attributes, which stops at MESSAGE-INTEGRITY and FINGERPRINT: the bytes, and
the number of attributes before. -/
def encodeAttrs (env : MsgEnv) (msghdr : MsgHdr) : List Attr → List UInt8 →
    Except MsgStatus (List UInt8 × Nat)
  | [], _ => .ok ([], 0)
  | a :: attrs, buf =>
      if a.isSum then .ok ([], 0)
      else do
        let bytes ← encodeAttr env msghdr a buf
        -- `buf_size` wraps around.
        if buf.length < bytes.length then .error .overrun
        else do
          let r ← encodeAttrs env msghdr attrs (buf.drop bytes.length)
          .ok (bytes ++ r.1, r.2 + 1)

/-- `amsgint` and `afingerprint`: the places of the two attributes. -/
structure SumAttrs where
  amsgint : Option Nat
  afingerprint : Option Nat
  deriving DecidableEq

/-- The scan of the attributes from the place `i` on, behind the one that stopped the loop. Other
attributes behind MESSAGE-INTEGRITY are passed over, and are not written. -/
def scanSums : List Attr → Nat → SumAttrs → Except MsgStatus SumAttrs
  | [], _, r => .ok r
  | a :: attrs, i, r =>
      if r.afingerprint.isSome then .error .estunfingerpos
      else if a.type = attrMessageIntegrity then
        if r.amsgint.isSome then .error .estunmsgintpos
        else scanSums attrs (i + 1) { r with amsgint := some i }
      else if a.type = attrFingerprint then
        scanSums attrs (i + 1) { r with afingerprint := some i }
      else scanSums attrs (i + 1) r

/-- The attribute that stopped the loop at the place `i`. -/
def stoppedAt (attrs : List Attr) (i : Nat) : SumAttrs :=
  match attrs[i]? with
  | none => ⟨none, none⟩
  | some a =>
      if a.type = attrMessageIntegrity then ⟨some i, none⟩
      else ⟨none, if a.type = attrFingerprint then some i else none⟩

/-- A new value of the attribute at the place `i`. -/
def setValue (attrs : List Attr) (i : Nat) (value : AttrValue) : List Attr :=
  attrs.modify i fun a => { a with value := value }

/-- MESSAGE-INTEGRITY is calculated and written behind `body`; `length` is in the header already.
When it is reached all attributes have been scanned, so the checks of its place never fail. -/
def putMsgint (env : MsgEnv) (key : Option (List UInt8)) (hdr : MsgHdr) (attrs : List Attr)
    (place : Option Nat) (length : UInt16) (body buf : List UInt8) :
    Except MsgStatus (List UInt8 × List Attr) :=
  match place with
  | none => .ok (body, attrs)
  | some i =>
      match key, attrs[i]? with
      | some key, some a => do
          let hmac := env.hmacSha1 key (written hdr length body)
          let bytes ← encodeMsgintAttr a.type a.length hmac (buf.drop body.length)
          .ok (body ++ bytes, setValue attrs i (.msgint hmac))
      | _, _ => .error .einvalidop

/-- FINGERPRINT is calculated and written behind `body`. -/
def putFingerprint (env : MsgEnv) (hdr : MsgHdr) (attrs : List Attr) (place : Option Nat)
    (length : UInt16) (body buf : List UInt8) :
    Except MsgStatus (UInt16 × List UInt8 × List Attr) :=
  match place with
  | none => .ok (length, body, attrs)
  | some i =>
      let length := UInt16.ofNat (length.toNat + 8)
      let value := env.crc32 (written hdr length body) ^^^ stunXorFingerprint
      match attrs[i]? with
      | none => .error .ebug
      | some a => do
          let bytes ← encodeUintAttr a.type value (buf.drop body.length)
          .ok (length, body ++ bytes, setValue attrs i (.uint value))

/-- `pj_stun_msg_encode` into the buffer `buf`: what is written, and the message with its length and
its sums. -/
def stunMsgEncode (env : MsgEnv) (msg : Msg) (buf : List UInt8) (options : Nat)
    (key : Option (List UInt8)) : Except MsgStatus (List UInt8 × Msg) :=
  if buf.length = 0 then .error .einval
  else if options ≠ 0 then .error .einval
  else if buf.length < 20 then .error .etoosmall
  else do
    let room := buf.drop 20
    let r ← encodeAttrs env msg.hdr msg.attrs room
    let sums ← scanSums (msg.attrs.drop (r.2 + 1)) (r.2 + 1) (stoppedAt msg.attrs r.2)
    let length := UInt16.ofNat (r.1.length + if sums.amsgint.isSome then 24 else 0)
    let m ← putMsgint env key msg.hdr msg.attrs sums.amsgint length r.1 room
    let f ← putFingerprint env msg.hdr m.2 sums.afingerprint length m.1 room
    .ok (written msg.hdr f.1 f.2.1,
      ⟨{ msg.hdr with length := UInt16.ofNat f.2.1.length }, f.2.2⟩)

/-! ## `pj_stun_msg_decode` -/

/-- The options of the decoder: `PJ_STUN_CHECK_PACKET`, `PJ_STUN_IS_DATAGRAM` and
`PJ_STUN_NO_FINGERPRINT_CHECK`. -/
structure DecodeOptions where
  checkPacket : Bool
  isDatagram : Bool
  noFingerprintCheck : Bool
  deriving DecidableEq

/-- The check of the fingerprint in `pj_stun_msg_check`, for a message of `msgLen` bytes after the
header. Where a fingerprint is expected there may be other bytes, of the header even. -/
def checkFingerprint (env : MsgEnv) (pdu : List UInt8) (msgLen : Nat) : Except MsgStatus Unit := do
  let attrType ← inBuf (read16 pdu (msgLen + 12))
  if attrType ≠ attrFingerprint then .ok ()
  else do
    let attrLen ← inBuf (read16 pdu (msgLen + 14))
    let fingerprint ← inBuf (read32 pdu (msgLen + 16))
    if attrLen ≠ 4 then .error .estuninattrlen
    else if env.crc32 (pdu.take (msgLen + 12)) ^^^ stunXorFingerprint ≠ fingerprint then
      .error .estunfingerprint
    else .ok ()

/-- `pj_stun_msg_check` of `pduLen` bytes, of which `pdu` can be read. -/
def stunMsgCheckIn (env : MsgEnv) (pdu : List UInt8) (pduLen : Nat) (options : DecodeOptions) :
    Except MsgStatus Unit :=
  if pduLen < 20 then .error .einstunmsglen
  else do
    let first ← inBuf pdu[0]?
    if first ≠ 0 ∧ first ≠ 1 then .error .einstunmsgtype
    else do
      let msgLen ← inBuf (read16 pdu 2)
      if pduLen < msgLen.toNat + 20 ∨
          options.isDatagram = true ∧ msgLen.toNat + 20 ≠ pduLen then .error .einstunmsglen
      else if msgLen.toNat % 4 ≠ 0 then .error .einstunmsglen
      else do
        let magic ← inBuf (read32 pdu 4)
        if magic = stunMagic ∧ options.noFingerprintCheck = false then
          checkFingerprint env pdu msgLen.toNat
        else .ok ()

/-- `pj_stun_msg_check`, where all bytes can be read. -/
def stunMsgCheck (env : MsgEnv) (pdu : List UInt8) (options : DecodeOptions) :
    Except MsgStatus Unit :=
  stunMsgCheckIn env pdu pdu.length options

/-- The variables of the loop of `pj_stun_msg_decode`: the buffer from `pdu` on, what is left of the
message, the distance of `pdu` from the start, and what has been found. -/
structure Decoding where
  pdu : List UInt8
  pduLen : Nat
  pos : Nat
  attrs : List Attr
  hasMsgInt : Bool
  hasFingerprint : Bool
  deriving DecidableEq

/-- The order of the attributes. -/
def Decoding.checkOrder (d : Decoding) (attrType : UInt16) : Except MsgStatus Decoding :=
  if attrType = attrMessageIntegrity ∧ d.hasFingerprint = false then
    if d.hasMsgInt then .error .estundupattr else .ok { d with hasMsgInt := true }
  else if attrType = attrFingerprint then
    if d.hasFingerprint then .error .estundupattr else .ok { d with hasFingerprint := true }
  else if d.hasFingerprint then .error .estunfingerpos
  else .ok d

/-- The attribute is added, and the next one begins after `attrValLen` bytes and the header. -/
def Decoding.next (d : Decoding) (a : Attr) (attrValLen : Nat) : Decoding :=
  let n := if d.pduLen ≤ attrValLen + 4 then d.pduLen else attrValLen + 4
  { d with
    attrs := d.attrs ++ [a]
    pdu := d.pdu.drop n
    pduLen := d.pduLen - n
    pos := d.pos + n }

/-- The body of the loop. The check of the length leaves out the four bytes of the header. -/
def decodeStep (msghdr : MsgHdr) (d : Decoding) : Except MsgStatus Decoding := do
  let hdr ← getattrhdr d.pdu
  let attrValLen := pad4 hdr.2.toNat
  if d.pduLen < attrValLen then .error .estuninattrlen
  else
    match findAttrDesc hdr.1 with
    | none =>
        if hdr.1 ≤ 0x7FFF then .error .unknownAttribute
        else if stunMaxAttr ≤ d.attrs.length then .error .estuntoomanyattr
        else do
          let data ← inBuf (readBytes d.pdu 4 hdr.2.toNat)
          .ok (d.next ⟨hdr.1, hdr.2, .binary data.val⟩ attrValLen)
    | some desc => do
        let a ← decodeAttr msghdr d.pdu desc
        let d ← d.checkOrder hdr.1
        if stunMaxAttr ≤ d.attrs.length then .error .estuntoomanyattr
        else .ok (d.next a attrValLen)

/-- The loop: every turn takes four bytes at least, so that the length of the message is enough
fuel. -/
def decodeLoop (msghdr : MsgHdr) : Nat → Decoding → Except MsgStatus Decoding
  | fuel, d =>
      if d.pduLen < 4 then .ok d
      else
        match fuel with
        | 0 => .error .noFuel
        | fuel + 1 => decodeStep msghdr d >>= decodeLoop msghdr fuel

/-- The header of the message. -/
def decodeHdr (pdu : List UInt8) : Except MsgStatus MsgHdr := do
  let type ← inBuf (read16 pdu 0)
  let length ← inBuf (read16 pdu 2)
  let magic ← inBuf (read32 pdu 4)
  let tsxId ← inBuf (readBytes pdu 8 12)
  .ok ⟨type, length, magic, tsxId⟩

/-- Where the loop begins. -/
def Decoding.start (pdu : List UInt8) (length : UInt16) : Decoding :=
  ⟨pdu.drop 20, length.toNat, 20, [], false, false⟩

/-- `pj_stun_msg_decode` of `pduLen` bytes, of which `pdu` can be read: the message and
`p_parsed_len`, which is 0 after an error. -/
def stunMsgDecodeIn (env : MsgEnv) (pdu : List UInt8) (pduLen : Nat) (options : DecodeOptions) :
    Except MsgStatus (Msg × Nat) :=
  if pduLen = 0 then .error .einval
  else do
    if options.checkPacket then stunMsgCheckIn env pdu pduLen options else .ok ()
    let hdr ← decodeHdr pdu
    let d ← decodeLoop hdr hdr.length.toNat (Decoding.start pdu hdr.length)
    if 0 < d.pduLen then .error .einstunmsglen
    else .ok (⟨hdr, d.attrs⟩, d.pos)

/-- `pj_stun_msg_decode`, where all bytes can be read. -/
def stunMsgDecode (env : MsgEnv) (pdu : List UInt8) (options : DecodeOptions) :
    Except MsgStatus (Msg × Nat) :=
  stunMsgDecodeIn env pdu pdu.length options

end Stun
