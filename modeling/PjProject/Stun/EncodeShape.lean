import PjProject.Stun.MsgRoundTrip

set_option autoImplicit false

/-! # What the encoder has written

A run of `pj_stun_msg_encode` that returns, taken apart. The attributes of the message are those in
front of the sums, MESSAGE-INTEGRITY, others behind it, and FINGERPRINT (`Parts`); the bytes are the
header and what the encoders return for each of them but the others (`stunMsgEncode_parts`). Nothing
is assumed of the attributes: the lemmas are about every message, not about the legal ones.
-/

namespace Stun

open Wire

variable {env : MsgEnv} {msghdr : MsgHdr}

/-- `bytes` is what the encoder of the attribute returns. The value of a sum is calculated. -/
def Emits (env : MsgEnv) (msghdr : MsgHdr) (a : Attr) (bytes : List UInt8) : Prop :=
  ∃ value buf, (a.isSum = false → value = a.value) ∧
    encodeAttr env msghdr { a with value := value } buf = .ok bytes

/-- The attributes are emitted each once and in order. -/
inductive EmitsList (env : MsgEnv) (msghdr : MsgHdr) : List Attr → List UInt8 → Prop where
  | nil : EmitsList env msghdr [] []
  | cons {a : Attr} {bytes : List UInt8} {attrs : List Attr} {body : List UInt8}
      (h : Emits env msghdr a bytes) (hl : EmitsList env msghdr attrs body) :
      EmitsList env msghdr (a :: attrs) (bytes ++ body)

theorem EmitsList.append {attrs attrs' : List Attr} {body body' : List UInt8}
    (h : EmitsList env msghdr attrs body) (h' : EmitsList env msghdr attrs' body') :
    EmitsList env msghdr (attrs ++ attrs') (body ++ body') := by
  induction h with
  | nil => exact h'
  | cons ha _ ih =>
      rw [List.append_assoc]
      exact .cons ha ih

theorem EmitsList.single {a : Attr} {bytes : List UInt8} (h : Emits env msghdr a bytes) :
    EmitsList env msghdr [a] bytes := by
  have hl := EmitsList.cons h .nil
  rwa [List.append_nil] at hl

/-! ## The number of bytes -/

/-- The bytes that the attribute takes; those of a sum do not depend on the struct. -/
def Attr.emitLen (a : Attr) : Nat :=
  if a.type = attrMessageIntegrity then 24 else if a.type = attrFingerprint then 8 else a.wireLen

theorem written_of_room {c : Prop} [Decidable c] {x bytes : List UInt8}
    (h : (if c then .error .etoosmall else .ok x : Except MsgStatus (List UInt8)) = .ok bytes) :
    x = bytes := by
  split at h
  · cases h
  · exact Except.ok.inj h

/-- A header and a padded value. -/
theorem length_header {t l : UInt16} {payload bytes : List UInt8} {n : Nat}
    (h : put16 t ++ (put16 l ++ payload) = bytes) (hp : payload.length = pad4 n) :
    bytes.length = 4 + pad4 n := by
  rw [← h, List.length_append, List.length_append, length_put16, length_put16, hp]
  omega

/-- The struct of the attribute is the one that the encoder of its type expects. -/
inductive Attr.HasEncoder (a : Attr) : Prop where
  | sockaddr {xorEd : Bool} {addr : SockAddr} (hd : findAttrDesc a.type = some .sockaddr ∨
      findAttrDesc a.type = some .xoredSockaddr) (hv : a.value = .sockaddr xorEd addr)
  | string {value : List UInt8} (hd : findAttrDesc a.type = some .string)
      (hv : a.value = .string value)
  | msgint {hmac : Bytes 20} (hd : findAttrDesc a.type = some .msgint) (hv : a.value = .msgint hmac)
  | errcode {errCode : Nat} {reason : List UInt8} (hd : findAttrDesc a.type = some .errcode)
      (hv : a.value = .errcode errCode reason)
  | unknown {attrs : List UInt16} (hd : findAttrDesc a.type = some .unknown)
      (hv : a.value = .unknown attrs)
  | uint {value : UInt32} (hd : findAttrDesc a.type = some .uint) (hv : a.value = .uint value)
  | uint64 {hi lo : UInt32} (hd : findAttrDesc a.type = some .uint64)
      (hv : a.value = .uint64 hi lo)
  | binary {data : List UInt8} (hd : findAttrDesc a.type = some .binary ∨
      findAttrDesc a.type = none) (hv : a.value = .binary data)
  | empty (hd : findAttrDesc a.type = some .empty) (hv : a.value = .empty)

/-- Only an encoder returns. -/
theorem hasEncoder_of_ok {a : Attr} {buf bytes : List UInt8}
    (h : encodeAttr env msghdr a buf = .ok bytes) : a.HasEncoder := by
  unfold encodeAttr at h
  cases hv : a.value <;> cases hd : findAttrDesc a.type with
  | none => first | exact .binary (.inr hd) hv | (rw [hd, hv] at h; cases h)
  | some desc =>
      cases desc <;> first
        | exact .sockaddr (.inl hd) hv
        | exact .sockaddr (.inr hd) hv
        | exact .string hd hv
        | exact .msgint hd hv
        | exact .errcode hd hv
        | exact .unknown hd hv
        | exact .uint hd hv
        | exact .uint64 hd hv
        | exact .binary (.inl hd) hv
        | exact .empty hd hv
        | (rw [hd, hv] at h; cases h)

theorem SockAddr.pad4_attrLen (addr : SockAddr) : pad4 addr.attrLen = addr.attrLen :=
  pad4_of_mod (by cases addr <;> simp [SockAddr.attrLen])

/-- Every encoder returns a header and the padded value. -/
theorem length_encodeAttr {a : Attr} {buf bytes : List UInt8}
    (h : encodeAttr env msghdr a buf = .ok bytes) : bytes.length = a.wireLen := by
  unfold Attr.wireLen
  cases hasEncoder_of_ok h with
  | @sockaddr xorEd addr hd hv =>
      have hlen : (if xorEd then addr.xor msghdr.tsxId else addr).attrLen = addr.attrLen := by
        cases xorEd
        · rfl
        · exact SockAddr.attrLen_xor _ _
      have hpayload : ((if xorEd then addr.xor msghdr.tsxId else addr).wire).length =
          pad4 addr.attrLen := by
        rw [SockAddr.length_wire, hlen, addr.pad4_attrLen]
      rw [hv]
      rcases hd with hd | hd
      · rw [encodeAttr, hd, hv] at h
        exact length_header (written_of_room h) hpayload
      · rw [encodeAttr, hd, hv] at h
        exact length_header (written_of_room h) hpayload
  | string hd hv =>
      rw [encodeAttr, hd, hv] at h
      rw [hv]
      exact length_header (written_of_room h) (length_padded (by simp))
  | @msgint hmac hd hv =>
      rw [encodeAttr, hd, hv] at h
      rw [hv]
      exact length_header (written_of_room h) (hmac.property.trans (pad4_of_mod (by rfl)).symm)
  | @errcode errCode reason hd hv =>
      rw [encodeAttr, hd, hv] at h
      rw [hv]
      refine length_header (written_of_room h) ?_
      have hpad := @length_padded reason _ (length_kept buf (8 + reason.length) _)
      simp only [List.length_append, List.length_cons, List.length_nil] at hpad ⊢
      simp only [AttrValue.size, Nat.add_comm 4, pad4_add_four]
      omega
  | @unknown attrs hd hv =>
      rw [encodeAttr, hd, hv] at h
      rw [hv]
      refine length_header (written_of_room h) ?_
      have hle := le_pad4 (attrs.length * 2)
      rw [List.length_append, length_flatMap_put16, length_kept]
      simp only [AttrValue.size]
      omega
  | @uint value hd hv =>
      rw [encodeAttr, hd, hv] at h
      rw [hv]
      have hlen := (length_put32 value).trans (pad4_of_mod (show 4 % 4 = 0 from rfl)).symm
      exact length_header (written_of_room h) hlen
  | @uint64 hi lo hd hv =>
      rw [encodeAttr, hd, hv] at h
      rw [hv]
      have hlen : (put32 hi ++ put32 lo).length = 8 := by simp [length_put32]
      exact length_header (written_of_room h) (hlen.trans (pad4_of_mod (by rfl)).symm)
  | binary hd hv =>
      rw [hv]
      rcases hd with hd | hd
      · rw [encodeAttr, hd, hv] at h
        exact length_header (written_of_room h) (length_padded (length_kept _ _ _))
      · rw [encodeAttr, hd, hv] at h
        exact length_header (written_of_room h) (length_padded (length_kept _ _ _))
  | empty hd hv =>
      rw [encodeAttr, hd, hv] at h
      rw [hv]
      exact length_header (written_of_room h) rfl

theorem isSum_iff {a : Attr} :
    a.isSum = true ↔ a.type = attrMessageIntegrity ∨ a.type = attrFingerprint := by
  simp [Attr.isSum]

/-- The value of a sum has the kind that its type has in the table. -/
theorem length_encodeMsgint {a : Attr} {buf bytes : List UInt8} (ht : a.type = attrMessageIntegrity)
    (h : encodeAttr env msghdr a buf = .ok bytes) : bytes.length = 24 := by
  have hlen := length_encodeAttr h
  cases hv : a.value with
  | msgint hmac => rw [hlen, a.wireLen_eq (n := 20) (by rw [hv]; rfl) (by decide)]
  | _ => simp [encodeAttr, ht, findAttrDesc_msgint, hv] at h

theorem length_encodeFingerprint {a : Attr} {buf bytes : List UInt8} (ht : a.type = attrFingerprint)
    (h : encodeAttr env msghdr a buf = .ok bytes) : bytes.length = 8 := by
  have hlen := length_encodeAttr h
  cases hv : a.value with
  | uint value => rw [hlen, a.wireLen_eq (n := 4) (by rw [hv]; rfl) (by decide)]
  | _ => simp [encodeAttr, ht, findAttrDesc_fingerprint, hv] at h

theorem Emits.length {a : Attr} {bytes : List UInt8} (h : Emits env msghdr a bytes) :
    bytes.length = a.emitLen := by
  obtain ⟨value, buf, hvalue, hbytes⟩ := h
  unfold Attr.emitLen
  by_cases hmi : a.type = attrMessageIntegrity
  · rw [if_pos hmi]
    exact length_encodeMsgint (a := { a with value := value }) hmi hbytes
  · rw [if_neg hmi]
    by_cases hfp : a.type = attrFingerprint
    · rw [if_pos hfp]
      exact length_encodeFingerprint (a := { a with value := value }) hfp hbytes
    · have hno : a.isSum = false := by
        rw [Bool.eq_false_iff, ne_eq, isSum_iff]
        exact fun h => h.elim hmi hfp
      have hlen := length_encodeAttr hbytes
      rw [hvalue hno] at hlen
      rw [if_neg hfp]
      exact hlen

theorem four_le_emitLen (a : Attr) : 4 ≤ a.emitLen := by
  unfold Attr.emitLen Attr.wireLen
  split_ifs <;> omega

theorem emitLen_mod (a : Attr) : a.emitLen % 4 = 0 := by
  have := pad4_mod a.value.size
  unfold Attr.emitLen Attr.wireLen
  split_ifs <;> omega

/-- The bytes that the attributes take. -/
def emitLenAll (attrs : List Attr) : Nat := (attrs.map Attr.emitLen).sum

theorem emitLenAll_append (attrs attrs' : List Attr) :
    emitLenAll (attrs ++ attrs') = emitLenAll attrs + emitLenAll attrs' := by
  unfold emitLenAll
  rw [List.map_append, List.sum_append]

theorem EmitsList.length {attrs : List Attr} {body : List UInt8}
    (h : EmitsList env msghdr attrs body) : body.length = emitLenAll attrs := by
  induction h with
  | nil => rfl
  | cons ha _ ih =>
      rw [List.length_append, ha.length, ih]
      rfl

theorem EmitsList.length_mod {attrs : List Attr} {body : List UInt8}
    (h : EmitsList env msghdr attrs body) : body.length % 4 = 0 := by
  induction h with
  | nil => rfl
  | @cons a _ _ _ ha _ ih =>
      have := emitLen_mod a
      rw [List.length_append, ha.length]
      omega

/-- An attribute is never emitted as nothing. -/
theorem emitLenAll_eq_zero {attrs : List Attr} (h : emitLenAll attrs = 0) : attrs = [] := by
  cases attrs with
  | nil => rfl
  | cons a attrs =>
      have := four_le_emitLen a
      have hsum : emitLenAll (a :: attrs) = a.emitLen + emitLenAll attrs := rfl
      omega

/-! ## The loops of the encoder -/

/-- The loop emits the attributes in front of the first sum. -/
theorem encodeAttrs_ok : ∀ {attrs : List Attr} {buf body : List UInt8} {n : Nat},
    encodeAttrs env msghdr attrs buf = .ok (body, n) →
      ∃ plain rest, attrs = plain ++ rest ∧ plain.length = n ∧ (∀ a ∈ plain, a.isSum = false) ∧
        (∀ a, rest.head? = some a → a.isSum = true) ∧ EmitsList env msghdr plain body ∧
        body.length ≤ buf.length
  | [], buf, body, n, h => by
      cases h
      exact ⟨[], [], rfl, rfl, by simp, by simp, .nil, Nat.zero_le _⟩
  | a :: attrs, buf, body, n, h => by
      rw [encodeAttrs] at h
      by_cases hsum : a.isSum = true
      · rw [if_pos hsum] at h
        cases h
        refine ⟨[], a :: attrs, rfl, rfl, by simp, ?_, .nil, Nat.zero_le _⟩
        intro b hb
        cases hb
        exact hsum
      · rw [if_neg hsum] at h
        obtain ⟨bytes, hbytes, h⟩ := Outcome.bind_eq_ok h
        split at h
        · cases h
        · rename_i hroom
          obtain ⟨r, hr, h⟩ := Outcome.bind_eq_ok h
          cases h
          obtain ⟨plain, rest, rfl, hn, hplain, hrest, hl, hlen⟩ := encodeAttrs_ok hr
          rw [List.length_drop] at hlen
          refine ⟨a :: plain, rest, rfl, by rw [List.length_cons, hn], ?_, hrest,
            .cons ⟨a.value, buf, fun _ => rfl, hbytes⟩ hl, ?_⟩
          · intro b hb
            rcases List.mem_cons.mp hb with rfl | hb
            · simpa using hsum
            · exact hplain b hb
          · rw [List.length_append]
            omega

/-- FINGERPRINT as an attribute of a message, or none. -/
def IsFingerprint (attrs : List Attr) : Prop :=
  attrs = [] ∨ ∃ a, attrs = [a] ∧ a.type = attrFingerprint

/-- Behind FINGERPRINT the scan accepts nothing. -/
theorem scanSums_fingerprint {attrs : List Attr} {i : Nat} {r sums : SumAttrs}
    (hr : r.afingerprint.isSome = true) (h : scanSums attrs i r = .ok sums) :
    attrs = [] ∧ sums = r := by
  cases attrs with
  | nil =>
      cases h
      exact ⟨rfl, rfl⟩
  | cons a attrs =>
      rw [scanSums, if_pos hr] at h
      cases h

/-- Behind MESSAGE-INTEGRITY it passes over the attributes in front of FINGERPRINT. -/
theorem scanSums_msgint : ∀ {attrs : List Attr} {i m : Nat} {sums : SumAttrs},
    scanSums attrs i ⟨some m, none⟩ = .ok sums →
      ∃ dropped fingerprint, attrs = dropped ++ fingerprint ∧
        (∀ a ∈ dropped, a.isSum = false) ∧ IsFingerprint fingerprint ∧
        sums = ⟨some m, if fingerprint = [] then none else some (i + dropped.length)⟩
  | [], i, m, sums, h => by
      cases h
      exact ⟨[], [], rfl, by simp, .inl rfl, rfl⟩
  | a :: attrs, i, m, sums, h => by
      rw [scanSums, if_neg (by simp)] at h
      by_cases hmi : a.type = attrMessageIntegrity
      · rw [if_pos hmi] at h
        cases h
      · rw [if_neg hmi] at h
        by_cases hfp : a.type = attrFingerprint
        · rw [if_pos hfp] at h
          obtain ⟨rfl, rfl⟩ := scanSums_fingerprint rfl h
          exact ⟨[], [a], rfl, by simp, .inr ⟨a, rfl, hfp⟩, rfl⟩
        · rw [if_neg hfp] at h
          obtain ⟨dropped, fingerprint, rfl, hdropped, hf, rfl⟩ := scanSums_msgint h
          refine ⟨a :: dropped, fingerprint, rfl, ?_, hf, ?_⟩
          · intro b hb
            rcases List.mem_cons.mp hb with rfl | hb
            · rw [Bool.eq_false_iff, ne_eq, isSum_iff]
              exact fun h => h.elim hmi hfp
            · exact hdropped b hb
          · rw [List.length_cons, Nat.add_right_comm, Nat.add_assoc]

/-! ## The sums -/

/-- MESSAGE-INTEGRITY is emitted behind the body. -/
theorem putMsgint_ok {key : Option (List UInt8)} {hdr : MsgHdr} {attrs attrs' : List Attr} {i : Nat}
    {a : Attr} {length : UInt16} {body body' buf : List UInt8} (ha : attrs[i]? = some a)
    (ht : a.type = attrMessageIntegrity)
    (h : putMsgint env key hdr attrs (some i) length body buf = .ok (body', attrs')) :
    ∃ bytes value, body' = body ++ bytes ∧ Emits env hdr a bytes ∧ attrs' = setValue attrs i value ∧
      body'.length ≤ buf.length := by
  cases key with
  | none => simp [putMsgint] at h
  | some key =>
      simp only [putMsgint, ha] at h
      obtain ⟨bytes, hbytes, h⟩ := Outcome.bind_eq_ok h
      simp only [Except.ok.injEq, Prod.mk.injEq] at h
      obtain ⟨rfl, rfl⟩ := h
      have hemit : Emits env hdr a bytes := by
        refine ⟨.msgint (env.hmacSha1 key (written hdr length body)), buf.drop body.length,
          fun hno => ?_, ?_⟩
        · rw [isSum_iff.mpr (.inl ht)] at hno
          cases hno
        · simpa [encodeAttr, ht, findAttrDesc_msgint] using hbytes
      refine ⟨bytes, _, rfl, hemit, rfl, ?_⟩
      have hlen : bytes.length = 24 := by simpa [Attr.emitLen, ht] using hemit.length
      have hroom : ¬ (buf.drop body.length).length < 24 := by
        intro hlt
        rw [encodeMsgintAttr, if_pos hlt] at hbytes
        cases hbytes
      rw [List.length_drop] at hroom
      rw [List.length_append]
      omega

/-- FINGERPRINT is emitted behind the body, over the message with its own eight bytes counted. -/
theorem putFingerprint_ok {hdr : MsgHdr} {attrs attrs' : List Attr} {i : Nat} {a : Attr}
    {length length' : UInt16} {body body' buf : List UInt8} (ha : attrs[i]? = some a)
    (ht : a.type = attrFingerprint)
    (h : putFingerprint env hdr attrs (some i) length body buf = .ok (length', body', attrs')) :
    length' = UInt16.ofNat (length.toNat + 8) ∧
      body' = body ++ fingerprintBytes
        (some (env.crc32 (written hdr length' body) ^^^ stunXorFingerprint)) ∧
      body'.length ≤ buf.length := by
  simp only [putFingerprint, ha] at h
  obtain ⟨bytes, hbytes, h⟩ := Outcome.bind_eq_ok h
  simp only [Except.ok.injEq, Prod.mk.injEq] at h
  obtain ⟨rfl, rfl, -⟩ := h
  have hroom : ¬ (buf.drop body.length).length < 8 := by
    intro hlt
    rw [encodeUintAttr, if_pos hlt] at hbytes
    cases hbytes
  rw [encodeUintAttr, if_neg hroom, ht] at hbytes
  cases hbytes
  refine ⟨rfl, rfl, ?_⟩
  rw [List.length_drop] at hroom
  rw [List.length_append]
  show body.length + 8 ≤ buf.length
  omega

theorem emits_fingerprint {hdr : MsgHdr} {a : Attr} (ht : a.type = attrFingerprint) (v : UInt32) :
    Emits env hdr a (fingerprintBytes (some v)) := by
  refine ⟨.uint v, List.replicate 8 0, fun hno => ?_, ?_⟩
  · rw [isSum_iff.mpr (.inr ht)] at hno
    cases hno
  · simp only [encodeAttr, ht, findAttrDesc_fingerprint]
    rfl

/-! ## The whole message -/

/-- The attributes of a message that has been encoded. -/
structure Parts where
  plain : List Attr
  msgint : List Attr
  dropped : List Attr
  fingerprint : List Attr

/-- The attributes that are in the bytes. -/
def Parts.emitted (p : Parts) : List Attr := p.plain ++ (p.msgint ++ p.fingerprint)

/-- The parts of the attributes, and what makes them the parts. -/
structure Parts.Of (p : Parts) (attrs : List Attr) : Prop where
  attrs : attrs = p.plain ++ (p.msgint ++ (p.dropped ++ p.fingerprint))
  plain : ∀ a ∈ p.plain, a.isSum = false
  msgint : p.msgint = [] ∧ p.dropped = [] ∨ ∃ a, p.msgint = [a] ∧ a.type = attrMessageIntegrity
  dropped : ∀ a ∈ p.dropped, a.isSum = false
  fingerprint : IsFingerprint p.fingerprint

/-- The bytes that the encoder has written: the attributes but those behind MESSAGE-INTEGRITY, the
number of their bytes in the header as far as it has room, and the sum in FINGERPRINT. -/
structure Written (env : MsgEnv) (hdr : MsgHdr) (p : Parts) (length : UInt16)
    (body : List UInt8) : Prop where
  emits : EmitsList env hdr p.emitted body
  length_eq : length.toNat = body.length % 65536
  sum : p.fingerprint ≠ [] → ∃ front, body = front ++ fingerprintBytes
    (some (env.crc32 (written hdr length front) ^^^ stunXorFingerprint))

section Whole

variable {hdr : MsgHdr} {p : Parts} {attrs attrs' : List Attr} {body body' buf : List UInt8}
  {length length' : UInt16}

/-- The last step, where there is a FINGERPRINT or none. -/
theorem written_fingerprint {plain msgint dropped fingerprint : List Attr} {place : Option Nat}
    (hemits : EmitsList env hdr (plain ++ msgint) body)
    (hlength : length = UInt16.ofNat body.length) (hfp : IsFingerprint fingerprint)
    (hplace : fingerprint = [] ∧ place = none ∨
      ∃ a i, fingerprint = [a] ∧ place = some i ∧ attrs[i]? = some a)
    (h : putFingerprint env hdr attrs place length body buf = .ok (length', body', attrs')) :
    Written env hdr ⟨plain, msgint, dropped, fingerprint⟩ length' body' := by
  rcases hplace with ⟨rfl, rfl⟩ | ⟨a, i, rfl, rfl, ha⟩
  · cases h
    refine ⟨?_, ?_, fun h => absurd rfl h⟩
    · show EmitsList env hdr (plain ++ (msgint ++ [])) body
      rwa [List.append_nil]
    · rw [hlength, UInt16.toNat_ofNat']
  · have ht : a.type = attrFingerprint := by
      rcases hfp with h0 | ⟨b, hb, ht⟩
      · cases h0
      · cases hb
        exact ht
    obtain ⟨hl, rfl, -⟩ := putFingerprint_ok ha ht h
    refine ⟨?_, ?_, fun _ => ⟨body, rfl⟩⟩
    · show EmitsList env hdr (plain ++ (msgint ++ [a])) _
      rw [← List.append_assoc]
      exact hemits.append (.single (emits_fingerprint ht _))
    · rw [hl, hlength, List.length_append, UInt16.toNat_ofNat', UInt16.toNat_ofNat']
      show (body.length % 65536 + 8) % 65536 = (body.length + 8) % 65536
      omega

/-- **What the encoder returns** is made of the parts of the message. -/
theorem stunMsgEncode_parts {msg msg' : Msg} {bytes : List UInt8} {options : Nat}
    {key : Option (List UInt8)}
    (h : stunMsgEncode env msg buf options key = .ok (bytes, msg')) :
    ∃ p length body, Parts.Of p msg.attrs ∧ bytes = written msg.hdr length body ∧
      Written env msg.hdr p length body := by
  unfold stunMsgEncode at h
  split at h
  · cases h
  split at h
  · cases h
  split at h
  · cases h
  dsimp only at h
  obtain ⟨⟨body, n⟩, hbody, h⟩ := Outcome.bind_eq_ok h
  obtain ⟨sums, hscan, h⟩ := Outcome.bind_eq_ok h
  obtain ⟨⟨mbody, mattrs⟩, hm, h⟩ := Outcome.bind_eq_ok h
  obtain ⟨⟨flength, fbody, fattrs⟩, hf, h⟩ := Outcome.bind_eq_ok h
  cases h
  obtain ⟨plain, rest, hattrs, hn, hplain, hrest, hemits, -⟩ := encodeAttrs_ok hbody
  subst hn
  dsimp only at hscan hm hf ⊢
  have hget : ∀ j, msg.attrs[plain.length + j]? = rest[j]? := by
    intro j
    rw [hattrs, List.getElem?_append_right (by omega), Nat.add_sub_cancel_left]
  have hdrop : msg.attrs.drop (plain.length + 1) = rest.drop 1 := by
    rw [hattrs, List.drop_append, List.drop_of_length_le (by omega), Nat.add_sub_cancel_left,
      List.nil_append]
  rw [hdrop] at hscan
  cases rest with
  | nil =>
      have hstop : stoppedAt msg.attrs plain.length = ⟨none, none⟩ := by
        unfold stoppedAt
        rw [show msg.attrs[plain.length]? = none from hget 0]
      rw [hstop] at hscan
      cases hscan
      cases hm
      refine ⟨⟨plain, [], [], []⟩, _, _, ⟨hattrs, hplain, .inl ⟨rfl, rfl⟩, by simp, .inl rfl⟩, rfl,
        written_fingerprint ?_ rfl (.inl rfl) (.inl ⟨rfl, rfl⟩) hf⟩
      rwa [List.append_nil]
  | cons a rest =>
      have ha : msg.attrs[plain.length]? = some a := hget 0
      rcases isSum_iff.mp (hrest a rfl) with hmi | hfp
      · -- MESSAGE-INTEGRITY has stopped the loop.
        have hstop : stoppedAt msg.attrs plain.length = ⟨some plain.length, none⟩ := by
          unfold stoppedAt
          rw [ha]
          simp [hmi]
        rw [hstop] at hscan
        obtain ⟨dropped, fingerprint, hrest', hdropped, hfpr, rfl⟩ := scanSums_msgint hscan
        obtain ⟨bytes, value, rfl, hemit, rfl, -⟩ := putMsgint_ok ha hmi hm
        replace hrest' : rest = dropped ++ fingerprint := hrest'
        refine ⟨⟨plain, [a], dropped, fingerprint⟩, _, _, ⟨?_, hplain, .inr ⟨a, rfl, hmi⟩, hdropped,
          hfpr⟩, rfl, written_fingerprint (hemits.append (.single hemit)) ?_ hfpr ?_ hf⟩
        · rw [hattrs, hrest']
          rfl
        · have hlen : bytes.length = 24 := by simpa [Attr.emitLen, hmi] using hemit.length
          rw [List.length_append, hlen]
          rfl
        · rcases hfpr with rfl | ⟨f, rfl, hf⟩
          · exact .inl ⟨rfl, rfl⟩
          · refine .inr ⟨f, _, rfl, rfl, ?_⟩
            have hplace : msg.attrs[plain.length + 1 + dropped.length]? = some f := by
              rw [Nat.add_assoc, hget, hrest', Nat.add_comm 1]
              simp
            rw [setValue, List.getElem?_modify, hplace]
            simp only [Option.map_eq_map, Option.map_some]
            rw [if_neg (by omega)]
      · -- FINGERPRINT has stopped the loop.
        have hne : ¬ a.type = attrMessageIntegrity := by
          rw [hfp]
          decide
        have hstop : stoppedAt msg.attrs plain.length = ⟨none, some plain.length⟩ := by
          unfold stoppedAt
          rw [ha]
          simp [hfp, show ¬ attrFingerprint = attrMessageIntegrity by decide]
        rw [hstop] at hscan
        obtain ⟨hnil, rfl⟩ := scanSums_fingerprint rfl hscan
        replace hnil : rest = [] := hnil
        cases hm
        refine ⟨⟨plain, [], [], [a]⟩, _, _, ⟨?_, hplain, .inl ⟨rfl, rfl⟩, by simp,
          .inr ⟨a, rfl, hfp⟩⟩, rfl, written_fingerprint ?_ rfl (.inr ⟨a, rfl, hfp⟩)
            (.inr ⟨a, _, rfl, rfl, ha⟩) hf⟩
        · rw [hattrs, hnil]
          rfl
        · rwa [List.append_nil]

end Whole

end Stun
