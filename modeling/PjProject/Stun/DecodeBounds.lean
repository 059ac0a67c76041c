import PjProject.Stun.MsgRoundTrip

set_option autoImplicit false

/-! # What the decoder reads

`pj_stun_msg_decode` is given a pointer and a length, and should read no more than the message that
the length field of the header announces. Here the decoder runs over the bytes that can be read and
the length it was told apart (`stunMsgDecodeIn`): with the bytes of the message only, a read behind
them is an `overread`.

The loop compares the padded length of an attribute's value with what is left of the message, the
four bytes of the attribute's own header included, and some decoders read fixed fields without a look
at the length. What a decoder reads is `AttrDesc.reads`; `Place.Inside` says that it is there, and
`AllInside` that it is for each attribute the loop gets to. The decoder stays inside the message
exactly then (`decodesWithin_iff`).
-/

namespace Stun

open Wire

/-! ## What a decoder reads -/

/-- The number of bytes that a decoder reads of an attribute with the length `len` whose sixth byte
is `family`. -/
def AttrDesc.reads (len : Nat) (family : UInt8) : AttrDesc → Nat
  | .sockaddr | .xoredSockaddr =>
      if len = 8 ∧ family = 1 then 12
      else if len = 20 ∧ family = 2 then 24
      else if len = 8 ∨ len = 20 then 6
      else 4
  | .string | .binary => 4 + len
  | .msgint => if len = 20 then 24 else 4
  | .errcode => 8 + (len - 4)
  | .unknown => if len / 2 ≤ stunMaxAttr then 4 + len / 2 * 2 else 4
  | .uint => 8
  | .uint64 => if len = 8 then 12 else 4
  | .empty => 4

/-- What a decoder reads is there, and no length is negative. -/
def AttrDesc.Inside (len : Nat) (family : UInt8) (left : Nat) (desc : AttrDesc) : Prop :=
  desc.reads len family ≤ left ∧ (desc = .errcode → 4 ≤ len)

/-- A decoder takes the attribute. -/
def AttrDesc.Takes (len : Nat) (family : UInt8) : AttrDesc → Prop
  | .sockaddr | .xoredSockaddr => len = 8 ∧ family = 1 ∨ len = 20 ∧ family = 2
  | .string | .binary | .errcode => True
  | .msgint => len = 20
  | .unknown => len / 2 ≤ stunMaxAttr
  | .uint => len = 4
  | .uint64 => len = 8
  | .empty => len = 0

/-- A result that says whether everything that was read was there, and whether it was taken. -/
def Classified {α : Type} (inside takes : Prop) : Except MsgStatus α → Prop
  | .ok _ => inside ∧ takes
  | .error e => (e = .overread ↔ ¬ inside) ∧ e ≠ .noFuel ∧ (inside → ¬ takes)

variable {α β : Type} {inside takes : Prop}

/-- A read is inside, or what is asked for is not. -/
theorem classified_inBuf {x : Option α} {f : α → Except MsgStatus β} (hnone : x = none → ¬ inside)
    (hsome : ∀ a, x = some a → Classified inside takes (f a)) :
    Classified inside takes (inBuf x >>= f) := by
  cases x with
  | none => exact ⟨iff_of_true rfl (hnone rfl), by simp, fun h => absurd h (hnone rfl)⟩
  | some a => exact hsome a rfl

theorem classified_refused {e : MsgStatus} (he : e ≠ .overread) (hf : e ≠ .noFuel) (hin : inside)
    (ht : ¬ takes) : Classified inside takes (Except.error e : Except MsgStatus α) :=
  ⟨iff_of_false he (not_not.mpr hin), hf, fun _ => ht⟩

theorem Classified.bind_ok {x : Except MsgStatus α} (h : Classified inside takes x) (f : α → β) :
    Classified inside takes (x >>= fun a => .ok (f a)) := by
  cases x with
  | error e => exact h
  | ok a => exact h

theorem readBytes_none {buf : List UInt8} {pos n : Nat} (h : readBytes buf pos n = none) :
    buf.length < pos + n := by
  unfold readBytes at h
  split at h
  · cases h
  · omega

theorem readBytes_some {buf : List UInt8} {pos n : Nat} {b : Bytes n}
    (h : readBytes buf pos n = some b) : pos + n ≤ buf.length := by
  unfold readBytes at h
  split at h
  · assumption
  · cases h

theorem read32_none {buf : List UInt8} {pos : Nat} (h : read32 buf pos = none) :
    buf.length < pos + 4 := by
  by_contra hge
  have hlen : 4 ≤ (buf.drop pos).length := by
    rw [List.length_drop]
    omega
  unfold read32 at h
  match hd : buf.drop pos, hlen with
  | a :: b :: c :: d :: _, _ => simp [hd] at h

theorem read32_some {buf : List UInt8} {pos : Nat} {v : UInt32} (h : read32 buf pos = some v) :
    pos + 4 ≤ buf.length := by
  have hlen : 4 ≤ (buf.drop pos).length := by
    unfold read32 at h
    split at h
    · rename_i hd
      rw [hd]
      simp only [List.length_cons]
      omega
    · cases h
  rw [List.length_drop] at hlen
  omega

theorem getattrhdr_ok {buf : List UInt8} {hdr : UInt16 × UInt16} (h : getattrhdr buf = .ok hdr) :
    read16 buf 0 = some hdr.1 ∧ read16 buf 2 = some hdr.2 := by
  unfold getattrhdr at h
  cases ht : read16 buf 0 with
  | none => simp [ht, inBuf, bind, Except.bind] at h
  | some t =>
      cases hl : read16 buf 2 with
      | none => simp [ht, hl, inBuf, bind, Except.bind] at h
      | some l =>
          simp only [ht, hl, inBuf, bind, Except.bind, Except.ok.injEq] at h
          rw [← h]
          exact ⟨rfl, rfl⟩

section Decoders

variable {buf : List UInt8} {hdr : UInt16 × UInt16}

theorem decodeSockaddr_classified (h : getattrhdr buf = .ok hdr) {desc : AttrDesc}
    (hlen : 4 ≤ buf.length) (hdesc : desc = .sockaddr ∨ desc = .xoredSockaddr) :
    Classified (desc.Inside hdr.2.toNat (buf.getD 5 0) buf.length)
      (desc.Takes hdr.2.toNat (buf.getD 5 0)) (decodeSockaddr buf) := by
  have hin : desc.Inside hdr.2.toNat (buf.getD 5 0) buf.length ↔
      AttrDesc.sockaddr.reads hdr.2.toNat (buf.getD 5 0) ≤ buf.length := by
    rcases hdesc with rfl | rfl <;> simp [AttrDesc.Inside, AttrDesc.reads]
  have htk : desc.Takes hdr.2.toNat (buf.getD 5 0) ↔
      hdr.2.toNat = 8 ∧ buf.getD 5 0 = 1 ∨ hdr.2.toNat = 20 ∧ buf.getD 5 0 = 2 := by
    rcases hdesc with rfl | rfl <;> rfl
  have h8 : hdr.2 = 8 ↔ hdr.2.toNat = 8 := UInt16.toNat_inj.symm
  have h20 : hdr.2 = 20 ↔ hdr.2.toNat = 20 := UInt16.toNat_inj.symm
  unfold decodeSockaddr
  rw [h]
  show Classified _ _ (if hdr.2 ≠ 8 ∧ hdr.2 ≠ 20 then _ else _)
  simp only [ne_eq, h8, h20]
  generalize desc.Inside hdr.2.toNat (buf.getD 5 0) buf.length = inside at hin ⊢
  generalize desc.Takes hdr.2.toNat (buf.getD 5 0) = takes at htk ⊢
  by_cases hl : hdr.2.toNat = 8 ∨ hdr.2.toNat = 20
  · rw [if_neg (by omega)]
    refine classified_inBuf (fun hn => ?_) fun val hval => ?_
    · have hn : buf.length ≤ 5 := List.getElem?_eq_none_iff.mp hn
      rw [hin, AttrDesc.reads]
      split_ifs <;> omega
    · have hfam : buf.getD 5 0 = val := by rw [List.getD_eq_getElem?_getD, hval]; rfl
      have hsix : 6 ≤ buf.length := (List.getElem?_eq_some_iff.mp hval).1
      rw [hfam] at hin htk
      -- The address of `n` bytes is read behind the port.
      have haddr : ∀ {n : Nat} {f : Bytes 2 → Bytes n → SockAddr}, takes → (inside ↔ 8 + n ≤ buf.length) →
          Classified inside takes (inBuf (readBytes buf 6 2) >>= fun port =>
            inBuf (readBytes buf 8 n) >>= fun addr => .ok (hdr.1, hdr.2, f port addr)) := by
        intro n f htakes hreads
        refine classified_inBuf (fun hn => ?_) fun port _ =>
          classified_inBuf (fun hn => ?_) fun addr hn => ?_
        · have := readBytes_none hn
          rw [hreads]
          omega
        · have := readBytes_none hn
          rw [hreads]
          omega
        · exact ⟨hreads.mpr (readBytes_some hn), htakes⟩
      -- The family decides which of the two lengths is meant.
      by_cases h1 : val = 1
      · rw [if_pos h1]
        by_cases hv : hdr.2.toNat = 8
        · rw [if_neg (not_not.mpr hv)]
          exact haddr (htk.mpr (.inl ⟨hv, h1⟩)) (by simpa [AttrDesc.reads, hv, h1] using hin)
        · have hreads : inside ↔ 6 ≤ buf.length := by
            simpa [AttrDesc.reads, hv, h1, hl.resolve_left hv] using hin
          rw [if_pos hv]
          refine classified_refused (by simp) (by simp) (hreads.mpr hsix) ?_
          simp [htk, hv, h1]
      · rw [if_neg h1]
        by_cases h2 : val = 2
        · rw [if_pos h2]
          by_cases hv : hdr.2.toNat = 20
          · rw [if_neg (not_not.mpr hv)]
            exact haddr (htk.mpr (.inr ⟨hv, h2⟩)) (by simpa [AttrDesc.reads, hv, h2] using hin)
          · have hreads : inside ↔ 6 ≤ buf.length := by
              simpa [AttrDesc.reads, hv, h2, hl.resolve_right hv] using hin
            rw [if_pos hv]
            refine classified_refused (by simp) (by simp) (hreads.mpr hsix) ?_
            simp [htk, hv, h2]
        · have hreads : inside ↔ 6 ≤ buf.length := by
            simpa [AttrDesc.reads, h1, h2, hl] using hin
          rw [if_neg h2]
          refine classified_refused (by simp) (by simp) (hreads.mpr hsix) ?_
          simp [htk, h1, h2]
  · rw [if_pos (by omega)]
    refine classified_refused (by simp) (by simp) ?_ (by rw [htk]; omega)
    rw [hin, AttrDesc.reads]
    split_ifs <;> omega

/-- What every decoder reads, and what it takes. -/
theorem decodeAttr_classified (msghdr : MsgHdr) (h : getattrhdr buf = .ok hdr)
    (hlen : 4 ≤ buf.length) (desc : AttrDesc) :
    Classified (desc.Inside hdr.2.toNat (buf.getD 5 0) buf.length)
      (desc.Takes hdr.2.toNat (buf.getD 5 0)) (decodeAttr msghdr buf desc) := by
  cases desc with
  | sockaddr => exact (decodeSockaddr_classified h hlen (.inl rfl)).bind_ok _
  | xoredSockaddr => exact (decodeSockaddr_classified h hlen (.inr rfl)).bind_ok _
  | string | binary =>
      show Classified _ _ (getattrhdr buf >>= _)
      rw [h]
      refine classified_inBuf (fun hn => ?_) fun value hn => ?_
      · have := readBytes_none hn
        simp only [AttrDesc.Inside, AttrDesc.reads]
        omega
      · have := readBytes_some hn
        simpa [Classified, AttrDesc.Inside, AttrDesc.reads, AttrDesc.Takes] using this
  | msgint =>
      show Classified _ _ (getattrhdr buf >>= _)
      rw [h]
      have h20 : hdr.2 = 20 ↔ hdr.2.toNat = 20 := UInt16.toNat_inj.symm
      show Classified _ _ (if hdr.2 ≠ 20 then _ else _)
      by_cases hv : hdr.2.toNat = 20
      · rw [if_neg (not_not.mpr (h20.mpr hv))]
        refine classified_inBuf (fun hn => ?_) fun hmac hn => ?_
        · have := readBytes_none hn
          simp only [AttrDesc.Inside, AttrDesc.reads, hv, if_true]
          omega
        · have := readBytes_some hn
          simpa [Classified, AttrDesc.Inside, AttrDesc.reads, AttrDesc.Takes, hv] using this
      · rw [if_pos (mt h20.mp hv)]
        refine classified_refused (by simp) (by simp) ?_ hv
        simpa [AttrDesc.Inside, AttrDesc.reads, hv] using hlen
  | errcode =>
      show Classified _ _ (getattrhdr buf >>= _)
      rw [h]
      refine classified_inBuf (fun hn => ?_) fun cls _ =>
        classified_inBuf (fun hn => ?_) fun number hnum => ?_
      · have hn : buf.length ≤ 6 := List.getElem?_eq_none_iff.mp hn
        simp only [AttrDesc.Inside, AttrDesc.reads]
        omega
      · have hn : buf.length ≤ 7 := List.getElem?_eq_none_iff.mp hn
        simp only [AttrDesc.Inside, AttrDesc.reads]
        omega
      · have h4 : hdr.2 < 4 ↔ hdr.2.toNat < 4 := UInt16.lt_iff_toNat_lt
        by_cases hv : hdr.2.toNat < 4
        · -- The length of the reason would be negative.
          rw [if_pos (h4.mpr hv)]
          have hout : ¬ AttrDesc.errcode.Inside hdr.2.toNat (buf.getD 5 0) buf.length := by
            simp [AttrDesc.Inside, hv]
          exact ⟨iff_of_true rfl hout, by simp, fun hin => absurd hin hout⟩
        · rw [if_neg (mt h4.mp hv)]
          refine classified_inBuf (fun hn => ?_) fun reason hn => ?_
          · have := readBytes_none hn
            simp only [AttrDesc.Inside, AttrDesc.reads]
            omega
          · have := readBytes_some hn
            refine ⟨⟨this, fun _ => by omega⟩, trivial⟩
  | unknown =>
      show Classified _ _ (getattrhdr buf >>= _)
      rw [h]
      show Classified _ _ (if stunMaxAttr < hdr.2.toNat / 2 then _ else _)
      by_cases hv : hdr.2.toNat / 2 ≤ stunMaxAttr
      · rw [if_neg (by omega)]
        refine classified_inBuf (fun hn => ?_) fun attrs hn => ?_
        · have := readBytes_none hn
          simp only [AttrDesc.Inside, AttrDesc.reads, hv, if_true]
          omega
        · have := readBytes_some hn
          simpa [Classified, AttrDesc.Inside, AttrDesc.reads, AttrDesc.Takes, hv] using this
      · rw [if_pos (by omega)]
        refine classified_refused (by simp) (by simp) ?_ hv
        simpa [AttrDesc.Inside, AttrDesc.reads, hv] using hlen
  | uint =>
      show Classified _ _ (getattrhdr buf >>= _)
      rw [h]
      -- The value is read whatever the length is.
      refine classified_inBuf (fun hn => ?_) fun value hn => ?_
      · have := read32_none hn
        simp only [AttrDesc.Inside, AttrDesc.reads]
        omega
      · have hin : AttrDesc.uint.Inside hdr.2.toNat (buf.getD 5 0) buf.length := by
          simpa [AttrDesc.Inside, AttrDesc.reads] using read32_some hn
        have h4 : hdr.2 = 4 ↔ hdr.2.toNat = 4 := UInt16.toNat_inj.symm
        by_cases hv : hdr.2.toNat = 4
        · rw [if_neg (not_not.mpr (h4.mpr hv))]
          exact ⟨hin, hv⟩
        · rw [if_pos (mt h4.mp hv)]
          exact classified_refused (by simp) (by simp) hin hv
  | uint64 =>
      show Classified _ _ (getattrhdr buf >>= _)
      rw [h]
      have h8 : hdr.2 = 8 ↔ hdr.2.toNat = 8 := UInt16.toNat_inj.symm
      show Classified _ _ (if hdr.2 ≠ 8 then _ else _)
      by_cases hv : hdr.2.toNat = 8
      · rw [if_neg (not_not.mpr (h8.mpr hv))]
        refine classified_inBuf (fun hn => ?_) fun hi _ =>
          classified_inBuf (fun hn => ?_) fun lo hn => ?_
        · have := read32_none hn
          simp only [AttrDesc.Inside, AttrDesc.reads, hv, if_true]
          omega
        · have := read32_none hn
          simp only [AttrDesc.Inside, AttrDesc.reads, hv, if_true]
          omega
        · have := read32_some hn
          simpa [Classified, AttrDesc.Inside, AttrDesc.reads, AttrDesc.Takes, hv] using this
      · rw [if_pos (mt h8.mp hv)]
        refine classified_refused (by simp) (by simp) ?_ hv
        simpa [AttrDesc.Inside, AttrDesc.reads, hv] using hlen
  | empty =>
      show Classified _ _ (getattrhdr buf >>= _)
      rw [h]
      have h0 : hdr.2 = 0 ↔ hdr.2.toNat = 0 := UInt16.toNat_inj.symm
      have hin : AttrDesc.empty.Inside hdr.2.toNat (buf.getD 5 0) buf.length := by
        simpa [AttrDesc.Inside, AttrDesc.reads] using hlen
      show Classified _ _ (if hdr.2 ≠ 0 then _ else _)
      by_cases hv : hdr.2.toNat = 0
      · rw [if_neg (not_not.mpr (h0.mpr hv))]
        exact ⟨hin, hv⟩
      · rw [if_pos (mt h0.mp hv)]
        exact classified_refused (by simp) (by simp) hin hv

end Decoders

/-! ## One attribute -/

/-- Where the loop stands: what is left of the body, and what has been found before. -/
structure Place where
  rest : List UInt8
  count : Nat
  msgInt : Bool
  fingerprint : Bool
  deriving DecidableEq

/-- The type of the attribute at a place. -/
def Place.type (p : Place) : UInt16 := (read16 p.rest 0).getD 0

/-- The length of its value, without the padding. -/
def Place.len (p : Place) : Nat := ((read16 p.rest 2).getD 0).toNat

/-- Its sixth byte, which is the family of an address. -/
def Place.family (p : Place) : UInt8 := p.rest.getD 5 0

/-- What is read of the attribute is in the body. Only an attribute whose value is said to fit is
read, and an optional attribute without a descriptor only if there is room for it. -/
def Place.Inside (p : Place) : Prop :=
  pad4 p.len ≤ p.rest.length →
    match findAttrDesc p.type with
    | none => 0x7FFF < p.type → p.count < stunMaxAttr → 4 + p.len ≤ p.rest.length
    | some desc => desc.Inside p.len p.family p.rest.length

/-- The loop goes on behind the attribute. -/
def Place.Passes (p : Place) : Prop :=
  pad4 p.len ≤ p.rest.length ∧ p.count < stunMaxAttr ∧
    match findAttrDesc p.type with
    | none => 0x7FFF < p.type
    | some desc =>
        desc.Takes p.len p.family ∧ p.fingerprint = false ∧
          (p.type = attrMessageIntegrity → p.msgInt = false)

/-- Behind the attribute. -/
def Place.next (p : Place) : Place where
  rest := p.rest.drop (4 + pad4 p.len)
  count := p.count + 1
  msgInt := p.msgInt || p.type == attrMessageIntegrity
  fingerprint := p.fingerprint || p.type == attrFingerprint

/-- Each attribute that the loop gets to is inside the body. -/
def AllInside : Nat → Place → Prop
  | 0, _ => True
  | fuel + 1, p => 4 ≤ p.rest.length → p.Inside ∧ (p.Passes → AllInside fuel p.next)

/-- The place of the variables of the loop. -/
def Decoding.place (d : Decoding) : Place := ⟨d.pdu, d.attrs.length, d.hasMsgInt, d.hasFingerprint⟩

section Place

variable (d : Decoding)

@[simp] theorem place_rest : d.place.rest = d.pdu := rfl

@[simp] theorem place_count : d.place.count = d.attrs.length := rfl

@[simp] theorem place_msgInt : d.place.msgInt = d.hasMsgInt := rfl

@[simp] theorem place_fingerprint : d.place.fingerprint = d.hasFingerprint := rfl

@[simp] theorem place_family : d.place.family = d.pdu.getD 5 0 := rfl

end Place

/-- What the body of the loop finds. -/
structure StepFinds (d : Decoding) (r : Except MsgStatus Decoding) : Prop where
  classified : Classified d.place.Inside d.place.Passes r
  next : ∀ d', r = .ok d' → d'.place = d.place.next ∧ d'.pdu.length = d'.pduLen

theorem getattrhdr_of_le {buf : List UInt8} (h : 4 ≤ buf.length) :
    ∃ hdr, getattrhdr buf = .ok hdr := by
  obtain ⟨t, ht⟩ := read16_of_le (show 0 + 2 ≤ buf.length by omega)
  obtain ⟨l, hl⟩ := read16_of_le (show 2 + 2 ≤ buf.length by omega)
  exact ⟨(t, l), by simp [getattrhdr, ht, hl, inBuf, bind, Except.bind]⟩

theorem next_pdu {d : Decoding} (hleft : d.pdu.length = d.pduLen) (a : Attr) (v : Nat) :
    (d.next a v).pdu = d.pdu.drop (4 + v) ∧ (d.next a v).pdu.length = (d.next a v).pduLen := by
  unfold Decoding.next
  dsimp only
  rw [List.length_drop]
  split
  · rw [List.drop_of_length_le (by omega), List.drop_of_length_le (by omega)]
    exact ⟨rfl, by omega⟩
  · rw [Nat.add_comm v 4]
    exact ⟨rfl, by omega⟩

/-- The two branches that check the order agree on the flags of the next place. -/
theorem checkOrder_ok {d : Decoding} {t : UInt16} (hfp : d.hasFingerprint = false)
    (hmi : t = attrMessageIntegrity → d.hasMsgInt = false) :
    d.checkOrder t = .ok { d with
      hasMsgInt := d.hasMsgInt || t == attrMessageIntegrity
      hasFingerprint := d.hasFingerprint || t == attrFingerprint } := by
  unfold Decoding.checkOrder
  by_cases ht : t = attrMessageIntegrity
  · rw [if_pos ⟨ht, hfp⟩, hmi ht, if_neg (by simp)]
    subst ht
    simp [hfp, show ¬ attrMessageIntegrity = attrFingerprint by decide]
  · rw [if_neg (fun h => ht h.1), hfp]
    by_cases hf : t = attrFingerprint
    · subst hf
      simp [show ¬ attrFingerprint = attrMessageIntegrity by decide]
    · simp only [hf, if_false, Bool.false_eq_true]
      cases d
      simp_all

theorem checkOrder_error {d : Decoding} {t : UInt16}
    (h : ¬ (d.hasFingerprint = false ∧ (t = attrMessageIntegrity → d.hasMsgInt = false))) :
    ∃ e, d.checkOrder t = .error e ∧ e ≠ .overread ∧ e ≠ .noFuel := by
  unfold Decoding.checkOrder
  by_cases hfp : d.hasFingerprint = false
  · have ht : t = attrMessageIntegrity := by
      by_contra hne
      exact h ⟨hfp, fun he => absurd he hne⟩
    have hmi : d.hasMsgInt = true := by
      by_contra hne
      exact h ⟨hfp, fun _ => by simpa using hne⟩
    exact ⟨.estundupattr, by simp [ht, hfp, hmi], by simp, by simp⟩
  · simp only [Bool.not_eq_false] at hfp
    by_cases hf : t = attrFingerprint
    · refine ⟨.estundupattr, ?_, by simp, by simp⟩
      simp [hf, hfp, attrFingerprint, attrMessageIntegrity]
    · exact ⟨.estunfingerpos, by simp [hf, hfp], by simp, by simp⟩

/-- The flags as they are behind the attribute at the place. -/
def Decoding.flagged (d : Decoding) : Decoding :=
  { d with
    hasMsgInt := d.hasMsgInt || d.place.type == attrMessageIntegrity
    hasFingerprint := d.hasFingerprint || d.place.type == attrFingerprint }

theorem next_place {d : Decoding} (hleft : d.pdu.length = d.pduLen) (a : Attr) :
    (d.flagged.next a (pad4 d.place.len)).place = d.place.next ∧
      (d.flagged.next a (pad4 d.place.len)).pdu.length =
        (d.flagged.next a (pad4 d.place.len)).pduLen := by
  obtain ⟨hpdu, hl⟩ := next_pdu (d := d.flagged) hleft a (pad4 d.place.len)
  refine ⟨?_, hl⟩
  have hcount : (d.flagged.next a (pad4 d.place.len)).attrs.length = d.attrs.length + 1 := by
    simp [Decoding.next, Decoding.flagged]
  show Place.mk _ _ _ _ = Place.mk _ _ _ _
  rw [hpdu, hcount]
  rfl

/-- An unrecognized attribute is not one of those that the flags are about. -/
theorem flagged_unrecognized {d : Decoding} (h : findAttrDesc d.place.type = none) :
    d.flagged = d := by
  have hmi : d.place.type ≠ attrMessageIntegrity := by
    intro ht
    rw [ht, findAttrDesc_msgint] at h
    cases h
  have hfp : d.place.type ≠ attrFingerprint := by
    intro ht
    rw [ht, findAttrDesc_fingerprint] at h
    cases h
  cases d
  simp_all [Decoding.flagged]

/-- The branch of an unrecognized attribute. -/
theorem unrecognized_finds {d : Decoding} {t l : UInt16} (ht : d.place.type = t)
    (hl : d.place.len = l.toNat) (hleft : d.pdu.length = d.pduLen) (hfit : pad4 l.toNat ≤ d.pduLen)
    (hdesc : findAttrDesc t = none) :
    StepFinds d (if t ≤ 0x7FFF then .error .unknownAttribute
      else if stunMaxAttr ≤ d.attrs.length then .error .estuntoomanyattr
      else inBuf (readBytes d.pdu 4 l.toNat) >>= fun data =>
        .ok (d.next ⟨t, l, .binary data.val⟩ (pad4 l.toNat))) := by
  have hin : d.place.Inside ↔
      (0x7FFF < t → d.attrs.length < stunMaxAttr → 4 + l.toNat ≤ d.pduLen) := by
    simp [Place.Inside, ht, hl, hdesc, hleft, hfit]
  have hpass : d.place.Passes ↔ d.attrs.length < stunMaxAttr ∧ 0x7FFF < t := by
    simp [Place.Passes, ht, hl, hdesc, hleft, hfit]
  by_cases hopt : t ≤ 0x7FFF
  · have hopt' : ¬ (0x7FFF < t) := UInt16.not_lt.mpr hopt
    rw [if_pos hopt]
    refine ⟨classified_refused (by simp) (by simp) ?_ ?_, by simp⟩
    · exact hin.mpr fun h => absurd h hopt'
    · exact fun h => hopt' (hpass.mp h).2
  have hopt' : 0x7FFF < t := UInt16.not_le.mp hopt
  rw [if_neg hopt]
  by_cases hroom : stunMaxAttr ≤ d.attrs.length
  · rw [if_pos hroom]
    refine ⟨classified_refused (by simp) (by simp) ?_ ?_, by simp⟩
    · exact hin.mpr fun _ h => by omega
    · intro h
      have := (hpass.mp h).1
      omega
  have hroom' : d.attrs.length < stunMaxAttr := by omega
  rw [if_neg hroom]
  constructor
  · refine classified_inBuf (fun hn => ?_) fun data hn => ?_
    · have := readBytes_none hn
      rw [hin]
      intro h
      have := h hopt' hroom'
      omega
    · have := readBytes_some hn
      exact ⟨hin.mpr fun _ _ => by omega, hpass.mpr ⟨hroom', hopt'⟩⟩
  · intro d' h
    cases hr : readBytes d.pdu 4 l.toNat with
    | none => simp [hr, inBuf, bind, Except.bind] at h
    | some data =>
        have hflag := flagged_unrecognized (d := d) (ht ▸ hdesc)
        have hnext := next_place hleft ⟨t, l, .binary data.val⟩
        rw [hflag, hl] at hnext
        simp only [hr, inBuf, bind, Except.bind, Except.ok.injEq] at h
        rw [← h]
        exact hnext

/-- The branch of an attribute with a descriptor: it is decoded before its place is checked. -/
theorem recognized_finds (msghdr : MsgHdr) {d : Decoding} {hdr : UInt16 × UInt16} {desc : AttrDesc}
    (hhdr : getattrhdr d.pdu = .ok hdr) (ht : d.place.type = hdr.1)
    (hl : d.place.len = hdr.2.toNat) (hleft : d.pdu.length = d.pduLen) (h4 : 4 ≤ d.pduLen)
    (hfit : pad4 hdr.2.toNat ≤ d.pduLen) (hdesc : findAttrDesc hdr.1 = some desc) :
    StepFinds d (decodeAttr msghdr d.pdu desc >>= fun a => d.checkOrder hdr.1 >>= fun d =>
      if stunMaxAttr ≤ d.attrs.length then .error .estuntoomanyattr
      else .ok (d.next a (pad4 hdr.2.toNat))) := by
  have hin : d.place.Inside ↔ desc.Inside hdr.2.toNat (d.pdu.getD 5 0) d.pdu.length := by
    simp [Place.Inside, hl, ht, hdesc, hleft, hfit]
  have hpass : d.place.Passes ↔ d.attrs.length < stunMaxAttr ∧
      desc.Takes hdr.2.toNat (d.pdu.getD 5 0) ∧ d.hasFingerprint = false ∧
        (hdr.1 = attrMessageIntegrity → d.hasMsgInt = false) := by
    simp [Place.Passes, hl, ht, hdesc, hleft, hfit]
  have hdec := decodeAttr_classified msghdr hhdr (by omega) desc
  cases ha : decodeAttr msghdr d.pdu desc with
  | error e =>
      rw [ha] at hdec
      obtain ⟨hover, hfuel, htakes⟩ := hdec
      refine ⟨⟨hover.trans (not_congr hin.symm), hfuel, fun h hp => ?_⟩, fun d' h => by cases h⟩
      exact htakes (hin.mp h) (hpass.mp hp).2.1
  | ok a =>
      rw [ha] at hdec
      show StepFinds d (d.checkOrder hdr.1 >>= _)
      by_cases hord : d.hasFingerprint = false ∧
          (hdr.1 = attrMessageIntegrity → d.hasMsgInt = false)
      · rw [checkOrder_ok hord.1 hord.2, ← ht]
        show StepFinds d (if stunMaxAttr ≤ d.attrs.length then _ else _)
        by_cases hroom : stunMaxAttr ≤ d.attrs.length
        · rw [if_pos hroom]
          refine ⟨classified_refused (by simp) (by simp) (hin.mpr hdec.1) fun hp => ?_, by simp⟩
          have := (hpass.mp hp).1
          omega
        · rw [if_neg hroom, ← hl]
          refine ⟨⟨hin.mpr hdec.1, hpass.mpr ⟨by omega, hdec.2, hord⟩⟩, fun d' h => ?_⟩
          cases h
          exact next_place hleft a
      · obtain ⟨e, he, hover, hfuel⟩ := checkOrder_error hord
        rw [he]
        have hno : ¬ d.place.Passes := fun hp => hord (hpass.mp hp).2.2
        exact ⟨classified_refused hover hfuel (hin.mpr hdec.1) hno, fun d' h => by cases h⟩

/-- The body of the loop reads what is there exactly if the attribute is inside the body, and goes
on exactly if it passes. -/
theorem decodeStep_finds (msghdr : MsgHdr) {d : Decoding} (hleft : d.pdu.length = d.pduLen)
    (h4 : 4 ≤ d.pduLen) : StepFinds d (decodeStep msghdr d) := by
  obtain ⟨hdr, hhdr⟩ := getattrhdr_of_le (show 4 ≤ d.pdu.length by omega)
  have ht : d.place.type = hdr.1 := by
    simp [Place.type, (getattrhdr_ok hhdr).1]
  have hl : d.place.len = hdr.2.toNat := by
    simp [Place.len, (getattrhdr_ok hhdr).2]
  unfold decodeStep
  rw [hhdr]
  show StepFinds d (if d.pduLen < pad4 hdr.2.toNat then _ else _)
  by_cases hfit : d.pduLen < pad4 hdr.2.toNat
  · -- Nothing is read of a value that does not fit.
    rw [if_pos hfit]
    refine ⟨classified_refused (by simp) (by simp) (fun h => ?_) fun h => ?_, by simp⟩
    · rw [hl, place_rest, hleft] at h
      omega
    · have := h.1
      rw [hl, place_rest, hleft] at this
      omega
  · rw [if_neg hfit]
    cases hdesc : findAttrDesc hdr.1 with
    | none => exact unrecognized_finds ht hl hleft (by omega) hdesc
    | some desc => exact recognized_finds msghdr hhdr ht hl hleft h4 (by omega) hdesc

/-! ## The loop -/

/-- The loop ends, and reads behind the body exactly if an attribute it gets to is not inside. -/
theorem decodeLoop_classified (msghdr : MsgHdr) : ∀ {fuel : Nat} {d : Decoding},
    d.pdu.length = d.pduLen → d.pduLen ≤ fuel →
      (decodeLoop msghdr fuel d = .error .overread ↔ ¬ AllInside fuel d.place) ∧
        decodeLoop msghdr fuel d ≠ .error .noFuel
  | 0, d, hleft, hfuel => by
      rw [decodeLoop_zero (by omega)]
      simp [AllInside]
  | fuel + 1, d, hleft, hfuel => by
      by_cases h4 : d.pduLen < 4
      · rw [decodeLoop_zero h4]
        simp only [AllInside, place_rest, hleft]
        refine ⟨iff_of_false (by simp) (not_not.mpr fun h => by omega), by simp⟩
      · have hfinds := decodeStep_finds msghdr hleft (by omega)
        rw [decodeLoop, if_neg h4]
        have hall : AllInside (fuel + 1) d.place ↔
            d.place.Inside ∧ (d.place.Passes → AllInside fuel d.place.next) := by
          simp only [AllInside, place_rest, hleft]
          exact ⟨fun h => h (by omega), fun h _ => h⟩
        rw [hall]
        cases hs : decodeStep msghdr d with
        | error e =>
            obtain ⟨hover, hno, hstop⟩ := hs ▸ hfinds.classified
            show ((Except.error e : Except MsgStatus Decoding) = .error .overread ↔ _) ∧
              (Except.error e : Except MsgStatus Decoding) ≠ .error .noFuel
            refine ⟨?_, fun h => hno (Except.error.inj h)⟩
            rw [Except.error.injEq, hover, not_iff_not]
            exact ⟨fun h => ⟨h, fun hp => absurd hp (hstop h)⟩, fun h => h.1⟩
        | ok d' =>
            obtain ⟨hin, hpass⟩ := hs ▸ hfinds.classified
            obtain ⟨hnext, hleft'⟩ := hfinds.next d' hs
            have hshort : d'.pduLen ≤ fuel := by
              have := congrArg (fun p => p.rest.length) hnext
              simp only [place_rest, Place.next, List.length_drop] at this
              omega
            obtain ⟨ih, ihfuel⟩ := decodeLoop_classified msghdr hleft' hshort
            refine ⟨?_, ihfuel⟩
            show decodeLoop msghdr fuel d' = _ ↔ _
            rw [ih, hnext, not_iff_not]
            exact ⟨fun h => ⟨hin, fun _ => h⟩, fun h => h.2 hpass⟩

/-! ## The check of the packet

Its reads are inside the message, whatever its bytes are. -/

theorem read16_take {buf : List UInt8} {k pos : Nat} (h : pos + 2 ≤ k) :
    read16 (buf.take k) pos = read16 buf pos := by
  obtain ⟨m, hm⟩ : ∃ m, k - pos = m + 2 := ⟨k - pos - 2, by omega⟩
  unfold read16
  rw [List.drop_take, hm]
  rcases buf.drop pos with _ | ⟨a, _ | ⟨b, l⟩⟩ <;> simp

theorem read32_take {buf : List UInt8} {k pos : Nat} (h : pos + 4 ≤ k) :
    read32 (buf.take k) pos = read32 buf pos := by
  obtain ⟨m, hm⟩ : ∃ m, k - pos = m + 4 := ⟨k - pos - 4, by omega⟩
  unfold read32
  rw [List.drop_take, hm]
  rcases buf.drop pos with _ | ⟨a, _ | ⟨b, _ | ⟨c, _ | ⟨d, l⟩⟩⟩⟩ <;> simp

theorem read32_of_le {buf : List UInt8} {pos : Nat} (h : pos + 4 ≤ buf.length) :
    ∃ v, read32 buf pos = some v := by
  rw [← Option.isSome_iff_exists]
  by_contra hno
  have := read32_none (Option.not_isSome_iff_eq_none.mp hno)
  omega

theorem checkFingerprint_eq (env : MsgEnv) {pdu : List UInt8} {msgLen : Nat} {t l : UInt16}
    {v : UInt32} (ht : read16 pdu (msgLen + 12) = some t) (hl : read16 pdu (msgLen + 14) = some l)
    (hv : read32 pdu (msgLen + 16) = some v) :
    checkFingerprint env pdu msgLen =
      if t ≠ attrFingerprint then .ok ()
      else if l ≠ 4 then .error .estuninattrlen
      else if env.crc32 (pdu.take (msgLen + 12)) ^^^ stunXorFingerprint ≠ v then
        .error .estunfingerprint
      else .ok () := by
  unfold checkFingerprint
  rw [ht, hl, hv]
  rfl

theorem stunMsgCheckIn_eq (env : MsgEnv) {pdu : List UInt8} {pduLen : Nat} {options : DecodeOptions}
    {first : UInt8} {len : UInt16} {magic : UInt32} (h0 : pdu[0]? = some first)
    (h2 : read16 pdu 2 = some len) (h4 : read32 pdu 4 = some magic) :
    stunMsgCheckIn env pdu pduLen options =
      if pduLen < 20 then .error .einstunmsglen
      else if first ≠ 0 ∧ first ≠ 1 then .error .einstunmsgtype
      else if pduLen < len.toNat + 20 ∨ options.isDatagram = true ∧ len.toNat + 20 ≠ pduLen then
        .error .einstunmsglen
      else if len.toNat % 4 ≠ 0 then .error .einstunmsglen
      else if magic = stunMagic ∧ options.noFingerprintCheck = false then
        checkFingerprint env pdu len.toNat
      else .ok () := by
  unfold stunMsgCheckIn
  rw [h0, h2, h4]
  rfl

section Check

variable {env : MsgEnv} {pdu : List UInt8} {len : UInt16} {options : DecodeOptions}

theorem checkFingerprint_take {msgLen k : Nat} (hk : msgLen + 20 ≤ k) (hpdu : k ≤ pdu.length) :
    checkFingerprint env (pdu.take k) msgLen = checkFingerprint env pdu msgLen := by
  obtain ⟨t, ht⟩ := read16_of_le (show msgLen + 12 + 2 ≤ pdu.length by omega)
  obtain ⟨l, hl⟩ := read16_of_le (show msgLen + 14 + 2 ≤ pdu.length by omega)
  obtain ⟨v, hv⟩ := read32_of_le (show msgLen + 16 + 4 ≤ pdu.length by omega)
  rw [checkFingerprint_eq env ht hl hv, checkFingerprint_eq env
    ((read16_take (by omega)).trans ht) ((read16_take (by omega)).trans hl)
    ((read32_take (by omega)).trans hv), List.take_take, Nat.min_eq_left (by omega)]

theorem checkFingerprint_inside {msgLen : Nat} (hpdu : msgLen + 20 ≤ pdu.length) :
    checkFingerprint env pdu msgLen ≠ .error .overread ∧
      checkFingerprint env pdu msgLen ≠ .error .noFuel := by
  obtain ⟨t, ht⟩ := read16_of_le (show msgLen + 12 + 2 ≤ pdu.length by omega)
  obtain ⟨l, hl⟩ := read16_of_le (show msgLen + 14 + 2 ≤ pdu.length by omega)
  obtain ⟨v, hv⟩ := read32_of_le (show msgLen + 16 + 4 ≤ pdu.length by omega)
  rw [checkFingerprint_eq env ht hl hv]
  split_ifs <;> simp

/-- The check reads nothing behind the message. -/
theorem stunMsgCheckIn_take (hlen : read16 pdu 2 = some len) (hpdu : len.toNat + 20 ≤ pdu.length) :
    stunMsgCheckIn env (pdu.take (len.toNat + 20)) pdu.length options =
      stunMsgCheck env pdu options := by
  obtain ⟨first, h0⟩ : ∃ first, pdu[0]? = some first := ⟨_, List.getElem?_eq_getElem (by omega)⟩
  obtain ⟨magic, h4⟩ := read32_of_le (show 4 + 4 ≤ pdu.length by omega)
  have h0' : (pdu.take (len.toNat + 20))[0]? = some first := by
    rw [List.getElem?_take_of_lt (by omega), h0]
  rw [stunMsgCheck, stunMsgCheckIn_eq env h0 hlen h4, stunMsgCheckIn_eq env h0'
      ((read16_take (by omega)).trans hlen) ((read32_take (by omega)).trans h4),
    checkFingerprint_take (Nat.le_refl _) hpdu]

theorem stunMsgCheck_inside (hlen : read16 pdu 2 = some len)
    (hpdu : len.toNat + 20 ≤ pdu.length) :
    stunMsgCheck env pdu options ≠ .error .overread ∧
      stunMsgCheck env pdu options ≠ .error .noFuel := by
  obtain ⟨first, h0⟩ : ∃ first, pdu[0]? = some first := ⟨_, List.getElem?_eq_getElem (by omega)⟩
  obtain ⟨magic, h4⟩ := read32_of_le (show 4 + 4 ≤ pdu.length by omega)
  rw [stunMsgCheck, stunMsgCheckIn_eq env h0 hlen h4]
  have hfp := @checkFingerprint_inside env pdu len.toNat hpdu
  split_ifs
  all_goals first | exact hfp | simp

theorem decodeHdr_of_le (hpdu : 20 ≤ pdu.length) : ∃ hdr, decodeHdr pdu = .ok hdr := by
  obtain ⟨t, ht⟩ := read16_of_le (show 0 + 2 ≤ pdu.length by omega)
  obtain ⟨l, hl⟩ := read16_of_le (show 2 + 2 ≤ pdu.length by omega)
  obtain ⟨m, hm⟩ := read32_of_le (show 4 + 4 ≤ pdu.length by omega)
  refine ⟨⟨t, l, m, ⟨(pdu.drop 8).take 12, by rw [List.length_take, List.length_drop]; omega⟩⟩, ?_⟩
  unfold decodeHdr
  rw [ht, hl, hm, readBytes, dif_pos (by omega)]
  rfl

end Check

/-! ## The decoder -/

/-- What a message carries behind its header. -/
def bodyOf (pdu : List UInt8) (len : UInt16) : List UInt8 := (pdu.drop 20).take len.toNat

/-- Before the first attribute. -/
def Place.first (body : List UInt8) : Place := ⟨body, 0, false, false⟩

/-- The loop goes on. -/
def Decoding.Goes (msghdr : MsgHdr) (d d' : Decoding) : Prop :=
  4 ≤ d.pduLen ∧ decodeStep msghdr d = .ok d'

/-- The decoder ends, reads the message of `len` bytes behind the header and nothing else, also no
string of a negative length, and never has more attributes than there is room for. -/
structure DecodesWithin (env : MsgEnv) (pdu : List UInt8) (len : UInt16) (options : DecodeOptions) :
    Prop where
  inside : stunMsgDecodeIn env (pdu.take (len.toNat + 20)) pdu.length options ≠ .error .overread
  ends : stunMsgDecodeIn env (pdu.take (len.toNat + 20)) pdu.length options ≠ .error .noFuel
  stored : ∀ msghdr d, Relation.ReflTransGen (Decoding.Goes msghdr) (Decoding.start pdu len) d →
    d.attrs.length ≤ stunMaxAttr

theorem next_stored {d : Decoding} (h : ¬ stunMaxAttr ≤ d.attrs.length) (a : Attr) (n : Nat) :
    (d.next a n).attrs.length ≤ stunMaxAttr := by
  simp only [Decoding.next, List.length_append, List.length_singleton]
  omega

/-- Both branches look for room before they store an attribute. -/
theorem decodeStep_stored {msghdr : MsgHdr} {d d' : Decoding} (h : decodeStep msghdr d = .ok d') :
    d'.attrs.length ≤ stunMaxAttr := by
  unfold decodeStep at h
  obtain ⟨hdr, -, h⟩ := Outcome.bind_eq_ok h
  dsimp only at h
  split at h
  · cases h
  · split at h
    · split at h
      · cases h
      · split at h
        · cases h
        · rename_i hroom
          obtain ⟨data, -, h⟩ := Outcome.bind_eq_ok h
          cases h
          exact next_stored hroom _ _
    · obtain ⟨a, -, h⟩ := Outcome.bind_eq_ok h
      obtain ⟨d1, -, h⟩ := Outcome.bind_eq_ok h
      split at h
      · cases h
      · rename_i hroom
        cases h
        exact next_stored hroom _ _

theorem goes_stored {msghdr : MsgHdr} {d d' : Decoding}
    (h : Relation.ReflTransGen (Decoding.Goes msghdr) d d') (hd : d.attrs.length ≤ stunMaxAttr) :
    d'.attrs.length ≤ stunMaxAttr := by
  induction h with
  | refl => exact hd
  | tail _ hgo _ => exact decodeStep_stored hgo.2

/-- What the decoder does after the check. -/
def decodeRest (pdu : List UInt8) : Except MsgStatus (Msg × Nat) := do
  let hdr ← decodeHdr pdu
  let d ← decodeLoop hdr hdr.length.toNat (Decoding.start pdu hdr.length)
  if 0 < d.pduLen then .error .einstunmsglen else .ok (⟨hdr, d.attrs⟩, d.pos)

theorem decodeRest_inside {pdu : List UInt8} {len : UInt16} (hlen : read16 pdu 2 = some len)
    (hpdu : pdu.length = len.toNat + 20) :
    (decodeRest pdu = .error .overread ↔ ¬ AllInside len.toNat (Place.first (pdu.drop 20))) ∧
      decodeRest pdu ≠ .error .noFuel := by
  obtain ⟨hdr, hhdr⟩ := decodeHdr_of_le (show 20 ≤ pdu.length by omega)
  have hl : hdr.length = len := Option.some.inj ((decodeHdr_length hhdr).symm.trans hlen)
  have hstart : (Decoding.start pdu len).pdu.length = (Decoding.start pdu len).pduLen := by
    simp [Decoding.start, hpdu]
  obtain ⟨hover, hfuel⟩ := decodeLoop_classified hdr hstart (Nat.le_refl _)
  -- The test of the stray bytes reads nothing.
  have hend : ∀ (d : Decoding) (e : MsgStatus), e ≠ .einstunmsglen →
      (if 0 < d.pduLen then Except.error MsgStatus.einstunmsglen
        else .ok ((⟨hdr, d.attrs⟩ : Msg), d.pos)) ≠ .error e := by
    intro d e he
    split_ifs
    · exact fun h => he (Except.error.inj h).symm
    · simp
  have hrun : decodeRest pdu = decodeLoop hdr len.toNat (Decoding.start pdu len) >>= fun d =>
      if 0 < d.pduLen then .error .einstunmsglen else .ok (⟨hdr, d.attrs⟩, d.pos) := by
    unfold decodeRest
    rw [hhdr, ← hl]
    rfl
  rw [hrun, ne_eq, Outcome.bind_eq_error_iff, Outcome.bind_eq_error_iff]
  constructor
  · exact (or_iff_left fun ⟨d, _, h⟩ => hend d _ (by simp) h).trans hover
  · exact not_or.mpr ⟨hfuel, fun ⟨d, _, h⟩ => hend d _ (by simp) h⟩

/-- The decoder stays inside the message exactly if the check refuses the packet, or each attribute
that the loop gets to is inside the body. -/
theorem decodesWithin_iff (env : MsgEnv) {pdu : List UInt8} {len : UInt16} (options : DecodeOptions)
    (hlen : read16 pdu 2 = some len) (hpdu : len.toNat + 20 ≤ pdu.length) :
    DecodesWithin env pdu len options ↔
      ((options.checkPacket = true → stunMsgCheck env pdu options = .ok ()) →
        AllInside len.toNat (Place.first (bodyOf pdu len))) := by
  have hstored : ∀ msghdr d, Relation.ReflTransGen (Decoding.Goes msghdr)
      (Decoding.start pdu len) d → d.attrs.length ≤ stunMaxAttr :=
    fun _ _ h => goes_stored h (Nat.zero_le _)
  have hread : read16 (pdu.take (len.toNat + 20)) 2 = some len :=
    (read16_take (by omega)).trans hlen
  obtain ⟨hover, hfuel⟩ := decodeRest_inside hread (by rw [List.length_take]; omega)
  have hbody : (pdu.take (len.toNat + 20)).drop 20 = bodyOf pdu len := by
    rw [List.drop_take, Nat.add_sub_cancel]
    rfl
  rw [hbody] at hover
  obtain ⟨hcover, hcfuel⟩ := @stunMsgCheck_inside env pdu len options hlen hpdu
  have hrun : stunMsgDecodeIn env (pdu.take (len.toNat + 20)) pdu.length options =
      (if options.checkPacket then stunMsgCheck env pdu options else .ok ()) >>= fun _ =>
        decodeRest (pdu.take (len.toNat + 20)) := by
    unfold stunMsgDecodeIn
    rw [if_neg (by omega), stunMsgCheckIn_take hlen hpdu]
    cases options.checkPacket <;> rfl
  generalize hr : (if options.checkPacket then stunMsgCheck env pdu options else .ok ()) = r at hrun
  have hok : r = .ok () ↔ (options.checkPacket = true → stunMsgCheck env pdu options = .ok ()) := by
    rw [← hr]
    split_ifs with h <;> simp [h]
  have hrover : r ≠ .error .overread ∧ r ≠ .error .noFuel := by
    rw [← hr]
    split_ifs
    · exact ⟨hcover, hcfuel⟩
    · simp
  rw [← hok]
  constructor
  · intro h hr
    by_contra hno
    refine h.inside ?_
    rw [hrun, hr]
    exact hover.mpr hno
  · intro h
    refine ⟨?_, ?_, hstored⟩
    · rw [hrun, ne_eq, Outcome.bind_eq_error_iff, not_or]
      exact ⟨hrover.1, fun ⟨_, hr, ho⟩ => absurd (h hr) (hover.mp ho)⟩
    · rw [hrun, ne_eq, Outcome.bind_eq_error_iff, not_or]
      exact ⟨hrover.2, fun ⟨_, _, ho⟩ => hfuel ho⟩

/-- The options of the examples: the packet is checked as a datagram. -/
def checkedDatagram : DecodeOptions := ⟨true, true, false⟩

/-- A message with a CHANGE-REQUEST of four bytes. -/
def changeRequestPdu : List UInt8 :=
  [0, 1, 0, 8, 0x21, 0x12, 0xA4, 0x42, 0, 0, 0, 0, 0, 0, 0, 0, 0, 0, 0, 0, 0, 3, 0, 4, 0, 0, 0, 6]

theorem decodesWithin_iff_changeRequest :
    DecodesWithin lengthSums changeRequestPdu 8 checkedDatagram :=
  (decodesWithin_iff lengthSums checkedDatagram rfl (by decide)).mpr fun _ => by
    refine fun _ => ⟨fun _ => ?_, fun _ h => absurd h (by decide)⟩
    show AttrDesc.uint.Inside 4 0 8
    exact ⟨by decide, by simp⟩

/-- A message that ends in the header of a CHANGE-REQUEST without a value: the value is read behind
the message. -/
def emptyChangeRequestPdu : List UInt8 :=
  [0, 1, 0, 4, 0x21, 0x12, 0xA4, 0x42, 0, 0, 0, 0, 0, 0, 0, 0, 0, 0, 0, 0, 0, 3, 0, 0]

theorem emptyChangeRequest_overread :
    read16 emptyChangeRequestPdu 2 = some 4 ∧ emptyChangeRequestPdu.length = 24 ∧
      ¬ DecodesWithin lengthSums emptyChangeRequestPdu 4 checkedDatagram :=
  ⟨rfl, rfl, fun h => h.inside rfl⟩

end Stun
