import PjProject.Rtp.Rtcp

set_option autoImplicit false

/-! # The round trip of source descriptions

`pjmedia_rtcp_build_rtcp_sdes` of `pjmedia/src/pjmedia/rtcp.c`, and what `pjmedia_rtcp_rx_rtcp` makes
of the packet. The items that are empty are left out, the list ends with a zero byte, and more of them
follow up to a multiple of four. Read back, a string is what its view shows in `peer_sdes_buf_`; the
string of an item that did not come is empty.
-/

namespace Rtp

open Buffer

/-- `pjmedia_rtcp_common`. -/
structure RtcpCommon where
  version : Fin 4
  p : Fin 2
  count : Fin 32
  pt : UInt8
  length : UInt16
  ssrc : UInt32
  deriving DecidableEq

/-- The bytes of the header. -/
def RtcpCommon.bytes (hdr : RtcpCommon) : List UInt8 :=
  UInt8.ofNat (hdr.version * 64 + hdr.p * 32 + hdr.count) :: hdr.pt ::
    (Wire.put16 hdr.length ++ Wire.put32 hdr.ssrc)

/-- A `pjmedia_rtcp_sdes` that the application fills in. -/
structure SdesRecord where
  cname : List UInt8
  name : List UInt8
  email : List UInt8
  phone : List UInt8
  loc : List UInt8
  tool : List UInt8
  note : List UInt8
  deriving DecidableEq

/-- The items with their `rtcp_sdes_type`, in the order they are built in. -/
def SdesRecord.items (sdes : SdesRecord) : List (UInt8 × List UInt8) :=
  [(1, sdes.cname), (2, sdes.name), (3, sdes.email), (4, sdes.phone), (5, sdes.loc), (6, sdes.tool),
    (7, sdes.note)]

/-- The number of bytes of all the strings. -/
def SdesRecord.total (sdes : SdesRecord) : Nat := (sdes.items.map fun i => i.2.length).sum

/-- Why no packet is built. -/
inductive BuildError
  | einval
  | etoosmall
  deriving DecidableEq

/-- `BUILD_SDES_ITEM`. -/
def buildSdesItem (i : UInt8 × List UInt8) : List UInt8 :=
  if i.2.length ≠ 0 then i.1 :: UInt8.ofNat i.2.length :: i.2 else []

/-- What an item adds to `len`. -/
def sdesItemLen (i : UInt8 × List UInt8) : Nat := if i.2.length ≠ 0 then i.2.length + 2 else 0

/-- The zero bytes that are written while the length is no multiple of four. -/
def pad32 (buf : List UInt8) : List UInt8 := buf ++ List.replicate ((4 - buf.length % 4) % 4) 0

/-- `pjmedia_rtcp_build_rtcp_sdes`: the bytes that are written to the buffer, and the new `*length`.
The header is a copy of the one of the session's sender report, `common`. -/
def buildRtcpSdes (common : RtcpCommon) (sdes : SdesRecord) (length : Nat) :
    Except BuildError (List UInt8 × Nat) :=
  if sdes.items.any (fun i => 255 < i.2.length) then .error .einval
  else
    let len := (sizeofCommon + (sdes.items.map sdesItemLen).sum + 1 + 3) / 4 * 4
    if length < len then .error .etoosmall
    else
      let hdr := { common with pt := UInt8.ofNat rtcpSdes, length := UInt16.ofNat (len / 4 - 1) }
      .ok (pad32 (hdr.bytes ++ sdes.items.flatMap buildSdesItem ++ [0]), len)

/-! ## What is read back -/

/-- The view of an item, by its type. -/
def RtcpSdes.get (sdes : RtcpSdes) : Nat → Option SdesValue
  | 1 => sdes.cname
  | 2 => sdes.name
  | 3 => sdes.email
  | 4 => sdes.phone
  | 5 => sdes.loc
  | 6 => sdes.tool
  | 7 => sdes.note
  | _ => none

/-- The string of an item of `peer_sdes`. -/
def RtcpSession.sdesString (sess : RtcpSession) (type : Nat) : List UInt8 :=
  match sess.sdes.get type with
  | some v => (sess.sdesBuf.val.drop v.ptr).take v.slen
  | none => []

/-- The strings of `peer_sdes`. -/
def RtcpSession.peerSdes (sess : RtcpSession) : SdesRecord where
  cname := sess.sdesString 1
  name := sess.sdesString 2
  email := sess.sdesString 3
  phone := sess.sdesString 4
  loc := sess.sdesString 5
  tool := sess.sdesString 6
  note := sess.sdesString 7

theorem RtcpSdes.get_store {t : Nat} (ht : 1 ≤ t ∧ t ≤ 7) (sdes : RtcpSdes) (v : SdesValue) (t' : Nat) :
    (sdes.store t v).get t' = if t' = t then some v else sdes.get t' := by
  obtain rfl | rfl | rfl | rfl | rfl | rfl | rfl :
      t = 1 ∨ t = 2 ∨ t = 3 ∨ t = 4 ∨ t = 5 ∨ t = 6 ∨ t = 7 := by omega
  all_goals
    unfold store get
    split <;> simp_all

@[simp] theorem RtcpSdes.get_zero (t : Nat) : RtcpSdes.zero.get t = none := by
  unfold RtcpSdes.get RtcpSdes.zero
  split <;> rfl

/-- The values are in the first `b` bytes of the buffer, and the strings are `m`. -/
structure Holds (sess : RtcpSession) (b : Nat) (m : Nat → List UInt8) : Prop where
  inside : ∀ t v, sess.sdes.get t = some v → v.ptr + v.slen ≤ b
  string : ∀ t, sess.sdesString t = m t

theorem holds_zero (sess : RtcpSession) : Holds { sess with sdes := .zero } 0 (fun _ => []) where
  inside t v h := by
    rw [RtcpSdes.get_zero] at h
    cases h
  string t := by
    unfold RtcpSession.sdesString
    rw [RtcpSdes.get_zero]

variable {pkt rest value : List UInt8} {sess : RtcpSession} {m : Nat → List UInt8} {a : UInt8}
  {p b t : Nat}

/-- The byte that the rest of a packet begins with. -/
theorem content_of_drop (h : pkt.drop p = a :: rest) : p < pkt.length ∧ content pkt p = a.toNat := by
  have hlen := congrArg List.length h
  rw [List.length_drop, List.length_cons] at hlen
  have hget : pkt[p]? = some a := by
    rw [← List.head?_drop, h, List.head?_cons]
  exact ⟨by omega, by simp [content, hget]⟩

/-- A string that ends below the place that is written to stays as it is. -/
theorem view_of_write (buf bytes tail : List UInt8) {ptr slen : Nat} (hb : b ≤ buf.length)
    (h : ptr + slen ≤ b) :
    ((buf.take b ++ bytes ++ tail).drop ptr).take slen = (buf.drop ptr).take slen := by
  have hleft : ptr ≤ (buf.take b).length := by
    rw [List.length_take]
    omega
  rw [List.append_assoc, List.drop_append_of_le_length hleft, List.drop_take]
  have hslen : slen ≤ ((buf.drop ptr).take (b - ptr)).length := by
    rw [List.length_take, List.length_drop]
    omega
  rw [List.take_append_of_le_length hslen, List.take_take, Nat.min_eq_left (by omega)]

/-- An item that there is room for is stored behind the others. -/
theorem storeItem_holds (ht : 1 ≤ t ∧ t ≤ 7) (h : Holds sess b m) (hdrop : pkt.drop p = value ++ rest)
    (hroom : b + value.length < sdesBufLen) :
    Yields (fun r => r.2 = b + value.length ∧ Holds r.1 r.2 (Function.update m t value))
      (storeItem pkt sess t p b value.length) := by
  have hlen := congrArg List.length hdrop
  rw [List.length_drop, List.length_append] at hlen
  have hbuf := sess.sdesBuf.property
  have hvalue : (pkt.drop p).take value.length = value := by rw [hdrop, List.take_left]
  unfold storeItem
  rw [if_pos hroom, yields_bytesAt, hvalue]
  refine ⟨by omega, ?_⟩
  unfold writeSdesBuf
  rw [dif_pos hroom.le, yields_bind, yields_ok, yields_ok]
  refine ⟨rfl, ⟨fun t' v hv => ?_, fun t' => ?_⟩⟩
  · rw [RtcpSdes.get_store ht] at hv
    by_cases htt : t' = t
    · rw [if_pos htt] at hv
      cases hv
      exact le_rfl
    · rw [if_neg htt] at hv
      have := h.inside t' v hv
      omega
  · unfold RtcpSession.sdesString
    rw [RtcpSdes.get_store ht]
    by_cases htt : t' = t
    · subst htt
      have hleft : (sess.sdesBuf.val.take b).length = b := by
        rw [List.length_take]
        omega
      simp only [if_true, Function.update_self]
      rw [List.append_assoc, List.drop_left' hleft, List.take_left]
    · rw [if_neg htt, Function.update_of_ne htt, ← h.string t']
      unfold RtcpSession.sdesString
      cases hget : sess.sdes.get t' with
      | none => rfl
      | some v => exact view_of_write _ _ _ (by omega) (h.inside t' v hget)

/-! ## The list of the items -/

/-- The strings after the items of a list have come. -/
def received (m : Nat → List UInt8) (items : List (UInt8 × List UInt8)) : Nat → List UInt8 :=
  items.foldl (fun m i => Function.update m i.1.toNat i.2) m

/-- An item of a record: its type is one of the seven, and its string is short enough. -/
def ItemFits (i : UInt8 × List UInt8) : Prop := (1 ≤ i.1.toNat ∧ i.1.toNat ≤ 7) ∧ i.2.length ≤ 255

/-- The parser takes the items that were built, one after the other, and stops at the zero byte. -/
theorem sdesLoop_items {items : List (UInt8 × List UInt8)} (hfits : ∀ i ∈ items, ItemFits i)
    (hnodup : (items.map (·.1.toNat)).Nodup) (hempty : ∀ i ∈ items, m i.1.toNat = [])
    (h : Holds sess b m) (hroom : b + (items.map (·.2.length)).sum < sdesBufLen) {turns : Nat}
    (hturns : pkt.length - p ≤ turns)
    (hdrop : pkt.drop p = items.flatMap buildSdesItem ++ 0 :: rest) :
    Yields (fun sess' => ∃ b', Holds sess' b' (received m items))
      (sdesLoop pkt turns sess p b pkt.length) := by
  induction items generalizing sess p b m turns with
  | nil =>
      obtain ⟨hp, hzero⟩ := content_of_drop hdrop
      obtain ⟨turns, rfl⟩ : ∃ n, turns = n + 1 := ⟨turns - 1, by omega⟩
      unfold sdesLoop
      rw [if_pos hp, yields_byteAt, if_pos (Or.inl (by rw [hzero]; rfl)), yields_ok]
      exact ⟨hp, b, h⟩
  | cons i items ih =>
      rw [List.map_cons, List.nodup_cons] at hnodup
      simp only [List.map_cons, List.sum_cons] at hroom
      have hmem : ∀ j ∈ items, j ∈ i :: items := fun j hj => List.mem_cons_of_mem i hj
      have hne : ∀ j ∈ items, j.1.toNat ≠ i.1.toNat := by
        intro j hj heq
        exact hnodup.1 (heq ▸ List.mem_map_of_mem hj)
      have hempty' : ∀ j ∈ items, Function.update m i.1.toNat i.2 j.1.toNat = [] := by
        intro j hj
        rw [Function.update_of_ne (hne j hj)]
        exact hempty j (hmem j hj)
      rw [List.flatMap_cons, List.append_assoc] at hdrop
      by_cases hi : i.2 = []
      -- an empty item is not built, and nothing is there to be read
      · have hm : Function.update m i.1.toNat i.2 = m := by
          rw [hi, ← hempty i List.mem_cons_self, Function.update_eq_self]
        rw [show buildSdesItem i = [] by simp [buildSdesItem, hi], List.nil_append] at hdrop
        rw [hm] at hempty'
        have hrun := ih (fun j hj => hfits j (hmem j hj)) hnodup.2 hempty' h (by omega) hturns hdrop
        rw [received, List.foldl_cons, hm]
        exact hrun
      · have hpos : i.2.length ≠ 0 := fun h0 => hi (List.length_eq_zero_iff.mp h0)
        obtain ⟨htype, hlen⟩ := hfits i List.mem_cons_self
        rw [buildSdesItem, if_pos hpos, List.cons_append, List.cons_append] at hdrop
        obtain ⟨hp, ht⟩ := content_of_drop hdrop
        have hdrop1 : pkt.drop (p + 1) =
            UInt8.ofNat i.2.length :: (i.2 ++ (items.flatMap buildSdesItem ++ 0 :: rest)) := by
          rw [← List.drop_drop, hdrop, List.drop_one, List.tail_cons]
        have hdrop2 : pkt.drop (p + 2) = i.2 ++ (items.flatMap buildSdesItem ++ 0 :: rest) := by
          rw [show p + 2 = p + 1 + 1 from rfl, ← List.drop_drop, hdrop1, List.drop_one, List.tail_cons]
        have hdrop3 : pkt.drop (p + 2 + i.2.length) = items.flatMap buildSdesItem ++ 0 :: rest := by
          rw [← List.drop_drop, hdrop2, List.drop_left]
        obtain ⟨hp1, hslen⟩ := content_of_drop hdrop1
        have hslen' : content pkt (p + 1) = i.2.length := by
          rw [hslen, UInt8.toNat_ofNat']
          omega
        have hend : p + 2 + i.2.length < pkt.length := by
          have := congrArg List.length hdrop3
          simp only [List.length_drop, List.length_append, List.length_cons] at this
          omega
        obtain ⟨turns, rfl⟩ : ∃ n, turns = n + 1 := ⟨turns - 1, by omega⟩
        unfold sdesLoop
        rw [if_pos hp, yields_byteAt, ht, if_neg (by omega), yields_byteAt, hslen', if_neg (by omega),
          yields_bind]
        refine ⟨hp, hp1, (storeItem_holds htype h hdrop2 (by omega)).mono ?_⟩
        rintro ⟨sess', b'⟩ ⟨rfl, hholds⟩
        exact ih (fun j hj => hfits j (hmem j hj)) hnodup.2 hempty' hholds (by omega) (by omega) hdrop3

/-! ## Whole packets -/

theorem length_items (items : List (UInt8 × List UInt8)) :
    (items.flatMap buildSdesItem).length = (items.map sdesItemLen).sum := by
  induction items with
  | nil => rfl
  | cons i items ih =>
      have hi : (buildSdesItem i).length = sdesItemLen i := by
        unfold buildSdesItem sdesItemLen
        by_cases h : i.2.length = 0 <;> simp [h]
      simp only [List.flatMap_cons, List.length_append, List.map_cons, List.sum_cons, hi, ih]

theorem RtcpCommon.length_bytes (hdr : RtcpCommon) : hdr.bytes.length = 8 := rfl

/-- What is read of the header of a packet. -/
theorem RtcpCommon.content_bytes (hdr : RtcpCommon) (rest : List UInt8) :
    content (hdr.bytes ++ rest) 1 = hdr.pt.toNat ∧
      content16 (hdr.bytes ++ rest) 2 = hdr.length.toNat := by
  refine ⟨rfl, ?_⟩
  have hlt := hdr.length.toNat_lt
  have h16 : content16 (hdr.bytes ++ rest) 2 =
      (UInt8.ofNat (hdr.length.toNat / 256)).toNat * 256 + (UInt8.ofNat hdr.length.toNat).toNat := rfl
  rw [h16, UInt8.toNat_ofNat', UInt8.toNat_ofNat']
  omega

/-- A sub-packet that is the whole packet: its parser gets all of it, and nothing is behind it. -/
theorem rxRtcp_single {hdr : RtcpCommon} {body : List UInt8}
    (h : (hdr.length.toNat + 1) * 4 = (hdr.bytes ++ body).length) :
    rxRtcp (hdr.bytes ++ body) sess =
      parseSubPacket (hdr.bytes ++ body) sess 0 hdr.pt.toNat (hdr.bytes ++ body).length := by
  obtain ⟨hpt, hlength⟩ := hdr.content_bytes body
  have hlen : (hdr.bytes ++ body).length = 8 + body.length := by
    rw [List.length_append, RtcpCommon.length_bytes]
  generalize hpkt : hdr.bytes ++ body = pkt at hpt hlength hlen h ⊢
  obtain ⟨turns, hturns⟩ : ∃ n, pkt.length = n + 1 := ⟨pkt.length - 1, by omega⟩
  have hbe : be16At RtcpFault.outOfBounds pkt 2 = .ok hdr.length.toNat := by
    rw [be16At, access, if_pos (by omega), hlength]
  have hbyte : byteAt RtcpFault.outOfBounds pkt 1 = .ok hdr.pt.toNat := by
    rw [byteAt, access, if_pos (by omega), hpt]
  unfold rxRtcp
  rw [rxLoop, if_pos (by omega), hbe, hbyte]
  simp only [bind, Except.bind, Nat.zero_add, h]
  cases hparse : parseSubPacket pkt sess 0 hdr.pt.toNat pkt.length with
  | error e => rfl
  | ok sess' =>
      show rxLoop pkt pkt.length sess' pkt.length = .ok sess'
      rw [hturns, rxLoop, if_neg (by omega)]

/-- The type of a packet of source descriptions. -/
theorem parseSubPacket_sdes (sess : RtcpSession) (size : Nat) :
    parseSubPacket pkt sess 0 rtcpSdes size = parseRtcpSdes pkt sess 0 size := by
  unfold parseSubPacket
  rw [if_neg (by decide), if_pos rfl]

theorem SdesRecord.sum_items {sdes : SdesRecord} (h : ∀ i ∈ sdes.items, i.2.length ≤ 255) :
    (sdes.items.map sdesItemLen).sum ≤ 7 * 257 := by
  have hle : ∀ n ∈ sdes.items.map sdesItemLen, n ≤ 257 := by
    intro n hn
    obtain ⟨i, hi, rfl⟩ := List.mem_map.mp hn
    have := h i hi
    unfold sdesItemLen
    split <;> omega
  simpa [SdesRecord.items] using List.sum_le_card_nsmul _ 257 hle

/-- What is written of a record: the header with the length of the packet, the items, a zero byte and
more of them up to a multiple of four. -/
theorem buildRtcpSdes_ok {common : RtcpCommon} {sdes : SdesRecord} {length len : Nat}
    {buf : List UInt8} (h : buildRtcpSdes common sdes length = .ok (buf, len)) :
    (∀ i ∈ sdes.items, i.2.length ≤ 255) ∧ buf.length = len ∧
      ∃ hdr : RtcpCommon, ∃ zeros, buf = hdr.bytes ++ (sdes.items.flatMap buildSdesItem ++ 0 :: zeros) ∧
        hdr.pt.toNat = rtcpSdes ∧ (hdr.length.toNat + 1) * 4 = len := by
  unfold buildRtcpSdes at h
  split at h
  · cases h
  rename_i hany
  have hshort : ∀ i ∈ sdes.items, i.2.length ≤ 255 := by
    simpa using hany
  have hsum := SdesRecord.sum_items hshort
  simp only at h
  split at h
  · cases h
  cases h
  refine ⟨hshort, ?_, ?_⟩
  · simp only [pad32, List.length_append, List.length_replicate, List.length_singleton, length_items,
      RtcpCommon.length_bytes, sizeofCommon]
    omega
  · generalize hlen : (sizeofCommon + (sdes.items.map sdesItemLen).sum + 1 + 3) / 4 * 4 = len
    set hdr : RtcpCommon :=
      { common with pt := UInt8.ofNat rtcpSdes, length := UInt16.ofNat (len / 4 - 1) } with hhdr
    set buf := hdr.bytes ++ sdes.items.flatMap buildSdesItem ++ [0] with hbuf
    refine ⟨hdr, List.replicate ((4 - buf.length % 4) % 4) 0, ?_, rfl, ?_⟩
    · rw [pad32, hbuf, List.append_assoc, List.append_assoc, List.singleton_append, List.append_assoc]
    · rw [hhdr, UInt16.toNat_ofNat']
      unfold sizeofCommon at hlen
      omega

/-- The strings of a record that has come, by their types. -/
theorem received_items (sdes : SdesRecord) :
    received (fun _ => []) sdes.items 1 = sdes.cname ∧ received (fun _ => []) sdes.items 2 = sdes.name ∧
    received (fun _ => []) sdes.items 3 = sdes.email ∧ received (fun _ => []) sdes.items 4 = sdes.phone ∧
    received (fun _ => []) sdes.items 5 = sdes.loc ∧ received (fun _ => []) sdes.items 6 = sdes.tool ∧
    received (fun _ => []) sdes.items 7 = sdes.note := by
  simp [received, SdesRecord.items]

/-- **A record that is built comes back.** The length is the one that the header claims, and a session
that receives the packet has the same seven strings, if there is room for all of them. -/
theorem sdes_roundTrip {common : RtcpCommon} {sdes : SdesRecord} {length len : Nat} {buf : List UInt8}
    (hroom : sdes.total < sdesBufLen) (h : buildRtcpSdes common sdes length = .ok (buf, len))
    (sess : RtcpSession) :
    buf.length = len ∧ len % 4 = 0 ∧ len = 4 * (content16 buf 2 + 1) ∧
      ∃ sess', rxRtcp buf sess = .ok sess' ∧ sess'.peerSdes = sdes := by
  obtain ⟨hshort, hlen, hdr, zeros, hbuf, hpt, hfield⟩ := buildRtcpSdes_ok h
  have hfits : ∀ i ∈ sdes.items, ItemFits i := by
    intro i hi
    refine ⟨?_, hshort i hi⟩
    simp only [SdesRecord.items, List.mem_cons, List.not_mem_nil, or_false] at hi
    rcases hi with rfl | rfl | rfl | rfl | rfl | rfl | rfl <;> simp
  have hdrop : buf.drop 8 = sdes.items.flatMap buildSdesItem ++ 0 :: zeros := by
    rw [hbuf, List.drop_left' hdr.length_bytes]
  have hlength : content16 buf 2 = hdr.length.toNat := by
    rw [hbuf]
    exact (hdr.content_bytes _).2
  refine ⟨hlen, by omega, by omega, ?_⟩
  have hparse : rxRtcp buf sess = parseRtcpSdes buf sess 0 buf.length := by
    rw [hbuf, rxRtcp_single (by rw [← hbuf]; omega), hpt, parseSubPacket_sdes]
  have hitems : Yields (fun sess' => ∃ b', Holds sess' b' (received (fun _ => []) sdes.items))
      (sdesLoop buf buf.length { sess with sdes := .zero } 8 0 buf.length) :=
    sdesLoop_items hfits (by simp [SdesRecord.items]) (fun _ _ => rfl) (holds_zero sess)
      (by rw [Nat.zero_add]; exact hroom) (by omega) hdrop
  obtain ⟨sess', hrun, b', hholds⟩ := hitems
  refine ⟨sess', ?_, ?_⟩
  · rw [hparse, parseRtcpSdes, Nat.zero_add, Nat.zero_add]
    exact hrun
  · obtain ⟨h1, h2, h3, h4, h5, h6, h7⟩ := received_items sdes
    simp only [RtcpSession.peerSdes, hholds.string, h1, h2, h3, h4, h5, h6, h7]

/-- A record of a name and a tool. -/
theorem sdes_roundTrip_twoItems : ∃ sess',
    rxRtcp [129, 202, 0, 4, 0, 0, 0, 9, 1, 2, 97, 98, 6, 3, 112, 106, 109, 0, 0, 0] freshSession =
      .ok sess' ∧ sess'.peerSdes = ⟨[97, 98], [], [], [], [], [112, 106, 109], []⟩ :=
  (@sdes_roundTrip ⟨2, 0, 1, 200, 12, 9⟩ _ 64 20 _ (by decide) (by decide) freshSession).2.2.2

end Rtp
