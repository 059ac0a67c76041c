import PjProject.Stun.EncodeShape

set_option autoImplicit false

/-! # Where the encoder writes

`pj_stun_msg_encode` keeps what is left of the buffer in `buf_size`, an unsigned number of 64 bits,
and hands its lower 32 bits to the encoder of each attribute, which compares them with the room it
needs and returns in `*printed` how far the next attribute is. The encoders do not agree on the room:
some leave out the padding that they count in `*printed`, and that of an address writes the type
before it looks.

Here a call of an encoder is the end of what it writes and what it prints (`Call`), in the integers
of the source; `encodeCalls` is the run of the calls with its counter. `encodesWithin_iff` says when
the run stays in the buffer, and `encodeCalls_agrees` that such a run is that of `stunMsgEncode`.
-/

namespace Stun

open Wire

/-! ## The encoders -/

/-- The lower 32 bits. -/
def wrap32 (n : Nat) : Nat := n % 4294967296

/-- `(n + 3) & ~3` in 32 bits. -/
def pad32 (n : Nat) : Nat := wrap32 (n + 3) / 4 * 4

/-- What a call of an encoder does: the end of what it writes from its `buf` on, and `*printed`. -/
structure Call where
  reach : Nat
  printed : Except MsgStatus Nat

/-- An encoder that is given `len` bytes: it writes `early` bytes, compares `len` with `checked`,
and writes up to `reach`. -/
def Call.ofRoom (early checked reach printed len : Nat) : Call :=
  if len < checked then ⟨early, .error .etoosmall⟩ else ⟨reach, .ok printed⟩

/-- `encode_sockaddr_attr`: the type is written before the check. -/
def encodeSockaddrCall (addr : SockAddr) : Nat → Call :=
  Call.ofRoom 2 (4 + addr.attrLen) (4 + addr.attrLen) (4 + addr.attrLen)

/-- `encode_string_attr`. -/
def encodeStringCall (slen : Nat) : Nat → Call :=
  Call.ofRoom 0 (pad32 (slen + 4)) (4 + pad4 slen) (pad32 (slen + 4))

/-- `encode_empty_attr`. -/
def encodeEmptyCall : Nat → Call := Call.ofRoom 0 4 4 4

/-- `encode_uint_attr`. -/
def encodeUintCall : Nat → Call := Call.ofRoom 0 8 8 8

/-- `encode_uint64_attr`. -/
def encodeUint64Call : Nat → Call := Call.ofRoom 0 12 12 12

/-- `encode_msgint_attr`. -/
def encodeMsgintCall : Nat → Call := Call.ofRoom 0 24 24 24

/-- `encode_errcode_attr`: the check leaves out the padding. -/
def encodeErrcodeCall (slen : Nat) : Nat → Call :=
  Call.ofRoom 0 (wrap32 (8 + slen)) (8 + slen) (pad32 (8 + slen))

/-- `encode_unknown_attr`: the check leaves out the padding. -/
def encodeUnknownCall (attrCount : Nat) : Nat → Call :=
  Call.ofRoom 0 (wrap32 (4 + attrCount * 2)) (4 + attrCount * 2) (pad32 (4 + attrCount * 2))

/-- `encode_binary_attr`. -/
def encodeBinaryCall (length : Nat) : Nat → Call :=
  Call.ofRoom 0 (pad32 (length + 4)) (4 + length) (pad32 (length + 4))

/-- `encode_attr` of the attribute in the table, or `encode_binary_attr`. The number of data and of
types is kept in 32 bits, the length of a string in 64. -/
def encodeAttrCall (a : Attr) (len : Nat) : Call :=
  match findAttrDesc a.type, a.value with
  | some .sockaddr, .sockaddr _ addr => encodeSockaddrCall addr len
  | some .xoredSockaddr, .sockaddr _ addr => encodeSockaddrCall addr len
  | some .string, .string value => encodeStringCall value.length len
  | some .msgint, .msgint _ => encodeMsgintCall len
  | some .errcode, .errcode _ reason => encodeErrcodeCall reason.length len
  | some .unknown, .unknown attrs => encodeUnknownCall (wrap32 attrs.length) len
  | some .uint, .uint _ => encodeUintCall len
  | some .uint64, .uint64 _ _ => encodeUint64Call len
  | some .binary, .binary data => encodeBinaryCall (wrap32 data.length) len
  | some .empty, .empty => encodeEmptyCall len
  | none, .binary data => encodeBinaryCall (wrap32 data.length) len
  | none, _ => ⟨0, .error .ebug⟩
  | _, _ => ⟨0, .error .badCast⟩

/-! ## The run -/

/-- The distance of `buf` from the start, `buf_size`, the end of what has been written, and whether
`buf_size` has been below zero. -/
structure Cursor where
  pos : Nat
  bufSize : Nat
  reach : Nat
  wrapped : Bool
  deriving DecidableEq

/-- `n` bytes from `buf` on are written. -/
def Cursor.wrote (c : Cursor) (n : Nat) : Cursor := { c with reach := max c.reach (c.pos + n) }

/-- `buf += printed` and `buf_size -= printed`. -/
def Cursor.advance (c : Cursor) (printed : Nat) : Cursor :=
  { c with
    pos := c.pos + printed
    bufSize := (c.bufSize + 18446744073709551616 - printed) % 18446744073709551616
    wrapped := c.wrapped || decide (c.bufSize < printed) }

/-- What has been done, and a value or an error. -/
abbrev Ran (α : Type) := Cursor × Except MsgStatus α

/-- What comes after a call that returns. -/
def Ran.andThen {α β : Type} (r : Ran α) (f : α → Cursor → Ran β) : Ran β :=
  match r.2 with
  | .ok a => f a r.1
  | .error e => (r.1, .error e)

/-- An encoder is called with what is left of the buffer. -/
def Cursor.call (c : Cursor) (encode : Nat → Call) : Ran Unit :=
  let k := encode (wrap32 c.bufSize)
  match k.printed with
  | .ok printed => ((c.wrote k.reach).advance printed, .ok ())
  | .error e => (c.wrote k.reach, .error e)

/-- The loop over the attributes, up to MESSAGE-INTEGRITY or FINGERPRINT. -/
def encodeAttrsCalls : List Attr → Cursor → Ran Nat
  | [], c => (c, .ok 0)
  | a :: attrs, c =>
      if a.isSum then (c, .ok 0)
      else (c.call (encodeAttrCall a)).andThen fun _ c =>
        (encodeAttrsCalls attrs c).andThen fun n c => (c, .ok (n + 1))

/-- `pj_stun_msg_encode` into a buffer of `bufSize` bytes: the calls, and the length it returns. -/
def encodeCalls (msg : Msg) (bufSize : UInt64) (options : Nat) (key : Option (List UInt8)) :
    Ran Nat :=
  let start : Cursor := ⟨0, bufSize.toNat, 0, false⟩
  if bufSize.toNat = 0 then (start, .error .einval)
  else if options ≠ 0 then (start, .error .einval)
  else if bufSize.toNat < 20 then (start, .error .etoosmall)
  else
    (encodeAttrsCalls msg.attrs ((start.wrote 20).advance 20)).andThen fun n c =>
    Ran.andThen (c, scanSums (msg.attrs.drop (n + 1)) (n + 1) (stoppedAt msg.attrs n)) fun sums c =>
    Ran.andThen (if sums.amsgint.isNone then (c, .ok ())
      else if key.isNone then (c, .error .einvalidop)
      else c.call encodeMsgintCall) fun _ c =>
    Ran.andThen (if sums.afingerprint.isNone then (c, .ok ()) else c.call encodeUintCall) fun _ c =>
    (c, .ok c.pos)

/-- The encoder writes in the buffer, its counter stays above zero, and the length that it returns
is at most that of the buffer. -/
structure EncodesWithin (msg : Msg) (bufSize : UInt64) (options : Nat) (key : Option (List UInt8)) :
    Prop where
  inside : (encodeCalls msg bufSize options key).1.reach ≤ bufSize.toNat
  counts : (encodeCalls msg bufSize options key).1.wrapped = false
  returns : ∀ n, (encodeCalls msg bufSize options key).2 = .ok n → n ≤ bufSize.toNat

/-! ## What an attribute needs -/

/-- What is added to `buf`. -/
def Attr.printed (a : Attr) : Nat := pad32 (4 + a.value.size)

/-- What the room is compared with: ERROR-CODE and UNKNOWN-ATTRIBUTES leave out the padding. -/
def Attr.checked (a : Attr) : Nat :=
  match a.value with
  | .errcode _ _ | .unknown _ => wrap32 (4 + a.value.size)
  | _ => a.printed

/-- The end of what is written: a string is written with its padding. -/
def Attr.reach (a : Attr) : Nat :=
  match a.value with
  | .string value => 4 + pad4 value.length
  | .unknown attrs => 4 + wrap32 attrs.length * 2
  | .binary data => 4 + wrap32 data.length
  | value => 4 + value.size

/-- What is written before the room is looked at: the type of an address. -/
def Attr.early (a : Attr) : Nat :=
  match a.value with
  | .sockaddr _ _ => 2
  | _ => 0

theorem pad32_eq {n : Nat} (h : n < 4294967293) : pad32 n = pad4 n := by
  unfold pad32 wrap32 pad4
  rw [Nat.mod_eq_of_lt (by omega)]

theorem pad32_wrap (m n k : Nat) : pad32 (m + wrap32 n * k) = pad32 (m + n * k) := by
  unfold pad32 wrap32
  have hmod : (m + n % 4294967296 * k + 3) % 4294967296 = (m + n * k + 3) % 4294967296 := by
    simp [Nat.add_mod, Nat.mul_mod]
  rw [hmod]

theorem encodeAttrCall_eq {a : Attr} (h : a.HasEncoder) (len : Nat) :
    encodeAttrCall a len = Call.ofRoom a.early a.checked a.reach a.printed len := by
  have haddr : ∀ addr : SockAddr, pad32 (4 + addr.attrLen) = 4 + addr.attrLen := by
    intro addr
    cases addr <;> simp [SockAddr.attrLen, pad32, wrap32]
  have hlen : ∀ n, pad32 (wrap32 n + 4) = pad32 (4 + n) := by
    intro n
    have := pad32_wrap 4 n 1
    rwa [Nat.mul_one, Nat.mul_one, Nat.add_comm 4] at this
  have hcount : ∀ n, wrap32 (4 + wrap32 n * 2) = wrap32 (4 + n * 2) := by
    intro n
    simp [wrap32, Nat.add_mod, Nat.mul_mod]
  unfold Attr.early Attr.checked Attr.reach Attr.printed
  cases h with
  | sockaddr hd hv =>
      rcases hd with hd | hd
      · rw [encodeAttrCall, hd, hv]
        simp only [encodeSockaddrCall, AttrValue.size, haddr]
      · rw [encodeAttrCall, hd, hv]
        simp only [encodeSockaddrCall, AttrValue.size, haddr]
  | string hd hv =>
      rw [encodeAttrCall, hd, hv]
      simp only [encodeStringCall, AttrValue.size, Nat.add_comm 4]
  | errcode hd hv =>
      rw [encodeAttrCall, hd, hv]
      simp only [encodeErrcodeCall, AttrValue.size, ← Nat.add_assoc]
  | unknown hd hv =>
      rw [encodeAttrCall, hd, hv]
      simp only [encodeUnknownCall, AttrValue.size, hcount, pad32_wrap]
  | binary hd hv =>
      rcases hd with hd | hd
      · rw [encodeAttrCall, hd, hv]
        simp only [encodeBinaryCall, AttrValue.size, hlen]
      · rw [encodeAttrCall, hd, hv]
        simp only [encodeBinaryCall, AttrValue.size, hlen]
  | msgint hd hv =>
      rw [encodeAttrCall, hd, hv]
      simp only [encodeMsgintCall, AttrValue.size, show pad32 (4 + 20) = 24 by decide]
  | uint hd hv =>
      rw [encodeAttrCall, hd, hv]
      simp only [encodeUintCall, AttrValue.size, show pad32 (4 + 4) = 8 by decide]
  | uint64 hd hv =>
      rw [encodeAttrCall, hd, hv]
      simp only [encodeUint64Call, AttrValue.size, show pad32 (4 + 8) = 12 by decide]
  | empty hd hv =>
      rw [encodeAttrCall, hd, hv]
      simp only [encodeEmptyCall, AttrValue.size, show pad32 (4 + 0) = 4 by decide]

/-- Without an encoder nothing is written. -/
theorem encodeAttr_stops {a : Attr} (h : ¬ a.HasEncoder) :
    ∃ e, (∀ env msghdr buf, encodeAttr env msghdr a buf = .error e) ∧
      ∀ len, encodeAttrCall a len = ⟨0, .error e⟩ := by
  unfold encodeAttr encodeAttrCall
  cases hv : a.value <;> cases hd : findAttrDesc a.type with
  | none =>
      first
        | exact ⟨_, fun _ _ _ => rfl, fun _ => rfl⟩
        | exact absurd (.binary (.inr hd) hv) h
  | some desc =>
      cases desc <;> first
        | exact ⟨_, fun _ _ _ => rfl, fun _ => rfl⟩
        | (refine absurd ?_ h
           first
             | exact .sockaddr (.inl hd) hv
             | exact .sockaddr (.inr hd) hv
             | exact .string hd hv
             | exact .msgint hd hv
             | exact .errcode hd hv
             | exact .unknown hd hv
             | exact .uint hd hv
             | exact .uint64 hd hv
             | exact .binary (.inl hd) hv
             | exact .empty hd hv)

/-- The attribute fits `room` bytes: there is room for what is written before the check, and
whatever passes the check has room for all that is written and for what is counted. -/
structure Attr.Fits (a : Attr) (room : Nat) : Prop where
  early : a.early ≤ room
  late : a.checked ≤ wrap32 room → a.reach ≤ room ∧ a.printed ≤ room

/-- The attributes that the encoder comes to fit what the ones before have left. It comes to the
attributes in front of MESSAGE-INTEGRITY and FINGERPRINT, up to the first that does not pass its
check. -/
def FitsAll : List Attr → Nat → Prop
  | [], _ => True
  | a :: attrs, room => a.isSum = true ∨ ¬ a.HasEncoder ∨
      a.Fits room ∧ (a.checked ≤ wrap32 room → FitsAll attrs (room - a.printed))

/-! ## The calls -/

/-- Nothing wrong has happened in a buffer of `total` bytes. -/
structure Cursor.Within (c : Cursor) (total : Nat) : Prop where
  reach : c.reach ≤ total
  wrapped : c.wrapped = false

/-- Nothing wrong has happened, and `buf_size` is what is left. -/
structure Cursor.Sound (c : Cursor) (total : Nat) : Prop extends Cursor.Within c total where
  left : c.pos + c.bufSize = total

/-- What has happened stays. -/
structure Cursor.Grows (c c' : Cursor) : Prop where
  reach : c.reach ≤ c'.reach
  wrapped : c'.wrapped = false → c.wrapped = false

theorem Cursor.Grows.rfl {c : Cursor} : c.Grows c := ⟨Nat.le_refl _, id⟩

theorem Cursor.Grows.trans {c c' c'' : Cursor} (h : c.Grows c') (h' : c'.Grows c'') :
    c.Grows c'' := ⟨Nat.le_trans h.reach h'.reach, fun hw => h.wrapped (h'.wrapped hw)⟩

theorem Cursor.Within.of_grows {c c' : Cursor} {total : Nat} (h : c'.Within total)
    (hg : c.Grows c') : c.Within total := ⟨Nat.le_trans hg.reach h.reach, hg.wrapped h.wrapped⟩

section Ran

variable {α β : Type} {r : Ran α} {f : α → Cursor → Ran β} {total : Nat}

theorem andThen_ok {c : Cursor} {a : α} : Ran.andThen (c, .ok a) f = f a c := rfl

theorem andThen_error {c : Cursor} {e : MsgStatus} :
    Ran.andThen ((c, .error e) : Ran α) f = (c, .error e) := rfl

theorem andThen_grows (hf : ∀ (a : α) (c : Cursor), c.Grows (f a c).1) :
    r.1.Grows (r.andThen f).1 := by
  obtain ⟨c, x⟩ := r
  cases x with
  | ok a => exact hf a c
  | error e => exact .rfl

theorem andThen_eq_ok {b : β} (h : (r.andThen f).2 = .ok b) :
    ∃ a, r.2 = .ok a ∧ r.andThen f = f a r.1 := by
  obtain ⟨c, x⟩ := r
  cases x with
  | ok a => exact ⟨a, rfl, rfl⟩
  | error e => cases h

/-- A value that is only renamed. -/
theorem andThen_map (g : α → β) : (r.andThen fun a c => (c, .ok (g a))).1 = r.1 ∧
    ∀ b, (r.andThen fun a c => (c, .ok (g a))).2 = .ok b → ∃ a, r.2 = .ok a := by
  obtain ⟨c, x⟩ := r
  cases x with
  | ok a => exact ⟨rfl, fun _ _ => ⟨a, rfl⟩⟩
  | error e => exact ⟨rfl, fun _ h => by cases h⟩

theorem call_grows (c : Cursor) (encode : Nat → Call) : c.Grows (c.call encode).1 := by
  have hwrote : ∀ n, c.Grows (c.wrote n) := fun n => ⟨Nat.le_max_left _ _, id⟩
  have hadvance : ∀ c' printed, Cursor.Grows c' (c'.advance printed) := by
    intro c' printed
    refine ⟨Nat.le_refl _, fun h => ?_⟩
    rw [Cursor.advance, Bool.or_eq_false_iff] at h
    exact h.1
  unfold Cursor.call
  dsimp only
  split
  · exact (hwrote _).trans (hadvance _ _)
  · exact hwrote _

theorem encodeAttrsCalls_grows : ∀ (attrs : List Attr) (c : Cursor),
    c.Grows (encodeAttrsCalls attrs c).1
  | [], _ => .rfl
  | a :: attrs, c => by
      rw [encodeAttrsCalls]
      split
      · exact .rfl
      · refine (call_grows c _).trans (andThen_grows fun _ c => ?_)
        exact (encodeAttrsCalls_grows attrs c).trans (andThen_grows fun _ _ => .rfl)

end Ran

section Bounds

variable {c : Cursor} {total early checked reach printed : Nat}

/-- A call that finds too little room has written `early` bytes. -/
theorem call_small (h : wrap32 c.bufSize < checked) :
    c.call (Call.ofRoom early checked reach printed) = (c.wrote early, .error .etoosmall) := by
  unfold Cursor.call Call.ofRoom
  simp only [h, if_true]

/-- A call that finds room has written up to `reach`. -/
theorem call_room (h : checked ≤ wrap32 c.bufSize) :
    c.call (Call.ofRoom early checked reach printed) =
      ((c.wrote reach).advance printed, .ok ()) := by
  unfold Cursor.call Call.ofRoom
  simp only [Nat.not_lt.mpr h, if_false]

theorem wrote_within (hs : c.Sound total) (n : Nat) :
    (c.wrote n).Within total ↔ n ≤ c.bufSize := by
  have hleft := hs.left
  constructor
  · intro h
    have := (Nat.le_max_right c.reach (c.pos + n)).trans h.reach
    omega
  · intro h
    exact ⟨Nat.max_le.mpr ⟨hs.reach, by omega⟩, hs.wrapped⟩

/-- `buf_size` keeps its meaning as long as it does not wrap around. -/
theorem advance_sound (htotal : total < 18446744073709551616) (hs : c.Sound total)
    (hr : reach ≤ c.bufSize) (hp : printed ≤ c.bufSize) :
    ((c.wrote reach).advance printed).Sound total ∧
      ((c.wrote reach).advance printed).bufSize = c.bufSize - printed := by
  have hleft := hs.left
  have hsize : (c.bufSize + 18446744073709551616 - printed) % 18446744073709551616 =
      c.bufSize - printed := by omega
  have hw : (c.wrapped || decide (c.bufSize < printed)) = false := by
    rw [hs.wrapped, Bool.false_or, decide_eq_false_iff_not]
    omega
  refine ⟨⟨⟨((wrote_within hs reach).mpr hr).reach, hw⟩, ?_⟩, hsize⟩
  show c.pos + printed + (c.bufSize + 18446744073709551616 - printed) % 18446744073709551616 = total
  omega

/-- A call stays in the buffer exactly if what it does has room. -/
theorem call_within_iff (hs : c.Sound total) (he : early ≤ reach) :
    (c.call (Call.ofRoom early checked reach printed)).1.Within total ↔
      early ≤ c.bufSize ∧
        (checked ≤ wrap32 c.bufSize → reach ≤ c.bufSize ∧ printed ≤ c.bufSize) := by
  by_cases h : checked ≤ wrap32 c.bufSize
  · rw [call_room h]
    constructor
    · rintro ⟨hreach, hwrapped⟩
      have hr : reach ≤ c.bufSize := (wrote_within hs reach).mp ⟨hreach, hs.wrapped⟩
      have hp : printed ≤ c.bufSize := by
        rw [Cursor.advance, Bool.or_eq_false_iff, decide_eq_false_iff_not] at hwrapped
        exact Nat.not_lt.mp hwrapped.2
      exact ⟨by omega, fun _ => ⟨hr, hp⟩⟩
    · rintro ⟨-, hlate⟩
      obtain ⟨hr, hp⟩ := hlate h
      refine ⟨((wrote_within hs reach).mpr hr).reach, ?_⟩
      show (c.wrapped || decide (c.bufSize < printed)) = false
      rw [hs.wrapped, Bool.false_or, decide_eq_false_iff_not]
      omega
  · rw [call_small (by omega), wrote_within hs]
    exact ⟨fun hle => ⟨hle, fun hc => absurd hc h⟩, fun hle => hle.1⟩

/-- A sum is checked for all that it needs. -/
theorem sumCall_sound (htotal : total < 18446744073709551616) (hs : c.Sound total) {n : Nat} :
    (c.call (Call.ofRoom 0 n n n)).1.Within total ∧
      ((c.call (Call.ofRoom 0 n n n)).2 = .ok () →
        (c.call (Call.ofRoom 0 n n n)).1.Sound total) := by
  have hwrap : wrap32 c.bufSize ≤ c.bufSize := Nat.mod_le _ _
  refine ⟨(call_within_iff hs (Nat.zero_le _)).mpr ⟨Nat.zero_le _, fun h => ?_⟩, fun hok => ?_⟩
  · omega
  · by_cases h : n ≤ wrap32 c.bufSize
    · rw [call_room h]
      exact (advance_sound htotal hs (by omega) (by omega)).1
    · rw [call_small (by omega)] at hok
      cases hok

end Bounds

/-! ## The loop -/

theorem early_le_reach (a : Attr) : a.early ≤ a.reach := by
  unfold Attr.early Attr.reach
  cases a.value <;> simp only <;> omega

theorem attrCall_within_iff {a : Attr} {c : Cursor} {total : Nat} (h : a.HasEncoder)
    (hs : c.Sound total) :
    (c.call (encodeAttrCall a)).1.Within total ↔ a.Fits c.bufSize := by
  have hcall : encodeAttrCall a = Call.ofRoom a.early a.checked a.reach a.printed :=
    funext (encodeAttrCall_eq h)
  rw [hcall, call_within_iff hs (early_le_reach a)]
  exact ⟨fun h => ⟨h.1, h.2⟩, fun h => ⟨h.early, h.late⟩⟩

/-- The loop stays in the buffer exactly if the attributes it comes to fit, and then `buf_size` is
what is left. -/
theorem encodeAttrsCalls_within {total : Nat} (htotal : total < 18446744073709551616) :
    ∀ (attrs : List Attr) {c : Cursor}, c.Sound total →
      ((encodeAttrsCalls attrs c).1.Within total ↔ FitsAll attrs c.bufSize) ∧
        ((encodeAttrsCalls attrs c).1.Within total → ∀ n, (encodeAttrsCalls attrs c).2 = .ok n →
          (encodeAttrsCalls attrs c).1.Sound total)
  | [], c, hs => ⟨iff_of_true hs.toWithin trivial, fun _ _ _ => hs⟩
  | a :: attrs, c, hs => by
      rw [encodeAttrsCalls, FitsAll]
      by_cases hsum : a.isSum = true
      · rw [if_pos hsum]
        exact ⟨iff_of_true hs.toWithin (.inl hsum), fun _ _ _ => hs⟩
      rw [if_neg hsum]
      by_cases henc : a.HasEncoder
      · have hfits := attrCall_within_iff henc hs
        have hcall : encodeAttrCall a = Call.ofRoom a.early a.checked a.reach a.printed :=
          funext (encodeAttrCall_eq henc)
        simp only [hsum, henc, not_true, false_or, Bool.false_eq_true]
        by_cases hfit : a.Fits c.bufSize
        · by_cases hroom : a.checked ≤ wrap32 c.bufSize
          · -- The attribute is written, and the rest goes behind it.
            obtain ⟨hr, hp⟩ := hfit.late hroom
            obtain ⟨hsound, hsize⟩ := advance_sound htotal hs hr hp
            obtain ⟨hiff, hkeep⟩ := encodeAttrsCalls_within htotal attrs hsound
            obtain ⟨hfst, hsnd⟩ := andThen_map (r := encodeAttrsCalls attrs
              ((c.wrote a.reach).advance a.printed)) (· + 1)
            rw [hcall, call_room hroom, andThen_ok, hfst, hiff, hsize]
            refine ⟨⟨fun h => ⟨hfit, fun _ => h⟩, fun h => h.2 hroom⟩, fun h n hn => ?_⟩
            obtain ⟨m, hm⟩ := hsnd n hn
            exact hkeep (hiff.mpr (hsize ▸ h)) m hm
          · -- The attribute does not pass its check.
            have hstop : c.call (encodeAttrCall a) = (c.wrote a.early, .error .etoosmall) := by
              rw [hcall, call_small (by omega)]
            rw [hstop, andThen_error]
            refine ⟨iff_of_true ((wrote_within hs _).mpr hfit.early) ⟨hfit, fun h => ?_⟩, ?_⟩
            · exact absurd h hroom
            · intro _ n hn
              cases hn
        · -- What has gone wrong stays.
          have hno : ¬ (Ran.andThen (c.call (encodeAttrCall a)) fun _ c =>
              (encodeAttrsCalls attrs c).andThen fun n c => (c, .ok (n + 1))).1.Within total := by
            intro h
            refine hfit (hfits.mp (h.of_grows (andThen_grows fun _ c => ?_)))
            exact (encodeAttrsCalls_grows attrs c).trans (andThen_grows fun _ _ => .rfl)
          exact ⟨iff_of_false hno fun h => hfit h.1, fun h => absurd h hno⟩
      · obtain ⟨e, -, hstop⟩ := encodeAttr_stops henc
        rw [show c.call (encodeAttrCall a) = (c.wrote 0, .error e) by
          unfold Cursor.call; rw [hstop], andThen_error]
        refine ⟨iff_of_true ((wrote_within hs 0).mpr (Nat.zero_le _)) (.inr (.inl henc)), ?_⟩
        intro _ n hn
        cases hn

/-! ## The whole encoder -/

/-- The calls have stayed in the buffer, and after a call that returns the cursor is sound. -/
structure Ran.Good {α : Type} (total : Nat) (r : Ran α) : Prop where
  within : r.1.Within total
  sound : ∀ a, r.2 = .ok a → r.1.Sound total

theorem Ran.Good.andThen {α β : Type} {r : Ran α} {f : α → Cursor → Ran β} {total : Nat}
    (h : r.Good total) (hf : ∀ a c, c.Sound total → Ran.Good total (f a c)) :
    Ran.Good total (r.andThen f) := by
  obtain ⟨c, x⟩ := r
  cases x with
  | ok a => exact hf a c (h.sound a rfl)
  | error e => exact ⟨h.within, fun _ hb => by cases hb⟩

theorem good_same {α : Type} {c : Cursor} {total : Nat} (hs : c.Sound total)
    (x : Except MsgStatus α) : Ran.Good total (c, x) := ⟨hs.toWithin, fun _ _ => hs⟩

/-- What follows the loop over the attributes. -/
def encodeSums (msg : Msg) (key : Option (List UInt8)) (n : Nat) (c : Cursor) : Ran Nat :=
  Ran.andThen (c, scanSums (msg.attrs.drop (n + 1)) (n + 1) (stoppedAt msg.attrs n)) fun sums c =>
  Ran.andThen (if sums.amsgint.isNone then (c, .ok ())
    else if key.isNone then (c, .error .einvalidop)
    else c.call encodeMsgintCall) fun _ c =>
  Ran.andThen (if sums.afingerprint.isNone then (c, .ok ()) else c.call encodeUintCall) fun _ c =>
  (c, .ok c.pos)

theorem encodeSums_grows (msg : Msg) (key : Option (List UInt8)) (n : Nat) (c : Cursor) :
    c.Grows (encodeSums msg key n c).1 := by
  unfold encodeSums
  refine andThen_grows (r := (c, scanSums _ _ _)) fun sums c => ?_
  refine Cursor.Grows.trans ?_ (andThen_grows fun _ c => ?_)
  · split_ifs
    · exact .rfl
    · exact .rfl
    · exact call_grows c _
  · refine Cursor.Grows.trans ?_ (andThen_grows fun _ _ => .rfl)
    split_ifs
    · exact .rfl
    · exact call_grows c _

/-- The length that is returned is the distance from the start. -/
theorem encodeSums_returns {msg : Msg} {key : Option (List UInt8)} {n len : Nat} {c : Cursor}
    (h : (encodeSums msg key n c).2 = .ok len) : (encodeSums msg key n c).1.pos = len := by
  unfold encodeSums at h ⊢
  obtain ⟨sums, -, heq⟩ := andThen_eq_ok h
  rw [heq] at h ⊢
  obtain ⟨_, -, heq⟩ := andThen_eq_ok h
  rw [heq] at h ⊢
  obtain ⟨_, -, heq⟩ := andThen_eq_ok h
  rw [heq] at h ⊢
  cases h
  rfl

/-- The sums are checked for all that they need, so that nothing goes wrong with them. -/
theorem encodeSums_good {total : Nat} (htotal : total < 18446744073709551616) (msg : Msg)
    (key : Option (List UInt8)) (n : Nat) {c : Cursor} (hs : c.Sound total) :
    (encodeSums msg key n c).Good total := by
  have hcall : ∀ {c : Cursor} {m : Nat}, c.Sound total →
      Ran.Good total (c.call (Call.ofRoom 0 m m m)) := fun hc =>
    ⟨(sumCall_sound htotal hc).1, fun _ h => (sumCall_sound htotal hc).2 h⟩
  unfold encodeSums
  refine (good_same hs _).andThen fun sums c hc => ?_
  refine Ran.Good.andThen ?_ fun _ c hc => ?_
  · split_ifs
    · exact good_same hc _
    · exact good_same hc _
    · exact hcall hc
  · refine Ran.Good.andThen ?_ fun _ c hc => good_same hc _
    split_ifs
    · exact good_same hc _
    · exact hcall hc

/-- The run behind the header. -/
theorem encodeCalls_eq {msg : Msg} {bufSize : UInt64} {key : Option (List UInt8)}
    (h : 20 ≤ bufSize.toNat) :
    encodeCalls msg bufSize 0 key =
      (encodeAttrsCalls msg.attrs
        ((Cursor.wrote ⟨0, bufSize.toNat, 0, false⟩ 20).advance 20)).andThen
          (encodeSums msg key) := by
  unfold encodeCalls
  rw [if_neg (by omega), if_neg (by simp), if_neg (by omega)]
  rfl

/-- **The encoder stays in its buffer** exactly if the buffer has no room for the header, or the
attributes that it comes to fit what is left behind the header. -/
theorem encodesWithin_iff (msg : Msg) (bufSize : UInt64) (options : Nat)
    (key : Option (List UInt8)) :
    EncodesWithin msg bufSize options key ↔
      (options = 0 → 20 ≤ bufSize.toNat → FitsAll msg.attrs (bufSize.toNat - 20)) := by
  have htotal : bufSize.toNat < 18446744073709551616 := bufSize.toNat_lt
  have hstart : Cursor.Sound ⟨0, bufSize.toNat, 0, false⟩ bufSize.toNat :=
    ⟨⟨Nat.zero_le _, rfl⟩, Nat.zero_add _⟩
  by_cases hrun : options = 0 ∧ 20 ≤ bufSize.toNat
  · obtain ⟨rfl, hsize⟩ := hrun
    obtain ⟨hsound, hleft⟩ := advance_sound htotal hstart hsize hsize
    obtain ⟨hiff, hkeep⟩ := encodeAttrsCalls_within htotal msg.attrs hsound
    rw [hleft] at hiff
    simp only [hsize, forall_const]
    constructor
    · intro h
      rw [← hiff]
      have hw : (encodeCalls msg bufSize 0 key).1.Within bufSize.toNat := ⟨h.inside, h.counts⟩
      rw [encodeCalls_eq hsize] at hw
      exact hw.of_grows (andThen_grows fun n c => encodeSums_grows msg key n c)
    · intro h
      have hloop : Ran.Good bufSize.toNat (encodeAttrsCalls msg.attrs
          ((Cursor.wrote ⟨0, bufSize.toNat, 0, false⟩ 20).advance 20)) :=
        ⟨hiff.mpr h, hkeep (hiff.mpr h)⟩
      have hgood := hloop.andThen fun n c hc => encodeSums_good htotal msg key n hc
      rw [← encodeCalls_eq hsize] at hgood
      refine ⟨hgood.within.reach, hgood.within.wrapped, fun n hn => ?_⟩
      have hpos : (encodeCalls msg bufSize 0 key).1.pos = n := by
        rw [encodeCalls_eq hsize] at hn ⊢
        obtain ⟨m, -, heq⟩ := andThen_eq_ok hn
        rw [heq] at hn ⊢
        exact encodeSums_returns hn
      have hend := (hgood.sound n hn).left
      omega
  · -- Nothing is written.
    refine iff_of_true ?_ fun h1 h2 => absurd ⟨h1, h2⟩ hrun
    have hstop : ∃ e, encodeCalls msg bufSize options key =
        (⟨0, bufSize.toNat, 0, false⟩, .error e) := by
      unfold encodeCalls
      by_cases h0 : bufSize.toNat = 0
      · exact ⟨_, if_pos h0⟩
      by_cases h1 : options ≠ 0
      · exact ⟨_, (if_neg h0).trans (if_pos h1)⟩
      have h2 : bufSize.toNat < 20 := by
        by_contra hge
        exact hrun ⟨not_not.mp h1, Nat.not_lt.mp hge⟩
      exact ⟨_, (if_neg h0).trans ((if_neg h1).trans (if_pos h2))⟩
    obtain ⟨e, he⟩ := hstop
    refine ⟨?_, ?_, ?_⟩
    · rw [he]
      exact Nat.zero_le _
    · rw [he]
    · rw [he]
      intro n hn
      cases hn

/-! ## Buffers of less than 4 GB

Without the wrap-around of long strings and large buffers the condition is one of a few bytes, and
a run that stays in its buffer is that of `stunMsgEncode`. -/

section Small

variable {a : Attr} {room : Nat}

theorem printed_eq (hsize : a.value.size < 4294967280) : a.printed = a.wireLen := by
  unfold Attr.printed Attr.wireLen
  rw [pad32_eq (by omega), Nat.add_comm, pad4_add_four, Nat.add_comm]

theorem reach_le_printed (hsize : a.value.size < 4294967280) : a.reach ≤ a.printed := by
  rw [printed_eq hsize]
  have hle := le_pad4 a.value.size
  unfold Attr.reach Attr.wireLen
  cases hv : a.value with
  | unknown attrs =>
      rw [hv] at hle
      simp only [AttrValue.size] at hle ⊢
      have : wrap32 attrs.length ≤ attrs.length := Nat.mod_le _ _
      omega
  | binary data =>
      rw [hv] at hle
      simp only [AttrValue.size] at hle ⊢
      have : wrap32 data.length ≤ data.length := Nat.mod_le _ _
      omega
  | string value => exact Nat.le_refl _
  | _ =>
      rw [hv] at hle
      exact Nat.add_le_add_left hle 4

end Small

section Agrees

variable {env : MsgEnv} {msghdr : MsgHdr}

theorem room_split {n k checked : Nat} {x : List UInt8} (h : checked = k) :
    (n < checked → (if n < k then .error .etoosmall else .ok x : Except MsgStatus (List UInt8)) =
      .error .etoosmall) ∧
    (checked ≤ n → ∃ bytes, (if n < k then .error .etoosmall else .ok x :
      Except MsgStatus (List UInt8)) = .ok bytes) := by
  subst h
  exact ⟨fun h => if_pos h, fun h => ⟨x, if_neg (Nat.not_lt.mpr h)⟩⟩

/-- An encoder of the model returns exactly if the check passes. -/
theorem encodeAttr_room {a : Attr} {buf : List UInt8} (h : a.HasEncoder)
    (hsize : a.value.size < 4294967280) :
    (buf.length < a.checked → encodeAttr env msghdr a buf = .error .etoosmall) ∧
      (a.checked ≤ buf.length → ∃ bytes, encodeAttr env msghdr a buf = .ok bytes) := by
  have hprinted := printed_eq hsize
  have hfour : ∀ n, 4 + pad4 n = pad4 (n + 4) := by
    intro n
    rw [pad4_add_four, Nat.add_comm]
  unfold Attr.checked
  rw [hprinted, Attr.wireLen]
  cases h with
  | @sockaddr xorEd addr hd hv =>
      have haddr : 4 + pad4 addr.attrLen = 4 + addr.attrLen := by rw [addr.pad4_attrLen]
      rcases hd with hd | hd
      · rw [encodeAttr, hd, hv]
        exact room_split haddr
      · rw [encodeAttr, hd, hv]
        exact room_split haddr
  | string hd hv =>
      rw [encodeAttr, hd, hv]
      exact room_split (hfour _)
  | @errcode errCode reason hd hv =>
      rw [hv] at hsize
      rw [encodeAttr, hd, hv]
      have hadd : 4 + (4 + reason.length) = 8 + reason.length := by omega
      exact room_split ((Nat.mod_eq_of_lt (by omega)).trans hadd)
  | unknown hd hv =>
      rw [hv] at hsize
      rw [encodeAttr, hd, hv]
      exact room_split (Nat.mod_eq_of_lt (by omega))
  | binary hd hv =>
      rcases hd with hd | hd
      · rw [encodeAttr, hd, hv]
        exact room_split (hfour _)
      · rw [encodeAttr, hd, hv]
        exact room_split (hfour _)
  | _ hd hv =>
      rw [encodeAttr, hd, hv]
      exact room_split (by simp [AttrValue.size, pad4])

/-- The calls end as the model does, and behind what it has written. -/
def LoopAgrees (total pos : Nat) : Except MsgStatus (List UInt8 × Nat) → Ran Nat → Prop
  | .ok r, q => q.2 = .ok r.2 ∧ q.1.Sound total ∧ q.1.pos = pos + r.1.length
  | .error e, q => q.2 = .error e

/-- The loop of the calls is that of the model, where all attributes fit. -/
theorem encodeAttrsCalls_agrees {total : Nat} (htotal : total < 4294967296) :
    ∀ (attrs : List Attr) {c : Cursor} {buf : List UInt8},
      (∀ a ∈ attrs, a.value.size < 4294967280) → c.Sound total → c.bufSize = buf.length →
      FitsAll attrs buf.length →
      LoopAgrees total c.pos (encodeAttrs env msghdr attrs buf) (encodeAttrsCalls attrs c)
  | [], c, buf, _, hs, _, _ => ⟨rfl, hs, rfl⟩
  | a :: attrs, c, buf, hsize, hs, hbuf, hfits => by
      have hleft := hs.left
      have hwrap : wrap32 c.bufSize = c.bufSize := Nat.mod_eq_of_lt (by omega)
      rw [encodeAttrs, encodeAttrsCalls]
      by_cases hsum : a.isSum = true
      · rw [if_pos hsum, if_pos hsum]
        exact ⟨rfl, hs, rfl⟩
      rw [if_neg hsum, if_neg hsum]
      by_cases henc : a.HasEncoder
      · have hcall : encodeAttrCall a = Call.ofRoom a.early a.checked a.reach a.printed :=
          funext (encodeAttrCall_eq henc)
        obtain ⟨hfit, hrest⟩ := (hfits.resolve_left hsum).resolve_left (not_not.mpr henc)
        obtain ⟨hsmall, hroom⟩ := @encodeAttr_room env msghdr a buf henc
          (hsize a List.mem_cons_self)
        rw [hcall]
        by_cases hc : a.checked ≤ buf.length
        · obtain ⟨bytes, hbytes⟩ := hroom hc
          have hlen : bytes.length = a.printed := by
            rw [length_encodeAttr hbytes, printed_eq (hsize a List.mem_cons_self)]
          have hlate := hfit.late (by rw [← hbuf, hwrap, hbuf]; exact hc)
          obtain ⟨hsound, hnext⟩ := advance_sound (by omega) hs (hbuf ▸ hlate.1) (hbuf ▸ hlate.2)
          have ih : LoopAgrees total _ (encodeAttrs env msghdr attrs (buf.drop bytes.length))
              (encodeAttrsCalls attrs ((c.wrote a.reach).advance a.printed)) :=
            encodeAttrsCalls_agrees htotal attrs
            (fun b hb => hsize b (List.mem_cons_of_mem a hb)) hsound
            (by rw [hnext, List.length_drop, hlen, hbuf])
            (by rw [List.length_drop, hlen]; exact hrest (by rw [← hbuf, hwrap, hbuf]; exact hc))
          rw [hbytes, call_room (by rw [hwrap, hbuf]; exact hc), andThen_ok]
          show LoopAgrees total c.pos (if buf.length < bytes.length then _ else _) _
          rw [if_neg (by rw [hlen]; exact Nat.not_lt.mpr hlate.2)]
          cases hmodel : encodeAttrs env msghdr attrs (buf.drop bytes.length) with
          | error e =>
              rw [hmodel] at ih
              generalize encodeAttrsCalls attrs _ = q at ih ⊢
              obtain ⟨c', x⟩ := q
              cases ih
              rfl
          | ok r =>
              rw [hmodel] at ih
              generalize encodeAttrsCalls attrs _ = q at ih ⊢
              obtain ⟨c', x⟩ := q
              obtain ⟨hx, hs', hpos⟩ := ih
              dsimp only at hx hs' hpos
              subst hx
              refine ⟨rfl, hs', hpos.trans ?_⟩
              show c.pos + a.printed + r.1.length = c.pos + (bytes ++ r.1).length
              rw [List.length_append, hlen]
              omega
        · rw [hsmall (by omega), call_small (by rw [hwrap, hbuf]; omega)]
          rfl
      · obtain ⟨e, he, hcall⟩ := encodeAttr_stops henc
        rw [he, show c.call (encodeAttrCall a) = (c.wrote 0, .error e) by
          unfold Cursor.call; rw [hcall]]
        rfl

/-- Where the loop of the model returns, the attributes fit: it stops where `buf_size` would wrap
around. -/
theorem fitsAll_of_encodeAttrs : ∀ {attrs : List Attr} {buf body : List UInt8} {n : Nat},
    (∀ a ∈ attrs, a.value.size < 4294967280) → buf.length < 4294967296 →
      encodeAttrs env msghdr attrs buf = .ok (body, n) → FitsAll attrs buf.length
  | [], _, _, _, _, _, _ => trivial
  | a :: attrs, buf, body, n, hsize, hbuf, h => by
      rw [encodeAttrs] at h
      by_cases hsum : a.isSum = true
      · exact .inl hsum
      rw [if_neg hsum] at h
      obtain ⟨bytes, hbytes, h⟩ := Outcome.bind_eq_ok h
      split at h
      · cases h
      rename_i hroom
      obtain ⟨r, hr, -⟩ := Outcome.bind_eq_ok h
      have ha := hsize a List.mem_cons_self
      have hlen : bytes.length = a.printed := by rw [length_encodeAttr hbytes, printed_eq ha]
      have hreach := reach_le_printed ha
      have hearly := early_le_reach a
      have ih := fitsAll_of_encodeAttrs (fun b hb => hsize b (List.mem_cons_of_mem a hb))
        (by rw [List.length_drop]; omega) hr
      rw [List.length_drop, hlen] at ih
      exact .inr (.inr ⟨⟨by omega, fun _ => ⟨by omega, by omega⟩⟩, fun _ => ih⟩)

/-- A sum for which there is room. -/
theorem sumCall_agrees {total n : Nat} {c : Cursor} (htotal : total < 4294967296)
    (hs : c.Sound total) (hn : n ≤ c.bufSize) :
    ∃ c', c.call (Call.ofRoom 0 n n n) = (c', .ok ()) ∧ c'.Sound total ∧ c'.pos = c.pos + n := by
  have hleft := hs.left
  have hwrap : wrap32 c.bufSize = c.bufSize := Nat.mod_eq_of_lt (by omega)
  exact ⟨_, call_room (by omega), (advance_sound (by omega) hs hn hn).1, rfl⟩

/-- MESSAGE-INTEGRITY in the model: there is none, or there are a key and twenty-four bytes. -/
theorem putMsgint_room {key : Option (List UInt8)} {hdr : MsgHdr} {attrs attrs' : List Attr}
    {place : Option Nat} {length : UInt16} {body body' buf : List UInt8}
    (h : putMsgint env key hdr attrs place length body buf = .ok (body', attrs')) :
    place.isNone = true ∧ body' = body ∨ place.isNone = false ∧ key.isNone = false ∧
      body'.length = body.length + 24 ∧ body.length + 24 ≤ buf.length := by
  cases place with
  | none =>
      cases h
      exact .inl ⟨rfl, rfl⟩
  | some i =>
      unfold putMsgint at h
      dsimp only at h
      split at h
      · obtain ⟨bytes, hbytes, h⟩ := Outcome.bind_eq_ok h
        cases h
        unfold encodeMsgintAttr at hbytes
        split at hbytes
        · cases hbytes
        · rename_i hroom
          cases hbytes
          rw [List.length_drop] at hroom
          refine .inr ⟨rfl, rfl, ?_, by omega⟩
          simp [length_put16, (env.hmacSha1 _ _).property]
      · cases h

/-- FINGERPRINT in the model: there is none, or there are eight bytes. -/
theorem putFingerprint_room {hdr : MsgHdr} {attrs attrs' : List Attr} {place : Option Nat}
    {length length' : UInt16} {body body' buf : List UInt8}
    (h : putFingerprint env hdr attrs place length body buf = .ok (length', body', attrs')) :
    place.isNone = true ∧ body' = body ∨ place.isNone = false ∧
      body'.length = body.length + 8 ∧ body.length + 8 ≤ buf.length := by
  cases place with
  | none =>
      cases h
      exact .inl ⟨rfl, rfl⟩
  | some i =>
      unfold putFingerprint at h
      dsimp only at h
      split at h
      · cases h
      · obtain ⟨bytes, hbytes, h⟩ := Outcome.bind_eq_ok h
        cases h
        unfold encodeUintAttr at hbytes
        split at hbytes
        · cases hbytes
        · rename_i hroom
          cases hbytes
          rw [List.length_drop] at hroom
          refine .inr ⟨rfl, ?_, by omega⟩
          simp [length_put16, length_put32]

/-- **The model and the calls.** When `stunMsgEncode` returns, in a buffer of less than 4 GB, the
calls return the same length, and have stayed in the buffer. -/
theorem encodeCalls_agrees {msg msg' : Msg} {buf bytes : List UInt8} {options : Nat}
    {key : Option (List UInt8)} (hbuf : buf.length < 4294967296)
    (hsize : ∀ a ∈ msg.attrs, a.value.size < 4294967280)
    (h : stunMsgEncode env msg buf options key = .ok (bytes, msg')) :
    (encodeCalls msg (UInt64.ofNat buf.length) options key).2 = .ok bytes.length ∧
      FitsAll msg.attrs (buf.length - 20) := by
  have hnat : (UInt64.ofNat buf.length).toNat = buf.length :=
    UInt64.toNat_ofNat_of_lt' (Nat.lt_trans hbuf (by decide))
  unfold stunMsgEncode at h
  split at h
  · cases h
  split at h
  · cases h
  rename_i hopt
  split at h
  · cases h
  rename_i h20
  dsimp only at h
  obtain ⟨⟨body, n⟩, hbody, h⟩ := Outcome.bind_eq_ok h
  obtain ⟨sums, hscan, h⟩ := Outcome.bind_eq_ok h
  obtain ⟨⟨mbody, mattrs⟩, hm, h⟩ := Outcome.bind_eq_ok h
  obtain ⟨⟨flength, fbody, fattrs⟩, hf, h⟩ := Outcome.bind_eq_ok h
  cases h
  have hdrop : (buf.drop 20).length = buf.length - 20 := List.length_drop
  have hfits := fitsAll_of_encodeAttrs hsize (by omega) hbody
  have hstart : Cursor.Sound ⟨0, buf.length, 0, false⟩ buf.length :=
    ⟨⟨Nat.zero_le _, rfl⟩, Nat.zero_add _⟩
  obtain ⟨hsound, hleft⟩ := advance_sound (by omega) hstart (Nat.not_lt.mp h20)
    (Nat.not_lt.mp h20)
  have hloop : LoopAgrees buf.length _ (encodeAttrs env msg.hdr msg.attrs (buf.drop 20))
      (encodeAttrsCalls msg.attrs ((Cursor.wrote ⟨0, buf.length, 0, false⟩ 20).advance 20)) :=
    encodeAttrsCalls_agrees hbuf msg.attrs hsize hsound (by rw [hleft, hdrop]) hfits
  rw [hbody] at hloop
  refine ⟨?_, hdrop ▸ hfits⟩
  rw [not_not.mp hopt, encodeCalls_eq (by omega), hnat]
  generalize encodeAttrsCalls msg.attrs _ = q at hloop ⊢
  obtain ⟨c, x⟩ := q
  obtain ⟨rfl, hs, hpos⟩ := hloop
  replace hs : c.Sound buf.length := hs
  have hstart20 : c.pos = 20 + body.length := hpos.trans (by rw [Cursor.advance, Cursor.wrote])
  have hend := hs.left
  dsimp only at hm hf
  rw [andThen_ok, encodeSums, hscan, andThen_ok]
  -- MESSAGE-INTEGRITY, and FINGERPRINT behind it.
  have hmi : ∃ c1 : Cursor, (if sums.amsgint.isNone = true then (c, .ok ())
      else if key.isNone = true then (c, .error .einvalidop)
      else c.call encodeMsgintCall : Ran Unit) = (c1, .ok ()) ∧ c1.Sound buf.length ∧
        c1.pos = 20 + mbody.length := by
    rcases putMsgint_room hm with ⟨hnone, rfl⟩ | ⟨hsome, hkey, hlen, hroom⟩
    · exact ⟨c, if_pos hnone, hs, hstart20⟩
    · rw [hdrop] at hroom
      obtain ⟨c1, hcall, hs1, hpos1⟩ := sumCall_agrees hbuf hs (n := 24) (by omega)
      refine ⟨c1, ?_, hs1, by omega⟩
      rw [hsome, hkey]
      exact hcall
  obtain ⟨c1, hc1, hs1, hpos1⟩ := hmi
  have hend1 := hs1.left
  rw [hc1, andThen_ok]
  have hfp : ∃ c2 : Cursor, (if sums.afingerprint.isNone = true then (c1, .ok ())
      else c1.call encodeUintCall : Ran Unit) = (c2, .ok ()) ∧ c2.pos = 20 + fbody.length := by
    rcases putFingerprint_room hf with ⟨hnone, rfl⟩ | ⟨hsome, hlen, hroom⟩
    · exact ⟨c1, if_pos hnone, hpos1⟩
    · rw [hdrop] at hroom
      obtain ⟨c2, hcall, -, hpos2⟩ := sumCall_agrees hbuf hs1 (n := 8) (by omega)
      refine ⟨c2, ?_, by omega⟩
      rw [hsome]
      exact hcall
  obtain ⟨c2, hc2, hpos2⟩ := hfp
  rw [hc2, andThen_ok, length_written, hpos2, Nat.add_comm]

end Agrees

/-- ERROR-CODE with a reason of one byte, and SOFTWARE. -/
def crowdedMsg : Msg :=
  ⟨⟨0x0111, 0, stunMagic, zeroBytes 12⟩,
    [⟨attrErrorCode, 5, .errcode 400 [120]⟩, stringAttrCreate attrSoftware [112, 106, 115, 105]]⟩

/-- XOR-MAPPED-ADDRESS alone. -/
def addressMsg : Msg :=
  ⟨⟨0x0101, 0, stunMagic, zeroBytes 12⟩,
    [sockaddrAttrCreate 0x0020 true sampleAddr]⟩

/-- **Twenty-nine bytes are not enough.** ERROR-CODE passes its check with nine bytes, and twelve
are counted: `buf_size` is below zero, SOFTWARE passes its own, and forty bytes are written. An
address writes its type behind a buffer that is full. -/
theorem crowdedMsg_overruns :
    encodeCalls crowdedMsg 29 0 none = (⟨40, 18446744073709551605, 40, true⟩, .ok 40) ∧
      ¬ EncodesWithin crowdedMsg 29 0 none ∧
      encodeCalls addressMsg 20 0 none = (⟨20, 0, 22, false⟩, .error .etoosmall) ∧
      ¬ EncodesWithin addressMsg 20 0 none :=
  ⟨rfl, fun h => absurd h.counts (by decide), rfl, fun h => absurd h.inside (by decide)⟩

end Stun
