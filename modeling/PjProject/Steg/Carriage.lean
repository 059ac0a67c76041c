import PjProject.Library.Buffer
import PjProject.Library.Outcome
import PjProject.Steg.Suit

set_option autoImplicit false

/-! # Carrying a payload in G.711

In the G.711 modes `SAESdata` puts the payload of a frame in the place of the audio of a packet, and
`SAER` takes it from there. `Encode` goes on for as many bytes as a packet has, which is more than
the frame has; `Decode` does so as well, and writes to an array of the class.

`carried_iff` is about arrays of any size: which room a payload needs. The arrays of the class were
made for another codec, and no payload gets across (`carriage_outside`).
-/

namespace Steg

open Buffer

/-- The G.711 modes that `Allocate` and `Control` set up. -/
inductive G711Mode where
  | small
  | full
  deriving DecidableEq

/-- The codec of a mode. -/
def G711Mode.codec : G711Mode → Codec
  | .small => .pcmaSmall
  | .full => .g711

/-- `SAEDU`. -/
def G711Mode.saedu (mode : G711Mode) : Nat := mode.codec.saedu

/-- The bytes of the audio of a packet. -/
def G711Mode.dataLen : G711Mode → Nat
  | .small => 40
  | .full => 160

/-- `STMDU`, which is `maxSTM` as well: a payload and the header in front of it. -/
def G711Mode.stmdu (mode : G711Mode) : Nat := mode.saedu + 3

/-- The sizes of `m_chEmdSecMsg`, `m_pFrmBuf` and `m_chRtrSecMsg`, and the bytes that `m_Crt.Frame`
has behind its `maxSTM`. -/
structure CarriageSizes where
  emd : Nat
  buf : Nat
  rtr : Nat
  spare : Nat

/-- The sizes that `StegSuit.h` and `Allocate` give. -/
def CarriageSizes.declared : CarriageSizes := ⟨35, 50, 35, 0⟩

/-- The arrays of a `CStegSuit` that a payload goes through. -/
structure CarriageArrays (sizes : CarriageSizes) where
  chEmdSecMsg : List UInt8
  frmBuf : List UInt8
  chRtrSecMsg : List UInt8
  emd_size : chEmdSecMsg.length = sizes.emd
  buf_size : frmBuf.length = sizes.buf
  rtr_size : chRtrSecMsg.length = sizes.rtr

/-! ## The sender -/

/-- `m_Crt.Frame` after `STMSdata`: the payload in a frame of zeros. -/
def crtFrame (mode : G711Mode) (spare : Nat) (data : List UInt8) : List UInt8 :=
  List.replicate 3 0 ++ data ++ List.replicate (mode.saedu - data.length + spare) 0

/-- `strlen` of a string in an array. -/
def strlenAt (array : List UInt8) (start : Nat) : Except MemFault Nat :=
  match (array.drop start).findIdx? (· == 0) with
  | some n => .ok n
  | none => .error .outOfBounds

/-- The loop of `Encode` that hides a message: `n` bytes from `i` on. -/
def encodeLoop (msg : List UInt8) (start : Nat) :
    (n i : Nat) → List UInt8 → Except MemFault (List UInt8)
  | 0, _, dst => .ok dst
  | n + 1, i, dst => do
      let c ← byteAt .outOfBounds msg (start + i)
      let dst ← writeAt .outOfBounds dst i [UInt8.ofNat c]
      encodeLoop msg start n (i + 1) dst

/-- `Encode` of a hidden message, for G.711. -/
def encodeHidden (dataLen : Nat) (msg : List UInt8) (start : Nat) (dst : List UInt8) :
    Except MemFault (List UInt8) := do
  let length ← strlenAt msg start
  -- `i < length || i < dataLen`
  encodeLoop msg start (max (length + 1) dataLen) 0 dst

/-- `SAESdata` for a frame with the payload `data`: the audio bytes of the packet. -/
def saesData (mode : G711Mode) {sizes : CarriageSizes} (arrays : CarriageArrays sizes)
    (data : List UInt8) : Except MemFault (List UInt8) := do
  let frame := crtFrame mode sizes.spare data
  let _ ← bytesAt MemFault.outOfBounds frame 0 mode.stmdu
  let msg ← bytesAt .outOfBounds frame 3 data.length
  let _ ← writeAt .outOfBounds arrays.chEmdSecMsg 0 msg
  let buf ← encodeHidden mode.dataLen frame 3 arrays.frmBuf
  bytesAt .outOfBounds buf 0 mode.dataLen

/-! ## The receiver -/

/-- The loop of `Decode` that takes a message out, and the byte behind it. -/
def decodeLoop (src : List UInt8) (bytesLength : Nat) :
    (fuel i : Nat) → List UInt8 → Except MemFault (List UInt8)
  | 0, _, _ => .error .diverges
  | fuel + 1, i, msg => do
      let c ← byteAt .outOfBounds src i
      let msg ← writeAt .outOfBounds msg i [UInt8.ofNat c]
      if c ≠ 0 ∨ i < bytesLength then decodeLoop src bytesLength fuel (i + 1) msg else .ok msg

/-- The length in the header that `SAER` takes from an RTP header. -/
def rtpLen (hdr : RtpHeader) : Nat :=
  getLenFromCursor ⟨extract hdr 0, extract hdr 1, extract hdr 2, []⟩

/-- `SAER` of a packet with the audio bytes `payload`: what it leaves at `m_FrmR + 3`. `fresh` is
the last byte of its copy of the packet, which is not set. -/
def saerData (mode : G711Mode) {sizes : CarriageSizes} (arrays : CarriageArrays sizes)
    (hdr : RtpHeader) (payload : List UInt8) (fresh : UInt8) :
    Except MemFault (Option (List UInt8)) :=
  if rtpLen hdr > 0 then
    if rtpLen hdr > mode.saedu then .ok none
    else do
      let src := payload ++ [fresh]
      let msg ← decodeLoop src payload.length (src.length + 1) 0 arrays.chRtrSecMsg
      let data ← bytesAt .outOfBounds msg 0 mode.saedu
      return some data
  else .ok (some (List.replicate mode.saedu 0))

/-- The payload `data` gets across: no access is outside, and it is what is at `m_FrmR + 3`. -/
def Carried (mode : G711Mode) {sizes : CarriageSizes} (sender receiver : CarriageArrays sizes)
    (hdr : RtpHeader) (data : List UInt8) (fresh : UInt8) : Prop :=
  Yields (fun payload =>
    Yields (fun frm => frm.map (List.take data.length) = some data)
      (saerData mode receiver hdr payload fresh)) (saesData mode sender data)

/-! ## What the loops need -/

section Loops

variable {msg payload : List UInt8} {start : Nat} {fresh : UInt8} {Q : List UInt8 → Prop}

/-- The loop of `Encode` copies its bytes if they are there, on both sides. -/
theorem encodeLoop_iff (n : Nat) : ∀ (i : Nat) (dst : List UInt8),
    Yields Q (encodeLoop msg start n i dst) ↔
      (n = 0 ∨ (start + i + n ≤ msg.length ∧ i + n ≤ dst.length)) ∧
        Q (dst.take i ++ (msg.drop (start + i)).take n ++ dst.drop (i + n)) := by
  induction n with
  | zero =>
      intro i dst
      simp [encodeLoop]
  | succ n ih =>
      intro i dst
      unfold encodeLoop
      rw [yields_byteAt, yields_writeAt]
      by_cases hin : start + i < msg.length ∧ i < dst.length
      · rcases hin with ⟨hread, hwrite⟩
        have hend : i + (n + 1) = i + 1 + n := by omega
        have hnext : start + (i + 1) = start + i + 1 := by omega
        rw [ih, List.length_singleton, length_write_byte hwrite, take_write_byte hwrite,
          drop_write_byte hwrite (by omega), hnext, hend, drop_eq_content hread,
          List.take_succ_cons]
        simp only [List.append_assoc, List.cons_append]
        constructor
        · rintro ⟨-, -, hroom, hQ⟩
          exact ⟨.inr (by omega), hQ⟩
        · rintro ⟨hroom, hQ⟩
          exact ⟨hread, .inr hwrite, by omega, hQ⟩
      · simp
        omega

/-- `strlen` comes to an end if there is a zero. -/
theorem strlenAt_zeros {data : List UInt8} {k : Nat} (hk : 0 < k)
    (hdrop : msg.drop start = data ++ List.replicate k 0) :
    ∃ n, strlenAt msg start = .ok n ∧ n ≤ data.length := by
  unfold strlenAt
  rw [hdrop]
  have hzero : (0 : UInt8) ∈ data ++ List.replicate k 0 := by
    simp
    omega
  cases hfind : (data ++ List.replicate k (0 : UInt8)).findIdx? (· == 0) with
  | none =>
      rw [List.findIdx?_eq_none_iff] at hfind
      simpa using hfind 0 hzero
  | some n =>
      refine ⟨n, rfl, ?_⟩
      by_contra hlt
      rw [List.findIdx?_eq_some_iff_getElem] at hfind
      rcases hfind with ⟨hlt, hat, hbefore⟩
      have hat := hbefore data.length (by omega)
      simp at hat

/-- Behind the packet the loop of `Decode` faults. -/
theorem decodeLoop_past {i n fuel : Nat} (h : payload.length ≤ i) :
    ¬ Yields Q (decodeLoop payload n fuel i msg) := by
  rcases fuel with - | fuel
  · exact yields_error
  · unfold decodeLoop
    rw [yields_byteAt]
    omega

/-- The loop of `Decode` ends behind the payload if the byte there is a zero; else it goes on to
where there is no packet. -/
theorem decodeLoop_iff (n : Nat) : ∀ (fuel i : Nat) (msg : List UInt8), i + n = payload.length →
    n < fuel → i ≤ msg.length →
    (Yields Q (decodeLoop (payload ++ [fresh]) payload.length fuel i msg) ↔
      (fresh = 0 ∧ payload.length < msg.length) ∧
        Q (msg.take i ++ payload.drop i ++ [fresh] ++ msg.drop (payload.length + 1))) := by
  induction n with
  | zero =>
      intro fuel i msg hi hfuel hlen
      rcases fuel with - | fuel
      · omega
      · have hi : i = payload.length := by omega
        subst hi
        have hread : content (payload ++ [fresh]) payload.length = fresh.toNat := by
          simp [content]
        unfold decodeLoop
        rw [yields_byteAt, yields_writeAt, hread]
        by_cases hfresh : fresh = 0
        · simp [hfresh]
        · have hne : fresh.toNat ≠ 0 := by
            intro hzero
            exact hfresh (UInt8.toNat_inj.mp hzero)
          constructor
          · rintro ⟨-, -, hrest⟩
            rw [if_pos (.inl hne)] at hrest
            exact absurd hrest (decodeLoop_past (by simp))
          · rintro ⟨⟨hzero, -⟩, -⟩
            exact absurd hzero hfresh
  | succ n ih =>
      intro fuel i msg hi hfuel hlen
      rcases fuel with - | fuel
      · omega
      · have hread : content (payload ++ [fresh]) i = content payload i := by
          simp [content, List.getElem?_append_left (show i < payload.length by omega)]
        unfold decodeLoop
        rw [yields_byteAt, yields_writeAt, hread, if_pos (.inr (by omega))]
        by_cases hwrite : i < msg.length
        · have hi : i < payload.length := by omega
          have hlength : (msg.take i ++ [UInt8.ofNat (content payload i)] ++
              msg.drop (i + 1)).length = msg.length := length_write_byte hwrite
          rw [List.length_singleton, ih _ _ _ (by omega) (by omega) (by omega), hlength,
            take_write_byte hwrite, drop_write_byte hwrite (by omega), drop_eq_content hi]
          simp only [List.append_assoc, List.cons_append]
          constructor
          · rintro ⟨-, -, hrest⟩
            exact hrest
          · intro hrest
            exact ⟨by simp; omega, .inr hwrite, hrest⟩
        · constructor
          · rintro ⟨-, hroom, -⟩
            simp at hroom
            omega
          · rintro ⟨⟨-, hroom⟩, -⟩
            omega

end Loops

/-! ## What a payload needs -/

section

variable {mode : G711Mode} {sizes : CarriageSizes} {arrays : CarriageArrays sizes}
variable {data : List UInt8}

theorem mode_sizes (mode : G711Mode) :
    mode.saedu < mode.dataLen ∧ 35 < mode.saedu ∧ mode.stmdu = mode.saedu + 3 := by
  cases mode with
  | _ => decide

theorem crtFrame_length (h : data.length ≤ mode.saedu) :
    (crtFrame mode sizes.spare data).length = mode.stmdu + sizes.spare := by
  simp [crtFrame, G711Mode.stmdu]
  omega

theorem crtFrame_payload : (crtFrame mode sizes.spare data).drop 3 =
    data ++ List.replicate (mode.saedu - data.length + sizes.spare) 0 := by
  simp [crtFrame]

/-- What `Encode` takes of a frame that has the room. -/
theorem crtFrame_audio (h : data.length ≤ mode.saedu)
    (hroom : mode.dataLen ≤ mode.saedu + sizes.spare) :
    ((crtFrame mode sizes.spare data).drop 3).take mode.dataLen =
      data ++ List.replicate (mode.dataLen - data.length) 0 := by
  have hsizes := mode_sizes mode
  rw [crtFrame_payload, List.take_append, List.take_of_length_le (by omega), List.take_replicate]
  congr 2
  omega

/-- `Encode` goes through the frame up to the length of a packet, and needs this room on both
sides. -/
theorem encodeHidden_frame {dst : List UInt8} {Q : List UInt8 → Prop}
    (h : data.length ≤ mode.saedu) :
    Yields Q (encodeHidden mode.dataLen (crtFrame mode sizes.spare data) 3 dst) ↔
      (mode.dataLen ≤ mode.saedu + sizes.spare ∧ mode.dataLen ≤ dst.length) ∧
        Q (data ++ List.replicate (mode.dataLen - data.length) 0 ++ dst.drop mode.dataLen) := by
  have hsizes := mode_sizes mode
  have hlength : (crtFrame mode sizes.spare data).length = mode.stmdu + sizes.spare :=
    crtFrame_length h
  unfold encodeHidden
  rw [yields_bind]
  by_cases hroom : mode.dataLen ≤ mode.saedu + sizes.spare
  · -- there is a zero behind the payload
    obtain ⟨n, hn, hle⟩ := strlenAt_zeros (k := mode.saedu - data.length + sizes.spare) (by omega)
      crtFrame_payload
    have hcount : max (n + 1) mode.dataLen = mode.dataLen := by omega
    rw [hn, yields_ok, hcount, encodeLoop_iff, hlength, Nat.add_zero, crtFrame_audio h hroom,
      List.take_zero, List.nil_append, Nat.zero_add]
    constructor
    · rintro ⟨hinside, hQ⟩
      exact ⟨⟨hroom, by omega⟩, hQ⟩
    · rintro ⟨⟨-, hdst⟩, hQ⟩
      exact ⟨.inr (by omega), hQ⟩
  · constructor
    · rintro ⟨n, -, hloop⟩
      rw [encodeLoop_iff] at hloop
      rcases hloop with ⟨hinside, -⟩
      omega
    · rintro ⟨⟨hinside, -⟩, -⟩
      exact absurd hinside hroom

/-- **The sender** returns if every array has the room, and then the audio bytes are the payload and
zeros. -/
theorem saesData_iff {Q : List UInt8 → Prop} (h : data.length ≤ mode.saedu) :
    Yields Q (saesData mode arrays data) ↔
      (data.length ≤ sizes.emd ∧ mode.dataLen ≤ mode.saedu + sizes.spare ∧
        mode.dataLen ≤ sizes.buf) ∧ Q (data ++ List.replicate (mode.dataLen - data.length) 0) := by
  have hsizes := mode_sizes mode
  have hlength : (crtFrame mode sizes.spare data).length = mode.stmdu + sizes.spare :=
    crtFrame_length h
  have hmsg : ((crtFrame mode sizes.spare data).drop 3).take data.length = data := by
    rw [crtFrame_payload, List.take_left]
  have haudio : (data ++ List.replicate (mode.dataLen - data.length) (0 : UInt8)).length =
      mode.dataLen := by
    simp
    omega
  unfold saesData
  dsimp only
  rw [yields_bytesAt, yields_bytesAt, yields_writeAt, yields_bind, encodeHidden_frame h, hlength,
    hmsg, arrays.emd_size, arrays.buf_size, bytesAt, yields_access_iff, List.drop_zero,
    List.take_left' haudio]
  have hempty : data = [] → data.length = 0 := fun hdata => by simp [hdata]
  have hbuf : mode.dataLen ≤ (data ++ List.replicate (mode.dataLen - data.length) (0 : UInt8) ++
      arrays.frmBuf.drop mode.dataLen).length := by
    rw [List.length_append, haudio]
    omega
  constructor
  · rintro ⟨-, -, hemd, ⟨hspare, hroom⟩, -, hQ⟩
    have hle : data.length ≤ sizes.emd := by
      rcases hemd with hdata | hemd
      · have := hempty hdata
        omega
      · omega
    exact ⟨⟨hle, hspare, hroom⟩, hQ⟩
  · rintro ⟨⟨hemd, hspare, hroom⟩, hQ⟩
    exact ⟨.inr (by omega), .inr (by omega), .inr (by omega), ⟨hspare, hroom⟩, .inr (by omega), hQ⟩

/-- **The receiver** returns if its array has the room and the byte behind the payload is a zero,
and then it has the payload. -/
theorem saerData_iff {hdr : RtpHeader} {payload : List UInt8} {fresh : UInt8}
    {Q : Option (List UInt8) → Prop} (hpos : 0 < rtpLen hdr) (hle : rtpLen hdr ≤ mode.saedu)
    (hpayload : payload.length = mode.dataLen) :
    Yields Q (saerData mode arrays hdr payload fresh) ↔
      (fresh = 0 ∧ mode.dataLen < sizes.rtr) ∧ Q (some (payload.take mode.saedu)) := by
  have hsizes := mode_sizes mode
  have hdata (rest : List UInt8) : (payload ++ rest).take mode.saedu = payload.take mode.saedu :=
    List.take_append_of_le_length (by omega)
  unfold saerData
  rw [if_pos hpos, if_neg (by omega)]
  dsimp only
  rw [yields_bind, decodeLoop_iff payload.length _ 0 _ (by omega) (by simp) (by omega),
    yields_bytesAt, arrays.rtr_size, hpayload]
  simp only [List.take_zero, List.nil_append, List.drop_zero, List.append_assoc, hdata]
  constructor
  · rintro ⟨hroom, -, hQ⟩
    exact ⟨hroom, yields_ok.mp hQ⟩
  · rintro ⟨hroom, hQ⟩
    exact ⟨hroom, .inr (by simp; omega), yields_ok.mpr hQ⟩

/-- A payload gets across if and only if every array has the room, and the byte behind the copy of
the packet is a zero. -/
theorem carried_iff {sender receiver : CarriageArrays sizes} {hdr : RtpHeader} {fresh : UInt8}
    (hpos : 0 < data.length) (hle : data.length ≤ mode.saedu) (hhdr : rtpLen hdr = data.length) :
    Carried mode sender receiver hdr data fresh ↔
      data.length ≤ sizes.emd ∧ mode.dataLen ≤ mode.saedu + sizes.spare ∧ mode.dataLen ≤ sizes.buf ∧
        mode.dataLen < sizes.rtr ∧ fresh = 0 := by
  have hsizes := mode_sizes mode
  have hpayload : (data ++ List.replicate (mode.dataLen - data.length) (0 : UInt8)).length =
      mode.dataLen := by
    simp
    omega
  have htake : ((data ++ List.replicate (mode.dataLen - data.length) (0 : UInt8)).take
      mode.saedu).take data.length = data := by
    rw [List.take_take, Nat.min_eq_left hle, List.take_left]
  unfold Carried
  rw [saesData_iff hle, saerData_iff (by omega) (by omega) hpayload]
  constructor
  · rintro ⟨⟨hemd, hspare, hbuf⟩, ⟨hfresh, hrtr⟩, -⟩
    exact ⟨hemd, hspare, hbuf, hrtr, hfresh⟩
  · rintro ⟨hemd, hspare, hbuf, hrtr, hfresh⟩
    exact ⟨⟨hemd, hspare, hbuf⟩, ⟨hfresh, hrtr⟩, congrArg some htake⟩

end

/-! ## The arrays of the class -/

/-- With the arrays of the class both sides go outside of them in every mode, for every payload: the
sender reads behind `m_Crt.Frame`, the receiver writes behind `m_chRtrSecMsg`. -/
theorem carriage_outside (mode : G711Mode) (sender receiver : CarriageArrays .declared)
    (hdr : RtpHeader) (data : List UInt8) (fresh : UInt8) (hpos : 0 < data.length)
    (hle : data.length ≤ mode.saedu) (hhdr : rtpLen hdr = data.length) :
    ¬ Returns (saesData mode sender data) ∧
      (∀ payload, payload.length = mode.dataLen →
        ¬ Returns (saerData mode receiver hdr payload fresh)) ∧
      ¬ Carried mode sender receiver hdr data fresh := by
  have hsizes := mode_sizes mode
  have hspare : ¬ mode.dataLen ≤ mode.saedu + CarriageSizes.declared.spare := by
    simp [CarriageSizes.declared]
    omega
  have hrtr : ¬ mode.dataLen < CarriageSizes.declared.rtr := by
    simp [CarriageSizes.declared]
    omega
  refine ⟨?_, ?_, ?_⟩
  · intro hreturns
    rw [returns_iff, saesData_iff hle] at hreturns
    exact hspare hreturns.1.2.1
  · intro payload hpayload hreturns
    rw [returns_iff, saerData_iff (by omega) (by omega) hpayload] at hreturns
    exact hrtr hreturns.1.2
  · rw [carried_iff hpos hle hhdr]
    rintro ⟨-, hinside, -⟩
    exact hspare hinside

/-- Arrays of zeros. -/
def zeroArrays : CarriageArrays .declared where
  chEmdSecMsg := List.replicate 35 0
  frmBuf := List.replicate 50 0
  chRtrSecMsg := List.replicate 35 0
  emd_size := by decide
  buf_size := by decide
  rtr_size := by decide

/-- The RTP header of a frame with one byte. -/
def letterHeader : RtpHeader := fun i => if i = 9 then 0x41 else 0

theorem carriage_outside_letter :
    ¬ Returns (saesData .small zeroArrays [0x41]) ∧
      (∀ payload, payload.length = G711Mode.small.dataLen →
        ¬ Returns (saerData .small zeroArrays letterHeader payload 0)) ∧
      ¬ Carried .small zeroArrays zeroArrays letterHeader [0x41] 0 :=
  carriage_outside .small zeroArrays zeroArrays letterHeader [0x41] 0 (by decide) (by decide)
    (by decide)

/-- One byte of payload in a packet of 40 bytes: the sender is outside already. -/
theorem letter_notCarried : rtpLen letterHeader = 1 ∧
    saesData .small zeroArrays [0x41] = .error .outOfBounds ∧
    ¬ Carried .small zeroArrays zeroArrays letterHeader [0x41] 0 := by
  have hsender : saesData .small zeroArrays [0x41] = .error .outOfBounds := by decide
  refine ⟨by decide, hsender, ?_⟩
  unfold Carried
  rw [hsender]
  exact yields_error

end Steg
