import PjProject.Steg.Carriage
import PjProject.Steg.Delivery
import PjProject.Steg.Embedding

set_option autoImplicit false

/-! # A call of RTP packets

Here a packet is an RTP header and its audio. `SAESheader` puts the header of a frame into the SSRC,
`SAESdata` its payload into the audio, and `SAER` takes both out of them again: for G.711 as in
`Steg.Carriage`, for iLBC from the parities of the values of the coded frame. The signal processing
of `iLBCEncode` is no part of the model, and the frame that it writes may be any.

What `SAESdata` and `SAER` do with the arrays decides whether a packet gets across. If it does
(`exactStep`), the steps of such a call are those of the call of frames (`Simulates.actPacket`), and
`call_run_in_order` says what is delivered, in which order. `message_outside` is a message in G.711.
-/

namespace Steg

open Buffer Machine

/-! ## What an iLBC packet hides -/

/-- `iLBC_ULP_Inst_t`, the bits that a value has in each of the three classes, with the length of
the start state and the number of its places. -/
structure UlpInst where
  lsfBits : List (List Nat)
  startBits : List Nat
  startfirstBits : List Nat
  scaleBits : List Nat
  stateBits : List Nat
  extraCbIndex : List (List Nat)
  extraCbGain : List (List Nat)
  cbIndex : List (List Nat)
  cbGain : List (List Nat)
  stateShortLen : Nat
  starts : Nat

/-- `ULP_20msTbl`. -/
def ulp20msTbl : UlpInst where
  lsfBits := [[6, 0, 0], [7, 0, 0], [7, 0, 0]]
  startBits := [2, 0, 0]
  startfirstBits := [1, 0, 0]
  scaleBits := [6, 0, 0]
  stateBits := [0, 1, 2]
  extraCbIndex := [[6, 0, 1], [0, 0, 7], [0, 0, 7]]
  extraCbGain := [[2, 0, 3], [1, 1, 2], [0, 0, 3]]
  cbIndex := [[7, 0, 1], [0, 0, 7], [0, 0, 7], [0, 0, 8], [0, 0, 8], [0, 0, 8]]
  cbGain := [[1, 2, 2], [1, 1, 2], [0, 0, 3], [1, 1, 3], [0, 2, 2], [0, 0, 3]]
  stateShortLen := 57
  starts := 3

/-- `ULP_30msTbl`. -/
def ulp30msTbl : UlpInst where
  lsfBits := [[6, 0, 0], [7, 0, 0], [7, 0, 0], [6, 0, 0], [7, 0, 0], [7, 0, 0]]
  startBits := [3, 0, 0]
  startfirstBits := [1, 0, 0]
  scaleBits := [6, 0, 0]
  stateBits := [0, 1, 2]
  extraCbIndex := [[4, 2, 1], [0, 0, 7], [0, 0, 7]]
  extraCbGain := [[1, 1, 3], [1, 1, 2], [0, 0, 3]]
  cbIndex := [[6, 1, 1], [0, 0, 7], [0, 0, 7], [0, 7, 1], [0, 0, 8], [0, 0, 8],
    [0, 7, 1], [0, 0, 8], [0, 0, 8], [0, 7, 1], [0, 0, 8], [0, 0, 8]]
  cbGain := [[1, 2, 2], [1, 2, 1], [0, 0, 3], [0, 2, 3], [0, 2, 2], [0, 0, 3],
    [0, 1, 4], [0, 1, 3], [0, 0, 3], [0, 1, 4], [0, 1, 3], [0, 0, 3]]
  stateShortLen := 58
  starts := 5

/-- The values of a frame, in the order in which they are unpacked. -/
def UlpInst.values (u : UlpInst) : List (List Nat) :=
  u.lsfBits ++ [u.startBits, u.startfirstBits, u.scaleBits] ++
    List.replicate u.stateShortLen u.stateBits ++ u.extraCbIndex ++ u.extraCbGain ++ u.cbIndex ++
    u.cbGain

/-- `unpack` and `packcombine` for the values of one class, and the bits that are left. -/
def unpackClass (ulp : Nat) : List (List Nat × Nat) → List Bool →
    List (List Nat × Nat) × List Bool
  | [], bits => ([], bits)
  | (widths, v) :: rest, bits =>
      let n := widths.getD ulp 0
      let part := (bits.take n).foldl (fun x b => 2 * x + b.toNat) 0
      let r := unpackClass ulp rest (bits.drop n)
      ((widths, v * 2 ^ n + part) :: r.1, r.2)

/-- The loop of `iLBC_decode` over the classes: the values without those of the LSF, and whether the
last bit marks an empty frame. -/
def UlpInst.unpackFrame (u : UlpInst) (bytes : List UInt8) : List Nat × Bool :=
  let r := (List.range 3).foldl (fun r ulp => unpackClass ulp r.1 r.2)
    (u.values.map (·, 0), bytes.flatMap dataBits)
  ((r.1.map (·.2)).drop u.lsfBits.length, r.2.headD false)

/-- An index and a gain after the other. -/
def alternate (index gain : List Nat) : List Nat := (index.zip gain).flatMap fun x => [x.1, x.2]

/-- The values whose parities are the hidden bits. `index_conv_dec` adds even numbers only. -/
def UlpInst.hiding (u : UlpInst) (values : List Nat) : List Nat :=
  let extra := values.drop (3 + u.stateShortLen)
  let main := extra.drop (2 * u.extraCbIndex.length)
  values.take (3 + u.stateShortLen) ++
    alternate (extra.take u.extraCbIndex.length) (extra.drop u.extraCbIndex.length) ++
    alternate (main.take u.cbIndex.length) (main.drop u.cbIndex.length)

/-- The bytes that `iLBCEncode` hides bits of. -/
def UlpInst.hidden (u : UlpInst) : Nat :=
  (3 + u.stateShortLen + 2 * u.extraCbIndex.length + 2 * u.cbIndex.length + 7) / 8

/-- What `iLBC_decode` takes out of a frame, with `putbit` for each bit; a bad or empty frame hides
nothing. -/
def UlpInst.reveal (u : UlpInst) (bytes : List UInt8) : Option (List UInt8) :=
  let (values, empty) := u.unpackFrame bytes
  let start := values.headD 0
  if start < 1 ∨ start > u.starts ∨ empty then none
  else
    let bits := (u.hiding values).map fun v => v % 2 == 1
    some ((List.range u.hidden).map fun i => byteOfBits ((bits.drop (8 * i)).take 8))

/-- `iLBCDecode`: `m_chRtrSecMsg` afterwards. -/
def UlpInst.iLBCDecode (u : UlpInst) (bytes msg : List UInt8) : List UInt8 :=
  match u.reveal bytes with
  | some hidden => hidden ++ msg.drop hidden.length
  | none => msg

theorem UlpInst.reveal_length {u : UlpInst} {bytes hidden : List UInt8}
    (h : u.reveal bytes = some hidden) : hidden.length = u.hidden := by
  unfold UlpInst.reveal at h
  dsimp only at h
  split at h
  · cases h
  · cases h
    simp

/-! ## Packets -/

/-- How a payload is hidden. -/
def Codec.coder : Codec → G711Mode ⊕ UlpInst
  | .pcmaSmall => .inl .small
  | .g711 => .inl .full
  | .ilbc20 => .inr ulp20msTbl
  | .ilbc30 => .inr ulp30msTbl

/-- The bytes of the audio of a packet. -/
def Codec.dataLen : Codec → Nat
  | .pcmaSmall => 40
  | .g711 => 160
  | .ilbc20 => 38
  | .ilbc30 => 50

/-- The arrays of the class, and `spare` bytes that the memory of `m_Crt.Frame` has behind it. -/
def CarriageSizes.withSpare (spare : Nat) : CarriageSizes := { CarriageSizes.declared with spare }

/-- An RTP packet. -/
structure RtpPacket where
  header : RtpHeader
  audio : List UInt8

/-- `SAESheader`: `Embed` sets all bits of the three bytes that `extract` takes the header from. -/
def saesHeader (hdr : RtpHeader) (f : Frame) : RtpHeader := fun i =>
  if i = 9 then f.b0 else if i = 10 then f.b1 else if i = 11 then f.b2 else hdr i

/-- The end of `SAESdata`: what `Encode` has made of the samples goes through `m_pFrmBuf`. -/
def frmAudio {sizes : CarriageSizes} (arrays : CarriageArrays sizes) (audio : List UInt8) :
    Except MemFault (List UInt8) := do
  let buf ← writeAt .outOfBounds arrays.frmBuf 0 audio
  bytesAt .outOfBounds buf 0 audio.length

/-- `SAESdata`. `audio` is what `Encode` makes of the samples of the packet, if it does not put the
payload in their place. -/
def saesAudio (codec : Codec) {sizes : CarriageSizes} (arrays : CarriageArrays sizes)
    (audio data : List UInt8) : Except MemFault (List UInt8) :=
  if data = [] then frmAudio arrays audio
  else
    match codec.coder with
    | .inl mode => saesData mode arrays data
    | .inr u => do
        let frame := List.replicate 3 0 ++ data ++
          List.replicate (codec.saedu - data.length + sizes.spare) 0
        let _ ← writeAt .outOfBounds arrays.chEmdSecMsg 0 data
        -- there are more hidden bits than a payload has
        let _ ← bytesAt MemFault.outOfBounds frame 3 u.hidden
        frmAudio arrays audio

/-- The frame of a header and a payload. -/
def rtpFrame (hdr : RtpHeader) (data : List UInt8) : Frame :=
  ⟨extract hdr 0, extract hdr 1, extract hdr 2, data⟩

/-- `SAER`: the frame of a packet, with as many bytes of `m_FrmR + 3` as its header says. The others
are not used. -/
def saerFrame (codec : Codec) {sizes : CarriageSizes} (arrays : CarriageArrays sizes)
    (p : RtpPacket) (fresh : UInt8) : Except MemFault (Option Frame) :=
  let len := rtpLen p.header
  match codec.coder with
  | .inl mode => do
      let frm ← saerData mode arrays p.header p.audio fresh
      return frm.map fun data => rtpFrame p.header (data.take len)
  | .inr u =>
      if len > codec.saedu then .ok none
      else .ok (some (rtpFrame p.header ((u.iLBCDecode p.audio arrays.chRtrSecMsg).take len)))

/-! ## Two sides and their packets -/

/-- Two connected sides and the packets on their way. -/
structure PacketCall where
  suit : Suit
  peer : Suit
  out : List RtpPacket
  back : List RtpPacket

/-- The call as the second side sees it. -/
def PacketCall.swap (c : PacketCall) : PacketCall := ⟨c.peer, c.suit, c.back, c.out⟩

/-- What can happen at one side: with `embedding` and `retriving`, what the arrays hold, the audio
and the header of the packet, and the byte behind the copy of it. -/
inductive PacketAction (codec : Codec) (spare : Nat) where
  | send (src : List UInt8) (type : Nat)
  | embedding (arrays : CarriageArrays (.withSpare spare)) (audio : List UInt8)
      (size : audio.length = codec.dataLen) (hdr : RtpHeader)
  | retriving (arrays : CarriageArrays (.withSpare spare)) (fresh : UInt8)
  | lose (i : Nat)

variable {codec : Codec} {spare : Nat}

/-- An action of the first side. -/
def actPacket (c : PacketCall) : PacketAction codec spare → Except MemFault PacketCall
  | .send src type => .ok { c with suit := send codec.saedu c.suit src type }
  | .embedding arrays audio _ hdr => do
      let r := embedding codec.saedu c.suit
      let audio ← saesAudio codec arrays audio r.2.data
      return { c with suit := r.1, out := c.out ++ [⟨saesHeader hdr r.2, audio⟩] }
  | .retriving arrays fresh =>
      match c.back with
      | [] => .ok c
      | p :: l => do
          let frm ← saerFrame codec arrays p fresh
          return { c with suit := frm.elim c.suit (stmr codec.saedu c.suit), back := l }
  | .lose i => .ok { c with out := c.out.eraseIdx i }

/-- One step of a call: an action of the first side (`true`) or of the second one. -/
def packetStep (c : PacketCall) (a : Bool × PacketAction codec spare) :
    Except MemFault PacketCall :=
  if a.1 then actPacket c a.2 else (actPacket c.swap a.2).map PacketCall.swap

/-- A new call. -/
def PacketCall.begin : PacketCall := ⟨create, create, [], []⟩

/-! ## When a packet gets across -/

/-- The payload `data` gets across with this audio. In G.711 none does, and a packet of 160 bytes not
even without; an iLBC frame has to hide it, and a byte behind `m_Crt.Frame` can be read. -/
def Exact (codec : Codec) (spare : Nat) (audio data : List UInt8) : Prop :=
  match codec.coder with
  | .inl mode => mode = .small ∧ data = []
  | .inr u => data = [] ∨ 1 ≤ spare ∧ (u.reveal audio).map (List.take data.length) = some data

instance Exact.decidable (codec : Codec) (spare : Nat) (audio data : List UInt8) :
    Decidable (Exact codec spare audio data) :=
  match h : codec.coder with
  | .inl mode => decidable_of_iff (mode = .small ∧ data = []) (by simp [Exact, h])
  | .inr u => decidable_of_iff
      (data = [] ∨ 1 ≤ spare ∧ (u.reveal audio).map (List.take data.length) = some data)
      (by simp [Exact, h])

/-- What is embedded gets across. -/
def exactStep (c : PacketCall) (a : Bool × PacketAction codec spare) : Prop :=
  match a.2 with
  | .embedding _ audio _ _ =>
      Exact codec spare audio (embedding codec.saedu (if a.1 then c.suit else c.peer)).2.data
  | _ => True

instance exactStep.decidable (c : PacketCall) (a : Bool × PacketAction codec spare) :
    Decidable (exactStep c a) :=
  match a with
  | (_, .embedding _ _ _ _) => Exact.decidable ..
  | (_, .send _ _) => isTrue trivial
  | (_, .retriving _ _) => isTrue trivial
  | (_, .lose _) => isTrue trivial

/-- The packet `p` carries the frame `f`. -/
structure Shows (codec : Codec) (p : RtpPacket) (f : Frame) : Prop where
  b0 : p.header 9 = f.b0
  b1 : p.header 10 = f.b1
  b2 : p.header 11 = f.b2
  len : getLenFromCursor f ≠ 0 → f.data.length = getLenFromCursor f
  payload : getLenFromCursor f ≠ 0 → ∃ u, codec.coder = .inr u ∧
    (u.reveal p.audio).map (List.take f.data.length) = some f.data

section

variable {p : RtpPacket} {f : Frame} {audio data : List UInt8}

theorem small_sizes (h : codec.coder = .inl .small) : codec.dataLen = 40 := by
  cases codec with
  | pcmaSmall => rfl
  | _ => cases h

theorem ilbc_sizes {u : UlpInst} (h : codec.coder = .inr u) :
    codec.dataLen ≤ 50 ∧ u.hidden ≤ codec.saedu + 1 ∧ u.hidden ≤ 35 := by
  cases codec with
  | pcmaSmall => cases h
  | g711 => cases h
  | _ =>
      cases h
      decide

/-- Audio that fits into `m_pFrmBuf`. -/
theorem frmAudio_ok (arrays : CarriageArrays (.withSpare spare)) (h : audio.length ≤ 50) :
    Yields (· = audio) (frmAudio arrays audio) := by
  have hsize : arrays.frmBuf.length = 50 := arrays.buf_size
  unfold frmAudio
  rw [yields_writeAt, bytesAt, yields_access_iff]
  refine ⟨.inr (by omega), .inr (by simp), ?_⟩
  simp

/-- **The sender.** -/
theorem saesAudio_ok (arrays : CarriageArrays (.withSpare spare)) (hsize : audio.length = codec.dataLen)
    (h : Exact codec spare audio data) : Yields (· = audio) (saesAudio codec arrays audio data) := by
  unfold Exact at h
  unfold saesAudio
  cases hcoder : codec.coder with
  | inl mode =>
      rw [hcoder] at h
      obtain ⟨rfl, hdata⟩ := h
      have hlen := small_sizes hcoder
      rw [if_pos hdata]
      exact frmAudio_ok arrays (by omega)
  | inr u =>
      rw [hcoder] at h
      obtain ⟨hlen, hroom, hemd⟩ := ilbc_sizes hcoder
      by_cases hdata : data = []
      · rw [if_pos hdata]
        exact frmAudio_ok arrays (by omega)
      · rw [if_neg hdata]
        obtain ⟨hspare, hreveal⟩ := h.resolve_left hdata
        obtain ⟨bytes, hbytes, htake⟩ := Option.map_eq_some_iff.mp hreveal
        have hle : data.length ≤ u.hidden := by
          have hmin := congrArg List.length htake
          rw [List.length_take, UlpInst.reveal_length hbytes] at hmin
          omega
        have hchars : arrays.chEmdSecMsg.length = 35 := arrays.emd_size
        dsimp only
        rw [yields_writeAt, yields_bytesAt]
        refine ⟨.inr (by omega), .inr ?_, frmAudio_ok arrays (by omega)⟩
        simp [CarriageSizes.withSpare]
        omega

/-- What is embedded is shown by the packet. -/
theorem shows_embedded (hdr : RtpHeader) (hlen : getLenFromCursor f ≠ 0 → f.data.length = getLenFromCursor f)
    (h : Exact codec spare audio f.data) : Shows codec ⟨saesHeader hdr f, audio⟩ f := by
  refine ⟨rfl, rfl, rfl, hlen, fun hne => ?_⟩
  have hdata : f.data ≠ [] := by
    intro hnil
    have hlen := hlen hne
    rw [hnil] at hlen
    exact hne hlen.symm
  unfold Exact at h
  cases hcoder : codec.coder with
  | inl mode =>
      rw [hcoder] at h
      exact absurd h.2 hdata
  | inr u =>
      rw [hcoder] at h
      exact ⟨u, rfl, (h.resolve_left hdata).2⟩

theorem Shows.frame (h : Shows codec p f) (data : List UInt8) :
    rtpFrame p.header data = { f with data := data } := by
  obtain ⟨h0, h1, h2⟩ := extract_bytes p.header
  rw [rtpFrame, h0, h1, h2, h.b0, h.b1, h.b2]

theorem Shows.rtpLen (h : Shows codec p f) : rtpLen p.header = getLenFromCursor f := by
  have hframe := h.frame []
  unfold rtpFrame at hframe
  unfold Steg.rtpLen
  rw [hframe]
  rfl

/-- A frame without a payload only has an acknowledgement. -/
theorem stmr_empty (saedu : Nat) (s : Suit) (h : getLenFromCursor f = 0) (data : List UInt8) :
    stmr saedu s { f with data := data } = stmr saedu s f := by
  have hlen : getLenFromCursor { f with data := data } = 0 := h
  unfold stmr accept
  rw [if_pos hlen, if_pos h]
  rfl

/-- **The receiver** handles a packet as the frame that it carries. -/
theorem saerFrame_ok (h : Shows codec p f) (arrays : CarriageArrays (.withSpare spare)) (fresh : UInt8)
    (s : Suit) : ∃ frm, saerFrame codec arrays p fresh = .ok frm ∧
      frm.elim s (stmr codec.saedu s) = retriving codec.saedu s f := by
  unfold saerFrame
  dsimp only
  rw [h.rtpLen]
  by_cases hzero : getLenFromCursor f = 0
  · have hshort : ¬ getLenFromCursor f > codec.saedu := by omega
    have hretriving : retriving codec.saedu s f = stmr codec.saedu s { f with data := [] } := by
      rw [stmr_empty codec.saedu s hzero, retriving, if_neg hshort]
    rw [hretriving]
    cases hcoder : codec.coder with
    | inl mode =>
        refine ⟨some { f with data := [] }, ?_, rfl⟩
        have hlen : ¬ Steg.rtpLen p.header > 0 := by
          rw [h.rtpLen]
          omega
        simp only [saerData, if_neg hlen, Outcome.ok_bind, Option.map_some, hzero, List.take_zero,
          h.frame]
        rfl
    | inr u =>
        refine ⟨some { f with data := [] }, ?_, rfl⟩
        simp [hzero, h.frame]
  · obtain ⟨u, hcoder, hreveal⟩ := h.payload hzero
    obtain ⟨bytes, hbytes, htake⟩ := Option.map_eq_some_iff.mp hreveal
    have hmsg : (u.iLBCDecode p.audio arrays.chRtrSecMsg).take (getLenFromCursor f) = f.data := by
      have hle : f.data.length ≤ bytes.length := by
        have hmin := congrArg List.length htake
        rw [List.length_take] at hmin
        omega
      unfold UlpInst.iLBCDecode
      rw [hbytes, ← h.len hzero]
      dsimp only
      rw [List.take_append_of_le_length hle, htake]
    simp only [hcoder]
    by_cases hlong : getLenFromCursor f > codec.saedu
    · refine ⟨none, if_pos hlong, ?_⟩
      rw [retriving, if_pos hlong]
      rfl
    · refine ⟨some f, ?_, ?_⟩
      · rw [if_neg hlong, hmsg, h.frame]
      · rw [retriving, if_neg hlong]
        rfl

end

/-! ## The call of frames -/

/-- The action on frames that an action is. -/
def PacketAction.onFrames : PacketAction codec spare → Action
  | .send src type => .send src type
  | .embedding .. => .embedding
  | .retriving .. => .retriving
  | .lose i => .lose i

/-- The call `c` of frames is what the packets carry. -/
structure Simulates (codec : Codec) (pc : PacketCall) (c : Call) : Prop where
  suit : pc.suit = c.suit
  peer : pc.peer = c.peer
  out : List.Forall₂ (Shows codec) pc.out c.out
  back : List.Forall₂ (Shows codec) pc.back c.back

theorem Simulates.swap {pc : PacketCall} {c : Call} (h : Simulates codec pc c) :
    Simulates codec pc.swap c.swap :=
  ⟨h.peer, h.suit, h.back, h.out⟩

theorem forall₂_eraseIdx {α β : Type} {R : α → β → Prop} {l : List α} {l' : List β}
    (h : List.Forall₂ R l l') (i : Nat) : List.Forall₂ R (l.eraseIdx i) (l'.eraseIdx i) := by
  induction h generalizing i with
  | nil => exact .nil
  | cons hx h ih =>
      cases i with
      | zero => exact h
      | succ i => exact .cons hx (ih i)

/-- The length of the payload that is embedded is that in the header. -/
theorem embedding_len {c : Call} (h : Linked c) (codec : Codec) :
    getLenFromCursor (embedding codec.saedu c.suit).2 ≠ 0 →
      (embedding codec.saedu c.suit).2.data.length =
        getLenFromCursor (embedding codec.saedu c.suit).2 := by
  rcases h with ⟨out, back, a, top, a', top', -, -, h1, -⟩
  obtain ⟨num, he⟩ := h1.sender.embedding codec h1.queue
  intro hne
  rcases (he.data 0).data with ⟨-, hzero⟩ | ⟨-, -, hc⟩
  · exact absurd hzero hne
  · exact hc.len

/-- **The simulation.** -/
theorem Simulates.actPacket {pc : PacketCall} {c : Call} (h : Simulates codec pc c) (hlink : Linked c)
    (x : PacketAction codec spare) (hx : exactStep pc (true, x)) :
    ∃ pc', actPacket pc x = .ok pc' ∧ Simulates codec pc' (act codec c x.onFrames) := by
  obtain ⟨hsuit, hpeer, hout, hback⟩ := h
  cases x with
  | send src type => exact ⟨_, rfl, congrArg (send codec.saedu · src type) hsuit, hpeer, hout, hback⟩
  | embedding arrays audio size hdr =>
      -- The audio carries the frame exactly, which the step asks for.
      have hexact : Exact codec spare audio (embedding codec.saedu c.suit).2.data := by
        rw [← hsuit]
        exact hx
      obtain ⟨sent, hsent, hsame⟩ := saesAudio_ok arrays size hexact
      have hshows := shows_embedded hdr (embedding_len hlink codec) hexact
      refine ⟨⟨(embedding codec.saedu c.suit).1, pc.peer,
        pc.out ++ [⟨saesHeader hdr (embedding codec.saedu c.suit).2, audio⟩], pc.back⟩, ?_, rfl, hpeer,
        List.rel_append hout (.cons hshows .nil), hback⟩
      simp only [Steg.actPacket, hsuit, hsent, hsame, Outcome.ok_bind]
      rfl
  | retriving arrays fresh =>
      cases hb : pc.back with
      | nil =>
          rw [hb] at hback
          cases hnil : c.back with
          | nil =>
              refine ⟨pc, by simp [Steg.actPacket, hb], ?_⟩
              simp only [PacketAction.onFrames, act, hnil]
              exact ⟨hsuit, hpeer, hout, by rw [hb, hnil]; exact .nil⟩
          | cons f l =>
              rw [hnil] at hback
              cases hback
      | cons p l =>
          rw [hb] at hback
          cases hcons : c.back with
          | nil =>
              rw [hcons] at hback
              cases hback
          | cons f l' =>
              rw [hcons] at hback
              obtain ⟨hp, hl⟩ := List.forall₂_cons.mp hback
              obtain ⟨frm, hfrm, hstmr⟩ := saerFrame_ok hp arrays fresh c.suit
              refine ⟨⟨retriving codec.saedu c.suit f, pc.peer, pc.out, l⟩, ?_, ?_⟩
              · simp only [Steg.actPacket, hb, hfrm, Outcome.ok_bind, hsuit, hstmr]
                rfl
              · simp only [PacketAction.onFrames, act, hcons]
                exact ⟨rfl, hpeer, hout, hl⟩
  | lose i => exact ⟨_, rfl, hsuit, hpeer, forall₂_eraseIdx hout i, hback⟩

/-- What holds of a call of packets: it is one of frames that is in order. -/
def Delivers (codec : Codec) (pc : PacketCall) : Prop :=
  ∃ c, Simulates codec pc c ∧ Linked c ∧ Stored c.suit ∧ Stored c.peer

theorem Delivers.swap {pc : PacketCall} (h : Delivers codec pc) : Delivers codec pc.swap := by
  obtain ⟨c, hsim, hlink, hs, hp⟩ := h
  exact ⟨c.swap, hsim.swap, hlink.swap, hp, hs⟩

theorem Delivers.actPacket {pc : PacketCall} (h : Delivers codec pc) (x : PacketAction codec spare)
    (hx : exactStep pc (true, x)) : ∃ pc', Steg.actPacket pc x = .ok pc' ∧ Delivers codec pc' := by
  obtain ⟨c, hsim, hlink, hs, hp⟩ := h
  have hne : x.onFrames ≠ .configure := by
    cases x with
    | _ => exact nofun
  obtain ⟨pc', hstep, hsim'⟩ := hsim.actPacket hlink x hx
  obtain ⟨hs', hp'⟩ := stored_act hlink codec hne ⟨hs, hp⟩
  exact ⟨pc', hstep, _, hsim', hlink.act codec x.onFrames fun h => absurd h hne, hs', hp'⟩

/-- **The step lemma.** -/
theorem Delivers.step {pc : PacketCall} (h : Delivers codec pc) (x : Bool × PacketAction codec spare)
    (hx : exactStep pc x) : ∃ pc', packetStep pc x = .ok pc' ∧ Delivers codec pc' := by
  rcases x with ⟨side, x⟩
  cases side with
  | true => exact h.actPacket x hx
  | false =>
      obtain ⟨pc', hstep, h'⟩ := h.swap.actPacket x hx
      refine ⟨pc'.swap, ?_, h'.swap⟩
      simp [packetStep, hstep, Except.map]

theorem delivers_begin : Delivers codec .begin :=
  ⟨.begin, ⟨rfl, rfl, .nil, .nil⟩, linked_begin, fun _ _ => rfl, fun _ _ => rfl⟩

/-! ## Delivery in order -/

/-- What the receiver `r` has committed is a prefix of what the sender `s` has taken, and its
buffers hold just that as long as none has overflowed. -/
def InOrder (s r : Suit) : Prop := r.committed <+: s.taken ∧ Stored r

/-- What is in the window of the sender `s` are frames that it has taken, and `Inside` only releases
those that the receiver `r` has committed. `Between` takes the next packet for a new one only if `r`
has not committed its frame. -/
structure Compares (codec : Codec) (s r : Suit) (out : List RtpPacket) : Prop where
  released : ∀ i < 8, (s.window i).length ≠ 0 → ∃ k, k % 8 = i ∧
    Carries (s.window i).frame s.taken k ∧
      (inside (getSeqFromCursor (s.window i).frame) s.lastRANN = true → k ≤ r.committed.length)
  accepted : ∀ p ∈ out.head?, ∃ f, Shows codec p f ∧ (getLenFromCursor f ≠ 0 → ∃ k,
    Carries f s.taken k ∧ (between (getSeqFromCursor f) r.lastRSEQ = true ↔ r.committed.length < k))

theorem Link.compares {s r : Suit} {out back : List Packet} {a top : Nat}
    (h : Link s r out back a top) {packets : List RtpPacket}
    (hout : List.Forall₂ (Shows codec) packets (out.map (·.1))) : Compares codec s r packets := by
  refine ⟨fun i hi hne => ?_, fun p hp => ?_⟩
  · obtain ⟨k, hk, hn, hc⟩ := h.sender.slot i hi hne
    refine ⟨k, hk, hc, fun hin => ?_⟩
    exact ((h.sender.inside_iff hn hc).mp hin).trans h.acked
  · cases out with
    | nil =>
        rw [List.forall₂_nil_right_iff.mp hout] at hp
        cases hp
    | cons q out =>
        obtain ⟨p', packets', hshow, -, hcons⟩ := List.forall₂_cons_right_iff.mp hout
        rw [hcons] at hp
        cases hp
        refine ⟨q.1, hshow, fun hne => ?_⟩
        rcases (h.forward.data q List.mem_cons_self).data with ⟨-, hzero⟩ | ⟨hn, hle, hc⟩
        · exact absurd hzero hne
        · exact ⟨q.2.num, hc,
            h.receiver.between_iff (h.forward.top q List.mem_cons_self) hn hle hc h.sent_le⟩

/-- **Delivery in order.** In every run of `Send`, `Embedding`, `Retriving` and packet loss at two
connected sides in which what is embedded gets across, no access is outside an array, what either
side has committed is a prefix of the frames that the other one has taken, and the comparisons of
sequence numbers neither release a frame that has not arrived nor take an old one for a new one. -/
theorem call_run_in_order (codec : Codec) (spare : Nat) (l : List (Bool × PacketAction codec spare))
    (hl : Meets packetStep exactStep PacketCall.begin l) :
    ∃ c, run packetStep PacketCall.begin l = .ok c ∧
      (InOrder c.suit c.peer ∧ Compares codec c.suit c.peer c.out) ∧
      InOrder c.peer c.suit ∧ Compares codec c.peer c.suit c.back := by
  obtain ⟨pc, hrun, c, hsim, ⟨out, back, a, top, a', top', ho, hb, h1, h2⟩, hs, hp⟩ :=
    run_invariant (fun _ x h hx => h.step x hx) l PacketCall.begin delivers_begin hl
  obtain ⟨hsuit, hpeer, hout, hback⟩ := hsim
  refine ⟨pc, hrun, ?_⟩
  rw [hsuit, hpeer]
  exact ⟨⟨⟨h1.receiver.committed, hp⟩, h1.compares (by rw [ho]; exact hout)⟩,
    ⟨h2.receiver.committed, hs⟩, h2.compares (by rw [hb]; exact hback)⟩

/-- Arrays of zeros. -/
def clearArrays (spare : Nat) : CarriageArrays (.withSpare spare) where
  chEmdSecMsg := List.replicate 35 0
  frmBuf := List.replicate 50 0
  chRtrSecMsg := List.replicate 35 0
  emd_size := List.length_replicate
  buf_size := List.length_replicate
  rtr_size := List.length_replicate

/-- An iLBC frame of 20 ms that hides the message. -/
def hiAudio : List UInt8 :=
  [0, 0, 10] ++ List.replicate 11 0 ++ [16, 5, 16, 64] ++ List.replicate 20 0

/-- A message is hidden and retrieved. The first packet that acknowledges it is lost, the second one
is not, and with the next packet the sender releases its slot. -/
def messageRun : List (Bool × PacketAction .ilbc20 1) :=
  [(true, .send [72, 105] 1),
   (true, .embedding (clearArrays 1) hiAudio (by decide) fun _ => 0),
   (false, .retriving (clearArrays 1) 0),
   (false, .embedding (clearArrays 1) (List.replicate 38 0) (by decide) fun _ => 0),
   (false, .lose 0),
   (false, .embedding (clearArrays 1) (List.replicate 38 0) (by decide) fun _ => 0),
   (true, .retriving (clearArrays 1) 0),
   (true, .embedding (clearArrays 1) (List.replicate 38 0) (by decide) fun _ => 0)]

theorem call_run_in_order_message :
    ∃ c, run packetStep .begin messageRun = .ok c ∧ c.peer.committed = [(1, [72, 105])] ∧
      (c.suit.window 1).length = 0 ∧
      (InOrder c.suit c.peer ∧ Compares .ilbc20 c.suit c.peer c.out) ∧
      InOrder c.peer c.suit ∧ Compares .ilbc20 c.peer c.suit c.back := by
  have h : checkRun packetStep (fun c x => decide (exactStep c x))
      (fun c => c.peer.committed == [(1, [72, 105])] && (c.suit.window 1).length == 0) .begin
      messageRun = true := by
    decide +kernel
  rcases checkRun_sound _ _ _ _ _ h with ⟨hm, c, hc, hp⟩
  rcases call_run_in_order .ilbc20 1 messageRun (by simpa using hm) with ⟨c', hc', h'⟩
  rw [hc] at hc'
  cases hc'
  simp only [Bool.and_eq_true, beq_iff_eq] at hp
  exact ⟨c, hc, hp.1, hp.2, h'⟩

/-- A message in G.711: the sender leaves `m_Crt.Frame`, and if there is memory behind it, the
receiver leaves `m_chRtrSecMsg`. -/
def letterRun (spare : Nat) : List (Bool × PacketAction .pcmaSmall spare) :=
  [(true, .send [65] 1),
   (true, .embedding (clearArrays spare) (List.replicate 40 0) List.length_replicate fun _ => 0),
   (false, .retriving (clearArrays spare) 0)]

theorem message_outside :
    run packetStep .begin ((letterRun 0).take 2) = .error .outOfBounds ∧
      (∃ c, run packetStep .begin ((letterRun 64).take 2) = .ok c ∧
        c.suit.taken = [(1, [65])]) ∧
      run packetStep .begin (letterRun 64) = .error .outOfBounds :=
  ⟨by rfl, ⟨_, rfl, rfl⟩, by rfl⟩

end Steg
