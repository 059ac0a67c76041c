import PjProject.Library.Run
import PjProject.Steg.Suit

set_option autoImplicit false

/-! # Runs of the receiving side

`Reception.Safe` holds in every state that a receiver reaches by packets, `Receive` and `Configure`, as
long as the frames that it accepts have one of the two types that there are buffers for
(`receiver_run_safe`). The type is never looked at before it is used as an index of `RC`, so a frame
of another type makes `STMR` leave the array when its turn comes (`deliver_unknown`).
-/

namespace Steg

open Buffer MachineInt Machine Outcome

/-! ## Invariants -/

/-- What a receive buffer looks like. -/
structure SIABuffer.Sound (size : Nat) (buf : SIABuffer) : Prop where
  storage : buf.storage.length = size
  cursor : buf.cursor = buf.length
  length : buf.length ≤ size

/-- There is a buffer for the type of a frame. -/
def KnownType (f : Frame) : Prop := getTypeFromCursor f = 1 ∨ getTypeFromCursor f = 2

/-- What a frame looks like that is waiting in the cache. -/
structure Frame.Sound (saedu : Nat) (f : Frame) : Prop where
  data : f.data.length = saedu
  length : getLenFromCursor f ≤ saedu
  type : KnownType f

/-- The buffers and the cache of a receiver. -/
structure Reception.Sound (saedu : Nat) (r : Reception) : Prop where
  buffers : ∀ i < 2, (r.rc i).Sound (siadu saedu)
  cached : ∀ i < 8, (r.cache i).length ≠ 0 → (r.cache i).frame.Sound saedu

/-- Between two packets, the frame that is next in order has not arrived. -/
structure Reception.Safe (saedu : Nat) (r : Reception) : Prop where
  sound : r.Sound saedu
  next : (r.cache ((r.lastRSEQ + 1) % 8)).length = 0

section

variable {codec : Codec} {r : Reception} {f : Frame} {buf : SIABuffer} {size : Nat}

theorem siadu_bounds (codec : Codec) :
    codec.saedu ≤ siadu codec.saedu ∧ 520 ≤ siadu codec.saedu ∧ siadu codec.saedu ≤ 1952 := by
  cases codec with
  | _ => decide

theorem cleared_sound (size : Nat) : (SIABuffer.cleared size).Sound size :=
  ⟨List.length_replicate, rfl, Nat.zero_le size⟩

theorem create_safe (codec : Codec) : (Reception.create codec.saedu).Safe codec.saedu :=
  ⟨⟨fun _ _ => cleared_sound _, fun _ _ hne => absurd rfl hne⟩, rfl⟩

/-- A buffer is replaced. -/
theorem Reception.Sound.update (h : r.Sound codec.saedu) (i : Nat)
    (hbuf : buf.Sound (siadu codec.saedu)) :
    Reception.Sound codec.saedu { r with rc := Function.update r.rc i buf } := by
  refine ⟨fun j hj => ?_, h.cached⟩
  by_cases hij : j = i
  · subst hij
    simpa using hbuf
  · simpa [hij] using h.buffers j hj

/-! ## Delivery -/

theorem rcIndex_known (h : KnownType f) :
    ∃ i < 2, rcIndex (getTypeFromCursor f) = .ok i := by
  rcases h with h | h
  · rw [h]
    exact ⟨0, by omega, by decide +kernel⟩
  · rw [h]
    exact ⟨1, by omega, by decide +kernel⟩

theorem getTypeFromCursor_lt (f : Frame) : getTypeFromCursor f < 4 := Nat.mod_lt _ (by omega)

theorem rcIndex_unknown (h : ¬ KnownType f) : rcIndex (getTypeFromCursor f) = .error .outOfBounds := by
  have hlt := getTypeFromCursor_lt f
  unfold KnownType at h
  generalize getTypeFromCursor f = t at h hlt
  have ht : t = 0 ∨ t = 3 := by omega
  rcases ht with rfl | rfl
  · decide +kernel
  · decide +kernel

/-- A payload is appended inside the storage. -/
theorem append_sound (h : buf.Sound size) {data : List UInt8} (hlen : buf.length + data.length ≤ size) :
    ∃ storage, writeAt MemFault.outOfBounds buf.storage buf.cursor data = .ok storage ∧
      SIABuffer.Sound size ⟨storage, buf.length + data.length, buf.cursor + data.length⟩ := by
  have hfits : data = [] ∨ buf.cursor + data.length ≤ buf.storage.length := by
    right
    rw [h.storage, h.cursor]
    exact hlen
  refine ⟨_, if_pos hfits, ?_, ?_, hlen⟩
  · rw [length_write hfits]
    exact h.storage
  · simp [h.cursor]

/-- The payload of a sound frame is delivered. -/
theorem deliver_sound (h : r.Sound codec.saedu) (hf : f.Sound codec.saedu) :
    ∃ r', r.deliver codec.saedu f = .ok r' ∧ r'.Sound codec.saedu ∧ r'.cache = r.cache ∧
      r'.lastRSEQ = r.lastRSEQ := by
  have hsize := siadu_bounds codec
  have hlen := hf.length
  rcases rcIndex_known hf.type with ⟨i, hi, hindex⟩
  have hroom : uint32 ((siadu codec.saedu : Int) - getLenFromCursor f) =
      siadu codec.saedu - getLenFromCursor f := by
    have hnat := uint32_natCast (n := siadu codec.saedu - getLenFromCursor f) (by omega)
    rw [← hnat]
    congr 1
    omega
  have hdata : bytesAt MemFault.outOfBounds f.data 0 (getLenFromCursor f) =
      .ok (f.data.take (getLenFromCursor f)) := by
    refine if_pos (.inr ?_)
    rw [hf.data]
    omega
  have htake : (f.data.take (getLenFromCursor f)).length = getLenFromCursor f := by
    rw [List.length_take, hf.data]
    omega
  -- the buffer that is appended to, emptied if it is full
  have hbuf : ∀ b : SIABuffer, b.Sound (siadu codec.saedu) →
      ∃ buf : SIABuffer, buf = (if b.length > siadu codec.saedu - getLenFromCursor f then
        .cleared (siadu codec.saedu) else b) ∧ buf.Sound (siadu codec.saedu) ∧
          buf.length + getLenFromCursor f ≤ siadu codec.saedu := by
    intro b hb
    by_cases hfull : b.length > siadu codec.saedu - getLenFromCursor f
    · refine ⟨.cleared (siadu codec.saedu), (if_pos hfull).symm, cleared_sound _, ?_⟩
      simp only [SIABuffer.cleared]
      omega
    · exact ⟨b, (if_neg hfull).symm, hb, by omega⟩
  rcases hbuf (r.rc i) (h.buffers i hi) with ⟨buf, hbuf, hsound, hfits⟩
  rw [← htake] at hfits
  rcases append_sound hsound hfits with ⟨storage, hwrite, hnew⟩
  rw [htake] at hnew
  refine ⟨_, ?_, h.update i hnew, rfl, rfl⟩
  simp only [Reception.deliver, hindex, ok_bind, hroom, hdata, ← hbuf, hwrite]
  rfl

/-- A frame without a buffer. -/
theorem deliver_unknown (h : ¬ KnownType f) : r.deliver codec.saedu f = .error .outOfBounds := by
  simp only [Reception.deliver, rcIndex_unknown h]
  rfl

/-! ## The loop -/

/-- The slots with a frame. -/
def Reception.occupied (r : Reception) : Finset Nat :=
  (Finset.range 8).filter fun i => (r.cache i).length ≠ 0

theorem occupied_take (slot : Nat) (r' : Reception)
    (hcache : r'.cache = Function.update r.cache slot { r.cache slot with length := 0 }) :
    r'.occupied = r.occupied.erase slot := by
  ext i
  by_cases hi : i = slot
  · subst hi
    simp [Reception.occupied, hcache]
  · simp [Reception.occupied, hcache, hi]

theorem occupied_le (r : Reception) : r.occupied.card ≤ 8 := by
  calc r.occupied.card ≤ (Finset.range 8).card := Finset.card_filter_le _ _
    _ = 8 := Finset.card_range 8

/-- A frame is taken out of its slot. -/
theorem Reception.Sound.take (h : r.Sound codec.saedu) (slot seq : Nat) :
    Reception.Sound codec.saedu
      { r with cache := Function.update r.cache slot { r.cache slot with length := 0 }
               lastRSEQ := seq } := by
  refine ⟨h.buffers, fun i hi hne => ?_⟩
  by_cases hslot : i = slot
  · subst hslot
    simp at hne
  · simp only [Function.update_of_ne hslot] at hne ⊢
    exact h.cached i hi hne

/-- The loop ends when the next frame is missing. -/
theorem deliverLoop_safe (fuel : Nat) : ∀ r : Reception, r.Sound codec.saedu →
    r.occupied.card < fuel →
    ∃ r', r.deliverLoop codec.saedu fuel = .ok r' ∧ r'.Safe codec.saedu := by
  induction fuel with
  | zero =>
      intro r _ hlt
      omega
  | succ fuel ih =>
      intro r h hlt
      unfold Reception.deliverLoop
      dsimp only
      split
      · rename_i hne
        have hslot : (r.lastRSEQ + 1) % 8 < 8 := Nat.mod_lt _ (by omega)
        have hframe := h.cached _ hslot hne
        have htaken := h.take ((r.lastRSEQ + 1) % 8)
          (getSeqFromCursor (r.cache ((r.lastRSEQ + 1) % 8)).frame)
        have hmem : (r.lastRSEQ + 1) % 8 ∈ r.occupied := by
          simp [Reception.occupied, hslot, hne]
        have hcard := Finset.card_erase_lt_of_mem hmem
        split
        · rcases deliver_sound htaken hframe with ⟨r', hdeliver, hsound, hcache, -⟩
          rw [hdeliver, ok_bind]
          have hless : r'.occupied.card < fuel := by
            rw [occupied_take _ r' hcache]
            omega
          exact ih r' hsound hless
        · rw [ok_bind]
          refine ih _ htaken ?_
          rw [occupied_take ((r.lastRSEQ + 1) % 8) _ rfl]
          omega
      · rename_i hempty
        exact ⟨r, rfl, h, not_not.mp hempty⟩

/-- Nothing happens when the next frame is missing already. -/
theorem deliverLoop_idle (h : (r.cache ((r.lastRSEQ + 1) % 8)).length = 0) (saedu fuel : Nat) :
    r.deliverLoop saedu (fuel + 1) = .ok r := by
  unfold Reception.deliverLoop
  dsimp only
  rw [if_neg (not_not.mpr h)]

/-! ## A packet -/

/-- `STMR` takes the frame into its cache. -/
def Reception.admits (r : Reception) (f : Frame) : Bool :=
  getLenFromCursor f != 0 && carriesSync f && parityMatches f && between (getSeqFromCursor f) r.lastRSEQ

/-- What `saer` gives is a frame that a packet can carry. -/
theorem saer_frame {hdr : RtpHeader} {secMsg : Nat → UInt8} {saedu : Nat}
    (h : saer saedu hdr secMsg = some f) : f.data.length = saedu ∧ getLenFromCursor f ≤ saedu := by
  unfold saer at h
  dsimp only at h
  split at h
  · split at h
    · cases h
    · rename_i hle
      cases h
      exact ⟨by simp, Nat.le_of_not_gt hle⟩
  · rename_i hzero
    cases h
    exact ⟨by simp, by omega⟩

/-- What the first half of `STMR` does. -/
theorem accept_cases (r : Reception) (hdata : f.data.length = codec.saedu)
    (hlen : getLenFromCursor f ≤ codec.saedu) :
    (∃ r', r.accept f = .ok (some r') ∧ r'.rc = r.rc ∧ r'.cache = r.cache ∧
        r'.lastRSEQ = r.lastRSEQ ∧ r.admits f = false) ∨
      (r.accept f = .ok none ∧ r.admits f = false) ∨
      (r.admits f = true ∧ ∃ r', r.accept f = .ok (some r') ∧ r'.rc = r.rc ∧
        r'.lastRSEQ = r.lastRSEQ ∧ r'.cache = Function.update r.cache (getSeqFromCursor f % 8)
          { r.cache (getSeqFromCursor f % 8) with frame := f, length := 1 }) := by
  have hread : bytesAt MemFault.outOfBounds f.data 0 (getLenFromCursor f) =
      .ok (f.data.take (getLenFromCursor f)) := by
    refine if_pos (.inr ?_)
    rw [hdata]
    omega
  unfold Reception.accept Reception.admits
  by_cases hsync : carriesSync f = true
  · rw [if_pos hsync]
    by_cases hzero : getLenFromCursor f = 0
    · left
      exact ⟨_, if_pos hzero, rfl, rfl, rfl, by simp [hzero]⟩
    · rw [if_neg hzero, hread, ok_bind]
      by_cases hparity : parityMatches f = true
      · rw [if_pos hparity]
        by_cases hbetween : between (getSeqFromCursor f) r.lastRSEQ = true
        · right
          right
          exact ⟨by simp [hzero, hsync, hparity, hbetween], _, if_pos hbetween, rfl, rfl, rfl⟩
        · left
          exact ⟨r, if_neg hbetween, rfl, rfl, rfl, by simp [hbetween]⟩
      · right
        left
        rw [if_neg hparity]
        exact ⟨rfl, by simp [hparity]⟩
  · left
    refine ⟨r, if_neg hsync, rfl, rfl, rfl, by simp [hsync]⟩

/-- If the frame is taken, then there is a buffer for it. -/
def FrameKnown (r : Reception) (f : Frame) : Prop := r.admits f = true → KnownType f

/-- What a packet may do to a receiver. -/
structure PacketSafe (saedu : Nat) (r r' : Reception) (f : Frame) : Prop where
  bounded : ∀ i < 2, (r'.rc i).length ≤ siadu saedu
  unchanged : ¬ (carriesSync f = true ∧ parityMatches f = true) →
    r'.lastRSEQ = r.lastRSEQ ∧ r'.cache = r.cache ∧ r'.rc = r.rc

/-- `STMR` from a safe state. -/
theorem stmr_safe (h : r.Safe codec.saedu) (hdata : f.data.length = codec.saedu)
    (hlen : getLenFromCursor f ≤ codec.saedu) (hknown : FrameKnown r f) :
    ∃ r', r.stmr codec.saedu f = .ok r' ∧ r'.Safe codec.saedu ∧
      PacketSafe codec.saedu r r' f := by
  have hbound : ∀ r' : Reception, r'.Safe codec.saedu →
      ∀ i < 2, (r'.rc i).length ≤ siadu codec.saedu :=
    fun r' h' i hi => (h'.sound.buffers i hi).length
  unfold Reception.stmr
  rcases accept_cases r hdata hlen with ⟨r', haccept, hrc, hcache, hseq, -⟩ | ⟨haccept, -⟩ |
    ⟨hadmits, r', haccept, hrc, hseq, hcache⟩
  · have hsafe : r'.Safe codec.saedu := by
      refine ⟨⟨by rw [hrc]; exact h.sound.buffers, by rw [hcache]; exact h.sound.cached⟩, ?_⟩
      rw [hcache, hseq]
      exact h.next
    refine ⟨r', ?_, hsafe, hbound r' hsafe, fun _ => ⟨hseq, hcache, hrc⟩⟩
    rw [haccept, ok_bind]
    exact deliverLoop_idle hsafe.next codec.saedu 8
  · refine ⟨r, ?_, h, hbound r h, fun _ => ⟨rfl, rfl, rfl⟩⟩
    rw [haccept]
    rfl
  · have hsound : r'.Sound codec.saedu := by
      refine ⟨by rw [hrc]; exact h.sound.buffers, fun i hi hne => ?_⟩
      rw [hcache] at hne ⊢
      by_cases hslot : i = getSeqFromCursor f % 8
      · subst hslot
        simpa using ⟨hdata, hlen, hknown hadmits⟩
      · simp only [Function.update_of_ne hslot] at hne ⊢
        exact h.sound.cached i hi hne
    have hcard := occupied_le r'
    rcases deliverLoop_safe 9 r' hsound (by omega) with ⟨r'', hloop, hsafe⟩
    refine ⟨r'', ?_, hsafe, hbound r'' hsafe, fun hnot => ?_⟩
    · rw [haccept, ok_bind]
      exact hloop
    · unfold Reception.admits at hadmits
      simp only [Bool.and_eq_true] at hadmits
      exact absurd ⟨hadmits.1.1.2, hadmits.1.2⟩ hnot

/-- A frame that is next in order and of another type takes `STMR` out of the array. -/
theorem stmr_unknown (hdata : f.data.length = codec.saedu) (hlen : getLenFromCursor f ≤ codec.saedu)
    (hadmits : r.admits f = true) (hnext : getSeqFromCursor f = (r.lastRSEQ + 1) % 16)
    (hunknown : ¬ KnownType f) : r.stmr codec.saedu f = .error .outOfBounds := by
  rcases accept_cases r hdata hlen with ⟨-, -, -, -, -, hnot⟩ | ⟨-, hnot⟩ |
    ⟨-, r', haccept, -, hseq, hcache⟩
  · rw [hadmits] at hnot
    cases hnot
  · rw [hadmits] at hnot
    cases hnot
  · have hslot : (r'.lastRSEQ + 1) % 8 = getSeqFromCursor f % 8 := by
      rw [hseq, hnext]
      omega
    have hframe : (r'.cache ((r'.lastRSEQ + 1) % 8)).frame = f ∧
        (r'.cache ((r'.lastRSEQ + 1) % 8)).length = 1 := by
      rw [hslot, hcache]
      simp
    have hzero : getLenFromCursor f ≠ 0 := by
      unfold Reception.admits at hadmits
      simp only [Bool.and_eq_true, bne_iff_ne] at hadmits
      exact hadmits.1.1.1
    unfold Reception.stmr
    rw [haccept, ok_bind]
    dsimp only
    unfold Reception.deliverLoop
    dsimp only
    rw [if_pos (by rw [hframe.2]; decide), hframe.1, if_pos hzero, deliver_unknown hunknown]
    rfl

/-! ## Other operations -/

/-- Any fault may end an operation of the application. -/
def AnyFault (_ : MemFault) : Prop := True

theorem access_holds {α : Type} {c : Prop} [Decidable c] (a : α) :
    Holds (fun b => c ∧ b = a) AnyFault (access MemFault.outOfBounds c a) :=
  Holds.ite (fun hc => ⟨hc, rfl⟩) fun _ => trivial

/-- A change of the buffers keeps what is said about the cache. -/
theorem Reception.Safe.update (h : r.Safe codec.saedu) (i : Nat)
    (hbuf : buf.Sound (siadu codec.saedu)) :
    Reception.Safe codec.saedu { r with rc := Function.update r.rc i buf } :=
  ⟨h.sound.update i hbuf, h.next⟩

theorem dropFront_sound (h : buf.Sound size) (n room : Nat) :
    Holds (SIABuffer.Sound size) AnyFault (buf.dropFront n room) := by
  unfold SIABuffer.dropFront
  dsimp only
  generalize uint32 ((buf.length : Int) - n) = length
  apply Holds.bind (access_holds _)
  rintro swap ⟨hread, rfl⟩
  apply Holds.bind (access_holds _)
  rintro swap ⟨-, rfl⟩
  apply Holds.bind (access_holds _)
  rintro storage ⟨hwrite, rfl⟩
  refine Holds.pure ⟨?_, rfl, ?_⟩
  · rw [length_write hwrite]
    exact h.storage
  · have hstorage := h.storage
    simp only
    omega

theorem receiveData_safe (h : r.Safe codec.saedu) (maxlength : Int) :
    Holds (fun x => x.receiver.Safe codec.saedu) AnyFault (r.receiveData codec.saedu maxlength) := by
  unfold Reception.receiveData
  refine Holds.ite (fun _ => ?_) fun _ => h
  apply Holds.bind (access_holds _)
  intro dst _
  exact Holds.pure (h.update 1 (cleared_sound _))

theorem receiveName_safe (h : r.Safe codec.saedu) :
    Holds (fun x => x.receiver.Safe codec.saedu) AnyFault (r.receiveName codec.saedu) := by
  unfold Reception.receiveName
  apply Holds.bind (Q := fun _ => True)
  · cases nameScan (r.rc 1).storage (r.rc 1).length 0 with
    | error e => trivial
    | ok p => trivial
  rintro ⟨stop, start⟩ -
  cases start with
  | some start =>
      apply Holds.bind (access_holds _)
      intro dst _
      apply Holds.bind (dropFront_sound (h.sound.buffers 1 (by omega)) _ _)
      intro buf hbuf
      exact Holds.pure (h.update 1 hbuf)
  | none =>
      refine Holds.ite (fun _ => ?_) fun _ => receiveData_safe h _
      exact Holds.pure (h.update 1 (cleared_sound _))

theorem receive_safe (h : r.Safe codec.saedu) (maxlength type : Int) :
    Holds (fun x => x.receiver.Safe codec.saedu) AnyFault
      (r.receive codec.saedu maxlength type) := by
  unfold Reception.receive
  refine Holds.ite (fun _ => ?_) fun _ => Holds.ite (fun _ => ?_) fun _ => h
  · unfold Reception.receiveMessage
    dsimp only
    split
    · exact h.update 0 (cleared_sound _)
    · exact h
  · refine Holds.ite (fun _ => receiveName_safe h) fun _ => Holds.ite (fun _ => ?_) fun _ =>
      receiveData_safe h _
    apply Holds.bind (access_holds _)
    intro dst _
    apply Holds.bind (dropFront_sound (h.sound.buffers 1 (by omega)) _ _)
    intro buf hbuf
    exact Holds.pure (h.update 1 hbuf)

theorem configure_safe (h : r.Safe codec.saedu) : (r.configure codec.saedu).Safe codec.saedu :=
  ⟨⟨(h.sound.update 1 (cleared_sound _)).buffers, fun _ _ hne => absurd rfl hne⟩, rfl⟩

end

/-! ## Runs -/

/-- What can happen to a receiver. -/
inductive ReceiverOp where
  | retriving (hdr : RtpHeader) (secMsg : Nat → UInt8)
  | receive (maxlength type : Int)
  | configure

/-- An operation. -/
def receiverStep (codec : Codec) (r : Reception) : ReceiverOp → Except MemFault Reception
  | .retriving hdr secMsg => r.retriving codec.saedu hdr secMsg
  | .receive maxlength type => do
      let x ← r.receive codec.saedu maxlength type
      return x.receiver
  | .configure => .ok (r.configure codec.saedu)

/-- A packet whose frame is taken has a frame of a known type. -/
def packetKnown (codec : Codec) (r : Reception) : ReceiverOp → Prop
  | .retriving hdr secMsg => ∀ f, saer codec.saedu hdr secMsg = some f → FrameKnown r f
  | _ => True

/-- What the reception of a packet should do: no access is outside an array, the buffers stay
within their sizes, and a packet that is not a frame with the right parity changes nothing. -/
def receptionSafe (codec : Codec) (r : Reception) : ReceiverOp → Prop
  | .retriving hdr secMsg =>
      ∃ r', r.retriving codec.saedu hdr secMsg = .ok r' ∧
        (∀ i < 2, (r'.rc i).length ≤ siadu codec.saedu) ∧
        (¬ (r'.lastRSEQ = r.lastRSEQ ∧ r'.cache = r.cache ∧ r'.rc = r.rc) →
          ∃ f, saer codec.saedu hdr secMsg = some f ∧ carriesSync f = true ∧ parityMatches f = true)
  | _ => True

section

variable {codec : Codec} {r : Reception}

/-- A packet whose frame is not taken, or is of a known type. -/
theorem retriving_safe (h : r.Safe codec.saedu) (hdr : RtpHeader) (secMsg : Nat → UInt8)
    (hknown : packetKnown codec r (.retriving hdr secMsg)) :
    receptionSafe codec r (.retriving hdr secMsg) ∧
      ∀ r', r.retriving codec.saedu hdr secMsg = .ok r' → r'.Safe codec.saedu := by
  cases hframe : saer codec.saedu hdr secMsg with
  | none =>
      have hsame : r.retriving codec.saedu hdr secMsg = .ok r := by
        simp only [Reception.retriving, hframe]
      refine ⟨⟨r, hsame, fun i hi => (h.sound.buffers i hi).length, ?_⟩, ?_⟩
      · intro hchanged
        exact absurd ⟨rfl, rfl, rfl⟩ hchanged
      · intro r' hr'
        rw [hsame] at hr'
        cases hr'
        exact h
  | some f =>
      rcases saer_frame hframe with ⟨hdata, hlen⟩
      rcases stmr_safe h hdata hlen (hknown f hframe) with ⟨r', hstmr, hsafe, hpacket⟩
      have hsame : r.retriving codec.saedu hdr secMsg = .ok r' := by
        simp only [Reception.retriving, hframe]
        exact hstmr
      refine ⟨⟨r', hsame, hpacket.bounded, ?_⟩, ?_⟩
      · intro hchanged
        by_contra hnot
        apply hchanged
        apply hpacket.unchanged
        rintro ⟨hsync, hparity⟩
        exact hnot ⟨f, hframe, hsync, hparity⟩
      · intro r'' hr''
        rw [hsame] at hr''
        cases hr''
        exact hsafe

/-- One step from a safe state. -/
theorem receiverStep_safe (h : r.Safe codec.saedu) (op : ReceiverOp)
    (hknown : packetKnown codec r op) :
    receptionSafe codec r op ∧ ∀ r', receiverStep codec r op = .ok r' → r'.Safe codec.saedu := by
  cases op with
  | retriving hdr secMsg => exact retriving_safe h hdr secMsg hknown
  | receive maxlength type =>
      refine ⟨trivial, fun r' hr' => ?_⟩
      have hkept : Holds (Reception.Safe codec.saedu) AnyFault
          (receiverStep codec r (.receive maxlength type)) :=
        Holds.bind (receive_safe h maxlength type) fun _ hx => Holds.pure hx
      rw [hr'] at hkept
      exact hkept
  | configure =>
      refine ⟨trivial, fun r' hr' => ?_⟩
      cases hr'
      exact configure_safe h

/-- **Safe reception.** In a run whose packets have frames of the two known types, every packet is
received without an access outside an array of the receiver, the receive buffers stay within their
sizes, and only a frame with the right parity changes the sequence number, the cache or the buffers. The
arrays that the decoder gets the hidden bits from are not among them (see `carriage_outside`). -/
theorem receiver_run_safe (codec : Codec) (ops : List ReceiverOp)
    (hknown : Meets (receiverStep codec) (packetKnown codec) (.create codec.saedu) ops) :
    Meets (receiverStep codec) (receptionSafe codec) (.create codec.saedu) ops ∧
      Always (receiverStep codec) (fun r => ∀ i < 2, (r.rc i).length ≤ siadu codec.saedu)
        (.create codec.saedu) ops := by
  constructor
  · exact Meets.of_invariant (fun r op h hok => (receiverStep_safe h op hok).1)
      (fun r op r' h hok hr' => (receiverStep_safe h op hok).2 r' hr') ops _ (create_safe codec) hknown
  · exact always_of_meets (fun r h i hi => (h.sound.buffers i hi).length)
      (fun r op r' h hok hr' => (receiverStep_safe h op hok).2 r' hr') ops _ (create_safe codec) hknown

/-- The RTP header that carries the three bytes. -/
def headerOf (b0 b1 b2 : UInt8) : RtpHeader := fun i =>
  if i = 9 then b0 else if i = 10 then b1 else if i = 11 then b2 else 0

/-- A message of one byte arrives, and what has arrived is asked for. -/
theorem receiver_run_safe_message :
    Meets (receiverStep .g711) (receptionSafe .g711) (.create 122)
        [.retriving (headerOf 73 0 16) fun _ => 0, .receive 1952 1] ∧
      Always (receiverStep .g711) (fun r => ∀ i < 2, (r.rc i).length ≤ siadu 122) (.create 122)
        [.retriving (headerOf 73 0 16) fun _ => 0, .receive 1952 1] := by
  have hframe : saer 122 (headerOf 73 0 16) (fun _ => 0) =
      some ⟨73, 0, 16, List.replicate 122 0⟩ := by decide
  refine receiver_run_safe .g711 _ ⟨fun f hf _ => ?_, fun _ _ => ⟨trivial, fun _ _ => trivial⟩⟩
  rw [show Codec.saedu .g711 = 122 from rfl, hframe] at hf
  cases hf
  left
  rfl

/-- The operation has accessed memory outside an array. -/
def isOutside (x : Except MemFault Reception) : Bool :=
  match x with
  | .error .outOfBounds => true
  | _ => false

/-- The first frame is of the type 3. -/
theorem thirdType_outside :
    isOutside ((Reception.create 122).retriving 122 (headerOf 89 0 16) fun _ => 0) = true ∧
      ¬ Meets (receiverStep .g711) (receptionSafe .g711) (.create 122)
        [.retriving (headerOf 89 0 16) fun _ => 0] := by
  have hfault : isOutside ((Reception.create 122).retriving 122 (headerOf 89 0 16) fun _ => 0) =
      true := by
    decide +kernel
  refine ⟨hfault, ?_⟩
  rintro ⟨⟨r', hr', -⟩, -⟩
  have hr' : (Reception.create 122).retriving 122 (headerOf 89 0 16) (fun _ => 0) = .ok r' := hr'
  rw [hr'] at hfault
  cases hfault

end

end Steg
