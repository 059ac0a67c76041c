import PjProject.Jbuf.Jbuf
import PjProject.Jbuf.Put
import PjProject.Library.Run

set_option autoImplicit false

/-! # Whole runs of the jitter buffer

The jitter buffer keeps its frame list well formed over every run of calls in which two things do
not happen (`callAllowed`):

* a frame is put whose sequence number C's `int` cannot relate to the window: so near the ends
  of the `int` range, or so far ahead of the window, that a difference overflows;
* the progressive discard algorithm is switched on while a discard is scheduled and a frame
  after the reference number is flagged already.

The second happens when the static algorithm ran in between: it moves `jb_discard_ref` back to
the origin and leaves both the flags and `jb_discard_dist` as they are. The progressive algorithm
then schedules the same frame again and counts it twice (`discard_twice`).
-/

namespace Jbuf

open MachineInt Circular Machine

/-- The fields that decide what the frame list operations of a call are given. -/
def PjmediaJbuf.core (jb : PjmediaJbuf) :
    JbFramelist × Nat × Nat × Int × JbDiscardAlgo × Int × Nat :=
  (jb.jbFramelist, jb.jbMaxCount, jb.jbFramePtime, jb.jbMinShrinkGap, jb.jbDiscardAlgo,
    jb.jbDiscardRef, jb.jbDiscardDist)

/-- The invariant of the jitter buffer. While the progressive algorithm is on and has a discard
scheduled, every flagged frame is at or before the reference number. -/
structure JbufInv (M : Nat) (jb : PjmediaJbuf) : Prop where
  list : Sound M jb.jbFramelist
  maxCount : jb.jbMaxCount = M
  ptime_pos : 1 ≤ jb.jbFramePtime
  gap_pos : 1 ≤ jb.jbMinShrinkGap
  gap_le : jb.jbMinShrinkGap ≤ 200
  ref_ge : -2147483648 ≤ jb.jbDiscardRef
  ref_le : jb.jbDiscardRef ≤ topSeq + 1
  schedule : jb.jbDiscardAlgo = .progressive → jb.jbDiscardDist ≠ 0 →
    FlagsBelow jb.jbFramelist jb.jbDiscardRef

theorem JbufInv.of_core {M : Nat} {jb jb' : PjmediaJbuf} (h : JbufInv M jb)
    (hc : jb'.core = jb.core) : JbufInv M jb' := by
  simp only [PjmediaJbuf.core, Prod.mk.injEq] at hc
  obtain ⟨h1, h2, h3, h4, h5, h6, h7⟩ := hc
  constructor
  · rw [h1]; exact h.list
  · rw [h2]; exact h.maxCount
  · rw [h3]; exact h.ptime_pos
  · rw [h4]; exact h.gap_pos
  · rw [h4]; exact h.gap_le
  · rw [h6]; exact h.ref_ge
  · rw [h6]; exact h.ref_le
  · rw [h1, h5, h6, h7]; exact h.schedule

/-- Replacing the frame list by one the operations keep. -/
theorem JbufInv.of_kept {M : Nat} {jb jb' : PjmediaJbuf} (h : JbufInv M jb)
    (hk : Kept M jb.jbFramelist jb'.jbFramelist)
    (hc : jb'.core.2 = jb.core.2) : JbufInv M jb' := by
  simp only [PjmediaJbuf.core, Prod.mk.injEq] at hc
  obtain ⟨h2, h3, h4, h5, h6, h7⟩ := hc
  constructor
  · exact hk.sound
  · rw [h2]; exact h.maxCount
  · rw [h3]; exact h.ptime_pos
  · rw [h4]; exact h.gap_pos
  · rw [h4]; exact h.gap_le
  · rw [h6]; exact h.ref_ge
  · rw [h6]; exact h.ref_le
  · rw [h5, h6, h7]
    exact fun ha hd => hk.flags _ (h.schedule ha hd)

/-! ## The discard algorithms -/

theorem discardDuration_le (b : Nat) : discardDuration b ≤ 10000 := by
  unfold discardDuration jbufProDiscMinBurst jbufProDiscMaxBurst jbufProDiscT1 jbufProDiscT2
  split
  · omega
  · split <;> omega

theorem scheduledDist_range {M : Nat} {jb : PjmediaJbuf} (h : JbufInv M jb) (b o : Nat) :
    1 ≤ scheduledDist jb b o ∧ scheduledDist jb b o ≤ 10000 := by
  have h1 := h.gap_pos
  have h2 := h.gap_le
  have hT : discardDuration b / o / jb.jbFramePtime ≤ 10000 :=
    ((Nat.div_le_self _ _).trans (Nat.div_le_self _ _)).trans (discardDuration_le b)
  unfold scheduledDist
  generalize discardDuration b / o / jb.jbFramePtime = t at hT ⊢
  rw [int32_of_range (by omega) (by omega)]
  have := uint32_of_range (x := max jb.jbMinShrinkGap (t : Int)) (by omega) (by omega)
  omega

theorem lastSeq_eq {M : Nat} {fl : JbFramelist} (hs : Sound M fl) (h0 : fl.size ≠ 0) :
    lastSeq fl = fl.origin + fl.size - 1 := by
  have h1 := hs.origin_ge
  have h2 := hs.end_le
  unfold topSeq at h2
  unfold lastSeq jbFramelistOrigin jbFramelistSize
  exact int32_of_range (by omega) (by omega)

theorem flagsBelow_lastSeq {M : Nat} {fl : JbFramelist} (hs : Sound M fl) (h0 : fl.size ≠ 0) :
    FlagsBelow fl (lastSeq fl) := by
  intro i hi
  have hlt := (List.getElem?_eq_some_iff.mp hi).1
  rw [types_length] at hlt
  rw [lastSeq_eq hs h0]
  omega

/-- The reference number of the schedule is at most the last number, and no flagged frame is after
it. This is where the invariant's `schedule` is used. -/
theorem scheduledRef_spec {M : Nat} {jb : PjmediaJbuf} (h : JbufInv M jb)
    (ha : jb.jbDiscardAlgo = .progressive) (h0 : jb.jbFramelist.size ≠ 0) :
    -2147483648 ≤ scheduledRef jb ∧ scheduledRef jb ≤ lastSeq jb.jbFramelist ∧
      FlagsBelow jb.jbFramelist (scheduledRef jb) := by
  have hge := h.list.origin_ge
  have hl := lastSeq_eq h.list h0
  have hlast := flagsBelow_lastSeq h.list h0
  have hlo : -2147483648 ≤ lastSeq jb.jbFramelist := by omega
  unfold scheduledRef
  by_cases hd : jb.jbDiscardDist = 0
  · rw [if_pos hd]
    exact ⟨hlo, le_refl _, hlast⟩
  · rw [if_neg hd]
    by_cases hr : lastSeq jb.jbFramelist < jb.jbDiscardRef
    · rw [if_pos hr]
      exact ⟨hlo, le_refl _, hlast⟩
    · rw [if_neg hr]
      exact ⟨h.ref_ge, by omega, h.schedule ha hd⟩

theorem discardProgressive_inv {M : Nat} {jb : PjmediaJbuf} (h : JbufInv M jb)
    (ha : jb.jbDiscardAlgo = .progressive) : JbufInv M (jbufDiscardProgressive jb) := by
  unfold jbufDiscardProgressive
  split
  · exact h
  dsimp only
  split
  · exact { h with schedule := fun _ hne => absurd rfl hne }
  rename_i _ hcur
  have h0 : jb.jbFramelist.size ≠ 0 := by
    have := h.list.effSize
    omega
  obtain ⟨hrlo, hrhi, hrf⟩ := scheduledRef_spec h ha h0
  obtain ⟨hd1, hd2⟩ := scheduledDist_range h (uint32 (max jb.jbEffLevel jb.jbLevel))
    (jbFramelistEffSize jb.jbFramelist - uint32 (max jb.jbEffLevel jb.jbLevel))
  generalize scheduledDist jb _ _ = dist at hd1 hd2
  generalize scheduledRef jb = ref at hrlo hrhi hrf
  have hend := h.list.end_le
  have hge := h.list.origin_ge
  have hl := lastSeq_eq h.list h0
  have htop : topSeq = 2147473646 := rfl
  rw [int32_of_range (x := (dist : Int)) (by omega) (by omega),
    int32_of_range (x := ref + dist) (by omega) (by omega)]
  by_cases hnow : ref + (dist : Int) ≤ lastSeq jb.jbFramelist
  · -- the frame to discard is after the reference, so it is not flagged yet
    rw [if_pos hnow]
    unfold jbFramelistOrigin
    generalize hseq : (if ref + (dist : Int) < jb.jbFramelist.origin then jb.jbFramelist.origin
      else ref + (dist : Int)) = seq
    have hseq' : jb.jbFramelist.origin ≤ seq ∧ ref < seq ∧ seq ≤ lastSeq jb.jbFramelist := by
      subst hseq
      split <;> omega
    have hk := discard_kept h.list hseq'.1 (by omega) (fun i hi hflag => by
      have := hrf i hflag
      omega)
    exact
      { list := hk.1
        maxCount := h.maxCount
        ptime_pos := h.ptime_pos
        gap_pos := h.gap_pos
        gap_le := h.gap_le
        ref_ge := by show -2147483648 ≤ seq; omega
        ref_le := by show seq ≤ topSeq + 1; omega
        schedule := fun _ _ => hk.2 seq
          (fun i hi => (hrf i hi).trans (by omega)) (le_refl _) }
  · rw [if_neg hnow]
    exact
      { h with
        ref_ge := hrlo
        ref_le := by show ref ≤ topSeq + 1; omega
        schedule := fun _ _ => hrf }

theorem discardStatic_inv {M : Nat} {jb : PjmediaJbuf} (h : JbufInv M jb)
    (ha : jb.jbDiscardAlgo = .static) :
    ∃ jb', jbufDiscardStatic jb = .ok jb' ∧ JbufInv M jb' := by
  have hge := h.list.origin_ge
  have hend := h.list.end_le
  have hrge := h.ref_ge
  have hrle := h.ref_le
  have hns : jb.jbDiscardAlgo ≠ .progressive := by rw [ha]; simp
  unfold jbufDiscardStatic jbFramelistOrigin
  dsimp only
  generalize href : (if jb.jbFramelist.origin < jb.jbDiscardRef then jb.jbFramelist.origin
    else jb.jbDiscardRef) = ref
  have href' : -2147483648 ≤ ref ∧ ref ≤ topSeq + 1 := by
    subst href
    split <;> omega
  split
  · split
    · obtain ⟨fl', hr, _, hk⟩ := removeHead_kept h.list 1
      rw [hr]
      have hge' := hk.sound.origin_ge
      have hend' := hk.sound.end_le
      exact ⟨_, rfl,
        { list := hk.sound
          maxCount := h.maxCount
          ptime_pos := h.ptime_pos
          gap_pos := h.gap_pos
          gap_le := h.gap_le
          ref_ge := hge'
          ref_le := by show fl'.origin ≤ topSeq + 1; omega
          schedule := fun hp => absurd hp hns }⟩
    · exact ⟨_, rfl,
        { h with
          ref_ge := href'.1
          ref_le := href'.2
          schedule := fun hp => absurd hp hns }⟩
  · exact ⟨jb, rfl, h⟩

theorem callDiscardAlgo_inv {M : Nat} {jb : PjmediaJbuf} (h : JbufInv M jb) :
    ∃ jb', callDiscardAlgo jb = .ok jb' ∧ JbufInv M jb' := by
  unfold callDiscardAlgo
  split
  · rename_i _ _ _ ha
    exact ⟨_, rfl, discardProgressive_inv h ha⟩
  · rename_i _ _ _ ha
    exact discardStatic_inv h ha
  · exact ⟨jb, rfl, h⟩

theorem calculateJitter_core (jb : PjmediaJbuf) : (jbufCalculateJitter jb).core = jb.core := by
  unfold jbufCalculateJitter
  dsimp only
  split
  · split <;> rfl
  · split <;> rfl

theorem update_inv {M : Nat} {jb : PjmediaJbuf} (h : JbufInv M jb) (oper : JbOp) :
    ∃ jb', jbufUpdate jb oper = .ok jb' ∧ JbufInv M jb' := by
  unfold jbufUpdate
  split
  · exact callDiscardAlgo_inv h
  dsimp only
  split
  · split
    · refine callDiscardAlgo_inv (h.of_core ?_)
      exact (calculateJitter_core _).trans rfl
    · exact ⟨_, rfl, h.of_core rfl⟩
  · split
    · refine callDiscardAlgo_inv (h.of_core ?_)
      exact (calculateJitter_core _).trans rfl
    · exact callDiscardAlgo_inv (h.of_core rfl)

/-! ## Put, get and remove -/

/-- The frame's sequence number can be put: neither it nor its distance from a non-empty window
is so large that C's `int` overflows. -/
def seqInRange (jb : PjmediaJbuf) (frameSeq : Int) : Prop :=
  -2147483648 + (jb.jbMaxCount : Int) ≤ frameSeq ∧ frameSeq ≤ topSeq ∧
    (jb.jbFramelist.size ≠ 0 → frameSeq - jb.jbFramelist.origin ≤ 2147483647)

instance (jb : PjmediaJbuf) (frameSeq : Int) : Decidable (seqInRange jb frameSeq) :=
  inferInstanceAs (Decidable (_ ∧ _ ∧ (_ → _)))

/-- One removal makes room: the loop of `pjmedia_jbuf_put_frame3` ends at its second test. -/
theorem putLoop_ok {M fuel : Nat} {jb : PjmediaJbuf} {frameSeq : Int} (hmax : jb.jbMaxCount = M)
    (hlo : -2147483648 + (M : Int) ≤ frameSeq) (htop : frameSeq ≤ topSeq)
    (frame : List UInt8) (frameSize bitInfo ts : Nat) {fl : JbFramelist}
    {r : JbFramelist × Status} (hres : PutResult M fl frameSeq r) (removed : Nat)
    (hfuel : 2 ≤ fuel) :
    ∃ r', putLoop jb frame frameSize bitInfo frameSeq ts fuel r removed = .ok r' ∧
      Kept M fl r'.1 := by
  obtain ⟨f, rfl⟩ : ∃ f, fuel = f + 2 := ⟨fuel - 2, by omega⟩
  obtain ⟨fl1, status⟩ := r
  unfold putLoop
  by_cases hst : status = .etoomany
  · obtain ⟨hne, hfar, hnear⟩ := hres.tooMany hst
    -- The first put is refused, enough is removed, and the second fits.
    have hs := hres.kept.sound
    have hge := hs.origin_ge
    have hend := hs.end_le
    have hM := hs.bounded
    have hmc := hs.maxCount
    have hh := hs.inv.head_lt
    have hdrop : maxDropout = 3000 := rfl
    unfold topSeq at htop hend
    dsimp only at hne hfar hnear hs hge hend
    rw [if_pos hst]
    unfold jbFramelistOrigin
    rw [hmax, int32_of_range (x := frameSeq - fl1.origin) (by omega) (by omega),
      int32_of_range (x := (M : Int)) (by omega) (by omega),
      int32_of_range (x := frameSeq - fl1.origin - M) (by omega) (by omega),
      int32_of_range (by omega) (by omega), if_pos (by omega)]
    have hd : (uint32 (frameSeq - fl1.origin - M + 1) : Int) = frameSeq - fl1.origin - M + 1 :=
      uint32_of_range (by omega) (by omega)
    generalize uint32 (frameSeq - fl1.origin - M + 1) = n at hd
    obtain ⟨fl2, h2, hr2, hk2⟩ := removeHead_kept hs n
    have hmin1 : min n fl1.size ≤ n := Nat.min_le_left _ _
    have hmin2 : min n fl1.size ≤ fl1.size := Nat.min_le_right _ _
    have ho2 : fl2.origin = fl1.origin + (min n fl1.size : Nat) := by
      rw [hr2.origin]
      exact int32_of_range (by omega) (by omega)
    have hsz2 := hr2.size
    have hle2 : frameSeq - fl2.origin ≤ 2147483647 := by
      rw [ho2]
      generalize min n fl1.size = k at *
      omega
    obtain ⟨r3, h3, hres3, hfit⟩ := putAt_spec hk2.sound hlo (by unfold topSeq; omega)
      (fun _ => hle2) frame frameSize bitInfo ts
    have hne3 : r3.2 ≠ .etoomany := by
      apply hfit
      by_cases hall : fl1.size ≤ n
      · exact Or.inl (by omega)
      · rw [Nat.min_eq_left (by omega)] at ho2
        exact Or.inr ⟨by omega, by omega⟩
    simp only [h2, h3]
    obtain ⟨fl3, status3⟩ := r3
    unfold putLoop
    rw [if_neg hne3]
    exact ⟨_, rfl, (hres.kept.trans hk2).trans hres3.kept⟩
  · rw [if_neg hst]
    exact ⟨_, rfl, hres.kept⟩

theorem putFrame3_inv {M fuel : Nat} {jb : PjmediaJbuf} (h : JbufInv M jb) (hfuel : M < fuel)
    (frame : List UInt8) (bitInfo : Nat) {frameSeq : Int} (hseq : seqInRange jb frameSeq)
    (ts : Nat) :
    ∃ r, pjmediaJbufPutFrame3 fuel jb frame bitInfo frameSeq ts = .ok r ∧ JbufInv M r.1 := by
  have hM0 : 0 < M := by
    have := h.list.inv.head_lt
    have := h.list.maxCount
    omega
  obtain ⟨hlo, htop, hdist⟩ := hseq
  rw [h.maxCount] at hlo
  unfold pjmediaJbufPutFrame3
  dsimp only
  obtain ⟨r1, h1, hres1, _⟩ := putAt_spec h.list hlo htop hdist frame
    (min frame.length jb.jbFrameSize) bitInfo ts
  obtain ⟨⟨fl2, status, removed⟩, h2, hk2⟩ := putLoop_ok h.maxCount hlo htop frame
    (min frame.length jb.jbFrameSize) bitInfo ts hres1 0 (show 2 ≤ fuel by omega)
  simp only [h1, h2]
  split
  · have hput : JbufInv M { jb with
      jbFramelist := fl2
      jbDiscard := uint32 (jb.jbDiscard + removed : Nat)
      jbPrefetching := jb.jbPrefetching &&
        decide (int32 (jbFramelistEffSize fl2) < jb.jbPrefetch)
      jbLevel := int32 (jb.jbLevel +
        if int32 (jbFramelistEffSize jb.jbFramelist) < int32 (jbFramelistEffSize fl2)
        then int32 (int32 (jbFramelistEffSize fl2) - int32 (jbFramelistEffSize jb.jbFramelist))
        else 1) } :=
      h.of_kept hk2 rfl
    obtain ⟨jb', h3, hinv⟩ := update_inv hput .put
    simp only [h3]
    exact ⟨_, rfl, hinv⟩
  · exact ⟨_, rfl, h.of_kept hk2 rfl⟩

theorem getFrame_inv {M fuel : Nat} {jb : PjmediaJbuf} (h : JbufInv M jb) (hfuel : M < fuel) :
    ∃ r, getFrame fuel jb = .ok r ∧ JbufInv M r.1 := by
  unfold getFrame
  split
  · exact ⟨_, rfl, h.of_core rfl⟩
  · obtain ⟨⟨fl', out⟩, hr, hk⟩ := get_kept h.list hfuel
    rw [hr]
    cases out with
    | none => exact ⟨_, rfl, h.of_kept hk rfl⟩
    | some o =>
        dsimp only
        split
        · exact ⟨_, rfl, h.of_kept hk rfl⟩
        · exact ⟨_, rfl, h.of_kept hk rfl⟩

theorem getFrame3_inv {M fuel : Nat} {jb : PjmediaJbuf} (h : JbufInv M jb) (hfuel : M < fuel) :
    ∃ r, pjmediaJbufGetFrame3 fuel jb = .ok r ∧ JbufInv M r.1 := by
  obtain ⟨⟨jb1, type, out⟩, h1, hinv1⟩ := getFrame_inv h hfuel
  have hlevel : JbufInv M { jb1 with jbLevel := int32 (jb1.jbLevel + 1) } := hinv1.of_core rfl
  obtain ⟨jb2, h2, hinv2⟩ := update_inv hlevel .get
  unfold pjmediaJbufGetFrame3
  simp only [h1, h2]
  exact ⟨_, rfl, hinv2⟩

/-- The loop of `pjmedia_jbuf_remove_frame` ends: `discarded_num` falls with every iteration. -/
theorem removeMore_ok {M : Nat} :
    ∀ (fuel : Nat) (fl : JbFramelist) (last count : Nat), Sound M fl → last < fuel →
      ∃ r, removeMore fuel fl last count = .ok r ∧ Kept M fl r.1
  | 0, _, _, _, _, hf => by omega
  | fuel + 1, fl, last, count, hs, hf => by
      unfold removeMore
      by_cases hlt : fl.discardedNum < last
      · rw [if_pos hlt]
        obtain ⟨fl', h1, _, hk⟩ := removeHead_kept hs (last - fl.discardedNum)
        simp only [h1]
        obtain ⟨r, hr, hk'⟩ := removeMore_ok fuel fl' fl.discardedNum
          (uint32 ((count : Int) - (last - fl.discardedNum : Nat)
            + (min (last - fl.discardedNum) fl.size : Nat))) hk.sound (by omega)
        exact ⟨r, hr, hk.trans hk'⟩
      · rw [if_neg hlt]
        exact ⟨(fl, count), rfl, Kept.refl hs⟩

theorem removeFrame_inv {M fuel : Nat} {jb : PjmediaJbuf} (h : JbufInv M jb) (hfuel : M < fuel)
    (frameCnt : Nat) :
    ∃ r, pjmediaJbufRemoveFrame fuel jb frameCnt = .ok r ∧ JbufInv M r.1 := by
  have hd := h.list.inv.discarded_le
  have hle := h.list.inv.size_le
  have hmc := h.list.maxCount
  obtain ⟨fl1, h1, _, hk1⟩ := removeHead_kept h.list frameCnt
  obtain ⟨⟨fl2, count⟩, h2, hk2⟩ := removeMore_ok fuel fl1 jb.jbFramelist.discardedNum
    (min frameCnt jb.jbFramelist.size) hk1.sound (by omega)
  unfold pjmediaJbufRemoveFrame
  simp only [h1, h2]
  exact ⟨_, rfl, h.of_kept (hk1.trans hk2) rfl⟩

/-! ## Runs -/

theorem reset_sound {M : Nat} {fl : JbFramelist} (hM0 : 0 < M) (hM : M < 2147483648)
    (hmc : fl.maxCount = M) (hroom : fl.frameSize * M < 4294967296) : Sound M (jbFramelistReset fl) :=
  ⟨reset_inv _ (by omega), hmc, hM, hroom, show (-2147483648 : Int) ≤ invalidOffset by decide,
    show invalidOffset + ((0 : Nat) : Int) ≤ topSeq + 1 by decide⟩

theorem reset_jbufInv {M : Nat} {jb : PjmediaJbuf} (h : JbufInv M jb) :
    JbufInv M (pjmediaJbufReset jb) := by
  have h1 := h.list.inv.head_lt
  have h2 := h.list.maxCount
  exact { h with
    list := reset_sound (by omega) h.list.bounded h2 h.list.room
    schedule := fun _ hne => absurd rfl hne }

theorem create_inv {frameSize ptime maxCount : Nat} (hM0 : 1 ≤ maxCount)
    (hM : maxCount < 2147483648) (hroom : frameSize * maxCount < 4294967296) (hp : 1 ≤ ptime)
    (hp' : ptime ≤ 200) :
    JbufInv maxCount (pjmediaJbufCreate frameSize ptime maxCount) := by
  have hgap : 1 ≤ 200 / ptime ∧ 200 / ptime ≤ 200 :=
    ⟨(Nat.one_le_div_iff (by omega)).mpr hp', Nat.div_le_self _ _⟩
  have hg : (pjmediaJbufCreate frameSize ptime maxCount).jbMinShrinkGap
      = int32 (200 / ptime : Nat) := rfl
  rw [int32_of_range (by omega) (by omega)] at hg
  exact
    { list := reset_sound hM0 hM
        (show (jbFramelistInit frameSize maxCount).maxCount = maxCount from rfl) hroom
      maxCount := rfl
      ptime_pos := hp
      gap_pos := by rw [hg]; omega
      gap_le := by rw [hg]; omega
      ref_ge := show (-2147483648 : Int) ≤ 0 by decide
      ref_le := show (0 : Int) ≤ topSeq + 1 by decide
      schedule := fun _ hne => absurd rfl hne }

theorem setDiscard_inv {M : Nat} {jb : PjmediaJbuf} (h : JbufInv M jb) (algo : JbDiscardAlgo)
    (hs : algo = .progressive → jb.jbDiscardDist ≠ 0 →
      FlagsBelow jb.jbFramelist jb.jbDiscardRef) : JbufInv M (pjmediaJbufSetDiscard jb algo) :=
  ⟨h.list, h.maxCount, h.ptime_pos, h.gap_pos, h.gap_le, h.ref_ge, h.ref_le, hs⟩

theorem setFixed_inv {M : Nat} {jb : PjmediaJbuf} (h : JbufInv M jb) (prefetch : Nat) :
    JbufInv M (pjmediaJbufSetFixed jb prefetch).1 := by
  unfold pjmediaJbufSetFixed
  split
  · dsimp only
    apply setDiscard_inv
    · refine h.of_core ?_
      simp only [PjmediaJbuf.core]
    · intro hp
      cases hp
  · exact h

theorem setAdaptive_inv {M : Nat} {jb : PjmediaJbuf} (h : JbufInv M jb)
    (prefetch minPrefetch maxPrefetch : Nat) :
    JbufInv M (pjmediaJbufSetAdaptive jb prefetch minPrefetch maxPrefetch).1 := by
  unfold pjmediaJbufSetAdaptive
  split
  · dsimp only
    refine h.of_core ?_
    simp only [PjmediaJbuf.core]
  · exact h

/-- When a call keeps the jitter buffer well formed. A put needs a sequence number that `int` can
hold together with its distance from the window. Switching the progressive discard on needs that
no discard is scheduled, or that no flagged frame is after the reference number. -/
def callAllowed (jb : PjmediaJbuf) : JbufCall → Prop
  | .putFrame3 _ _ frameSeq _ => seqInRange jb frameSeq
  | .setDiscard .progressive =>
      jb.jbDiscardDist = 0 ∨ FlagsBelow jb.jbFramelist jb.jbDiscardRef
  | _ => True

instance (jb : PjmediaJbuf) : (call : JbufCall) → Decidable (callAllowed jb call)
  | .putFrame3 _ _ frameSeq _ => inferInstanceAs (Decidable (seqInRange jb frameSeq))
  | .setDiscard .progressive => inferInstanceAs (Decidable (_ ∨ _))
  | .setDiscard .static | .setDiscard .none | .getFrame3 | .peekFrame _ | .removeFrame _
  | .reset | .setFixed _ | .setAdaptive _ _ _ => inferInstanceAs (Decidable True)

theorem step_inv {M fuel : Nat} (hfuel : M < fuel) (jb : PjmediaJbuf) (call : JbufCall)
    (h : JbufInv M jb) (hok : callAllowed jb call) :
    ∃ jb', jbufStep fuel jb call = .ok jb' ∧ JbufInv M jb' := by
  cases call with
  | putFrame3 frame bitInfo frameSeq ts =>
      obtain ⟨r, hr, hinv⟩ := putFrame3_inv h hfuel frame bitInfo hok ts
      exact ⟨r.1, by simp only [jbufStep, hr]; rfl, hinv⟩
  | getFrame3 =>
      obtain ⟨r, hr, hinv⟩ := getFrame3_inv h hfuel
      exact ⟨r.1, by simp only [jbufStep, hr]; rfl, hinv⟩
  | peekFrame offset =>
      obtain ⟨r, hr⟩ := peek_ok h.list hfuel offset
      refine ⟨jb, ?_, h⟩
      cases r <;> simp only [jbufStep, pjmediaJbufPeekFrame, hr] <;> rfl
  | removeFrame frameCnt =>
      obtain ⟨r, hr, hinv⟩ := removeFrame_inv h hfuel frameCnt
      exact ⟨r.1, by simp only [jbufStep, hr]; rfl, hinv⟩
  | reset => exact ⟨_, rfl, reset_jbufInv h⟩
  | setFixed prefetch => exact ⟨_, rfl, setFixed_inv h prefetch⟩
  | setAdaptive prefetch minPrefetch maxPrefetch =>
      exact ⟨_, rfl, setAdaptive_inv h prefetch minPrefetch maxPrefetch⟩
  | setDiscard algo =>
      refine ⟨_, rfl, setDiscard_inv h algo (fun hp hne => ?_)⟩
      subst hp
      rcases hok with h0 | hf
      · exact absurd h0 hne
      · exact hf

/-- **The representation invariant holds over whole runs.** From creation, every run whose calls
are all allowed ends without a failed assertion or an access outside `content` and within the iterations
given to its loops, and leaves a well-formed frame list, of which no more frames are flagged than it holds. -/
theorem jbuf_run_inv {frameSize ptime maxCount fuel : Nat} (hM0 : 1 ≤ maxCount)
    (hM : maxCount < 2147483648) (hroom : frameSize * maxCount < 4294967296) (hp : 1 ≤ ptime)
    (hp' : ptime ≤ 200) (hfuel : maxCount < fuel) (calls : List JbufCall)
    (hok : Meets (jbufStep fuel) callAllowed (pjmediaJbufCreate frameSize ptime maxCount) calls) :
    ∃ jb, run (jbufStep fuel) (pjmediaJbufCreate frameSize ptime maxCount) calls = .ok jb ∧
      FramelistInv jb.jbFramelist ∧ jb.jbFramelist.maxCount = maxCount ∧
      jbFramelistEffSize jb.jbFramelist + jb.jbFramelist.discardedNum = jb.jbFramelist.size := by
  obtain ⟨jb, hrun, hinv⟩ := run_invariant (step_inv hfuel) calls _
    (create_inv hM0 hM hroom hp hp') hok
  refine ⟨jb, hrun, hinv.list.inv, hinv.list.maxCount, ?_⟩
  have := hinv.list.inv.discarded_le
  rw [hinv.list.effSize]
  omega

/-- `n` rounds of two puts and one get: the buffer fills by one frame a round. -/
def fillingRounds (n : Nat) : List JbufCall :=
  (List.range n).flatMap fun k =>
    [.putFrame3 [] 0 (2 * k) 0, .putFrame3 [] 0 (2 * k + 1) 0, .getFrame3]

/-- Seven rounds leave a scheduled discard and flagged frames. One get under the static algorithm
moves the reference back to the origin, and the progressive algorithm flags a frame again. -/
def doubleDiscard : List JbufCall :=
  .setAdaptive 0 0 0 :: fillingRounds 7 ++
    [.setDiscard .static, .getFrame3, .setDiscard .progressive,
      .putFrame3 [] 0 14 0, .putFrame3 [] 0 15 0]

/-- A run that stays with the static algorithm once it is on is allowed. -/
theorem jbuf_run_inv_fillingRounds :
    ∃ jb, run (jbufStep 21) (pjmediaJbufCreate 10 200 20)
        (fillingRounds 7 ++ [.setDiscard .static, .getFrame3, .peekFrame 1, .removeFrame 2])
          = .ok jb ∧
      FramelistInv jb.jbFramelist ∧ jb.jbFramelist.maxCount = 20 ∧
      jbFramelistEffSize jb.jbFramelist + jb.jbFramelist.discardedNum = jb.jbFramelist.size := by
  have hok := checkRun_sound (jbufStep 21)
    (fun jb call => decide (callAllowed jb call)) (fun _ => true)
    (fillingRounds 7 ++ [.setDiscard .static, .getFrame3, .peekFrame 1, .removeFrame 2])
    (pjmediaJbufCreate 10 200 20) (by decide +kernel)
  exact jbuf_run_inv (by decide) (by decide) (by decide) (by decide) (by decide) (by decide) _
    (Meets.mono (fun _ _ h => of_decide_eq_true h) _ _ hok.1)

/-- The same frame is discarded twice: `discarded_num` is more than the flagged slots. -/
theorem discard_twice :
    ∃ jb, run (jbufStep 21) (pjmediaJbufCreate 10 200 20) doubleDiscard = .ok jb ∧
      ¬ FramelistInv jb.jbFramelist := by
  obtain ⟨-, jb, hrun, hne⟩ := checkRun_sound (jbufStep 21) (fun _ _ => true)
    (fun jb =>
      decide (jb.jbFramelist.discardedNum ≠ jb.jbFramelist.types.count .discarded))
    doubleDiscard (pjmediaJbufCreate 10 200 20) (by decide +kernel)
  exact ⟨jb, hrun, fun hinv => of_decide_eq_true hne hinv.discarded_eq⟩

-- A jump of `2^31` overflows the distance: the window then claims more slots than there are.
example : checkRun (jbufStep 11) (fun _ _ => true) (fun jb => jb.jbFramelist.size = 2147483649)
    (pjmediaJbufCreate 10 20 10)
    [.putFrame3 [] 0 (-1) 0, .putFrame3 [] 0 2147483647 0] = true := by decide +kernel

-- The product of 65536 and 65537 wraps: `content` has bytes for one frame only.
example : (match run (jbufStep 65538) (pjmediaJbufCreate 65536 20 65537)
    [.putFrame3 [1] 0 0 0, .putFrame3 [1] 0 1 0] with
    | .error .outOfBounds => true
    | _ => false) = true := by decide +kernel

end Jbuf
