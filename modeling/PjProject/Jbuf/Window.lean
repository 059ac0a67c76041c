import PjProject.Jbuf.Framelist
import PjProject.Library.Circular

set_option autoImplicit false

/-! # What the frame list operations do to the window

`FramelistInv` is the representation invariant of the frame list. Over it, a frame list is the
list `types` of the frame types in its window, oldest first: removing drops from the front of
that list, discarding and putting write one entry. Each operation has one lemma that says this
and that the invariant is kept; the callers in `Jbuf/Runs.lean` use nothing else.
-/

namespace Jbuf

open MachineInt Circular

/-- The array position of the `i`-th frame of the window. -/
def JbFramelist.slot (fl : JbFramelist) (i : Nat) : Nat := (fl.head + i) % fl.maxCount

/-- The frame types in the window, oldest first. -/
def JbFramelist.types (fl : JbFramelist) : List JbFrameType :=
  window fl.frameType fl.maxCount fl.head fl.size

/-- **The representation invariant.** `head` is a slot, the window fits into the array,
`discarded_num` counts the flagged slots of the window, and every slot outside it is *missing*. -/
structure FramelistInv (fl : JbFramelist) : Prop where
  head_lt : fl.head < fl.maxCount
  size_le : fl.size ≤ fl.maxCount
  discarded_eq : fl.discardedNum = fl.types.count .discarded
  outside_missing : ∀ p, p < fl.maxCount → (∀ i, i < fl.size → p ≠ fl.slot i) →
    fl.frameType p = .missing

theorem types_length (fl : JbFramelist) : fl.types.length = fl.size := by
  simp [JbFramelist.types]

theorem types_getElem? (fl : JbFramelist) {i : Nat} (hi : i < fl.size) :
    fl.types[i]? = some (fl.frameType (fl.slot i)) :=
  window_getElem? _ _ _ _ hi

theorem FramelistInv.discarded_le {fl : JbFramelist} (inv : FramelistInv fl) :
    fl.discardedNum ≤ fl.size := by
  rw [inv.discarded_eq, ← types_length fl]
  exact List.count_le_length

/-- A slot is `head + i`, or that less the length of the array. -/
theorem slot_cases {fl : JbFramelist} {i : Nat} (hh : fl.head < fl.maxCount)
    (hi : i ≤ fl.maxCount) : (fl.head + i < fl.maxCount ∧ fl.slot i = fl.head + i) ∨
      (fl.maxCount ≤ fl.head + i ∧ fl.slot i + fl.maxCount = fl.head + i) := by
  unfold JbFramelist.slot
  rcases Nat.lt_or_ge (fl.head + i) fl.maxCount with h | h
  · exact Or.inl ⟨h, Nat.mod_eq_of_lt h⟩
  · right
    rw [Nat.mod_eq_sub_mod h, Nat.mod_eq_of_lt (by omega)]
    omega

/-- Every slot is in the window at some distance, or beyond it. -/
theorem exists_slot {fl : JbFramelist} (hh : fl.head < fl.maxCount) {p : Nat}
    (hp : p < fl.maxCount) : ∃ j, j < fl.maxCount ∧ p = fl.slot j := by
  by_cases h : fl.head ≤ p
  · refine ⟨p - fl.head, by omega, ?_⟩
    unfold JbFramelist.slot
    rw [show fl.head + (p - fl.head) = p by omega, Nat.mod_eq_of_lt hp]
  · refine ⟨p + fl.maxCount - fl.head, by omega, ?_⟩
    unfold JbFramelist.slot
    rw [show fl.head + (p + fl.maxCount - fl.head) = p + fl.maxCount by omega,
      Nat.add_mod_right, Nat.mod_eq_of_lt hp]

/-- A slot beyond the window is missing. -/
theorem FramelistInv.beyond {fl : JbFramelist} (inv : FramelistInv fl) {j : Nat}
    (hj : fl.size ≤ j) (hjm : j < fl.maxCount) : fl.frameType (fl.slot j) = .missing := by
  refine inv.outside_missing _ (Nat.mod_lt _ (by omega)) (fun i hi he => ?_)
  have := slot_inj (m := fl.maxCount) (h := fl.head) (by omega) (by have := inv.size_le; omega) he
  omega

/-! ## Reset -/

theorem reset_inv (fl : JbFramelist) (hm : 0 < fl.maxCount) :
    FramelistInv (jbFramelistReset fl) where
  head_lt := hm
  size_le := Nat.zero_le _
  discarded_eq := rfl
  outside_missing := by
    intro p hp _
    have hp' : p < fl.maxCount := hp
    simp [jbFramelistReset, fill, hp']

/-! ## The bytes of a slot -/

/-- Where all frames fit the 32-bit product, each slot has bytes of its own. -/
theorem offset_of_room {fl : JbFramelist} (hroom : fl.frameSize * fl.maxCount < 4294967296) {pos : Nat}
    (hpos : pos < fl.maxCount) : fl.offset pos = pos * fl.frameSize := by
  have hle : fl.frameSize * pos ≤ fl.frameSize * fl.maxCount := Nat.mul_le_mul_left _ hpos.le
  unfold JbFramelist.offset
  rw [uint32_natCast (by rw [Nat.mul_comm]; omega)]

theorem inContent_of_room {fl : JbFramelist} (hroom : fl.frameSize * fl.maxCount < 4294967296)
    {pos n : Nat} (hpos : pos < fl.maxCount) (hn : n ≤ fl.frameSize) : fl.inContent pos n = true := by
  have hle : fl.frameSize * (pos + 1) ≤ fl.frameSize * fl.maxCount := Nat.mul_le_mul_left _ hpos
  have hsucc : fl.frameSize * (pos + 1) = pos * fl.frameSize + fl.frameSize := by ring
  unfold JbFramelist.inContent JbFramelist.contentSize
  rw [offset_of_room hroom hpos, uint32_natCast hroom, decide_eq_true (by omega), Bool.or_true]

/-! ## Removing -/

/-- The counting loop takes off as many as there are flagged slots in its stretch. -/
theorem uncountDiscarded_ok (ft : Nat → JbFrameType) :
    ∀ (n lo d : Nat), ((List.range n).map (fun i => ft (lo + i))).count .discarded ≤ d →
      uncountDiscarded ft lo n d =
        .ok (d - ((List.range n).map (fun i => ft (lo + i))).count .discarded)
  | 0, lo, d, _ => by simp [uncountDiscarded]
  | n + 1, lo, d, h => by
      have hshift : (List.range (n + 1)).map (fun i => ft (lo + i))
          = ft lo :: (List.range n).map (fun i => ft (lo + 1 + i)) := by
        rw [List.range_succ_eq_map, List.map_cons, List.map_map]
        simp only [Nat.add_zero, List.cons.injEq, true_and]
        apply List.map_congr_left
        intro i _
        simp only [Function.comp_apply, Nat.succ_eq_add_one]
        rw [Nat.add_right_comm lo 1 i, Nat.add_assoc lo i 1]
      rw [hshift] at h ⊢
      unfold uncountDiscarded
      by_cases hd : ft lo = .discarded
      · rw [hd, List.count_cons_self] at h ⊢
        rw [if_pos rfl, if_pos (by omega), uncountDiscarded_ok ft n (lo + 1) (d - 1) (by omega)]
        congr 1
        omega
      · rw [if_neg hd]
        rw [List.count_cons_of_ne (by simpa using hd)] at h ⊢
        exact uncountDiscarded_ok ft n (lo + 1) d h

/-- What removing the `k` oldest frames of `fl` leaves. -/
structure Removed (fl : JbFramelist) (k : Nat) (fl' : JbFramelist) : Prop where
  inv : FramelistInv fl'
  maxCount : fl'.maxCount = fl.maxCount
  frameSize : fl'.frameSize = fl.frameSize
  size : fl'.size = fl.size - k
  origin : fl'.origin = int32 (fl.origin + k)
  types : fl'.types = fl.types.drop k

/-- The frame list whose first `k` window slots are cleared and whose window starts behind them.
The invariant follows from what the arrays hold, however they were cleared. -/
theorem Removed.of_cleared {fl fl' : JbFramelist} {k : Nat} (inv : FramelistInv fl)
    (hk : k ≤ fl.size) (hmax : fl'.maxCount = fl.maxCount) (hfs : fl'.frameSize = fl.frameSize)
    (hhead : fl'.head = (fl.head + k) % fl.maxCount) (hsize : fl'.size = fl.size - k)
    (horigin : fl'.origin = int32 (fl.origin + k))
    (hnum : fl'.discardedNum = fl.discardedNum - (fl.types.take k).count .discarded)
    (hclear : ∀ i, i < k → fl'.frameType (fl.slot i) = .missing)
    (hkeep : ∀ i, k ≤ i → i < fl.maxCount → fl'.frameType (fl.slot i) = fl.frameType (fl.slot i)) :
    Removed fl k fl' := by
  have hM : 0 < fl.maxCount := by have := inv.head_lt; omega
  have hslot : ∀ i, fl'.slot i = fl.slot (k + i) := by
    intro i
    simp only [JbFramelist.slot, hmax, hhead, Nat.mod_add_mod, Nat.add_assoc]
  have htypes : fl'.types = fl.types.drop k := by
    rw [JbFramelist.types, JbFramelist.types, window_drop _ _ _ hk, hmax, hhead, hsize]
    apply window_congr
    intro i hi
    have := hkeep (k + i) (by omega) (by have := inv.size_le; omega)
    simpa [JbFramelist.slot, Nat.mod_add_mod, Nat.add_assoc] using this
  have hcount : (fl.types.take k).count .discarded + (fl.types.drop k).count .discarded
      = fl.types.count .discarded := by
    rw [← List.count_append, List.take_append_drop]
  refine ⟨⟨?_, ?_, ?_, ?_⟩, hmax, hfs, hsize, horigin, htypes⟩
  · rw [hhead, hmax]; exact Nat.mod_lt _ hM
  · have := inv.size_le; omega
  · rw [hnum, htypes, inv.discarded_eq]; omega
  · intro p hp hout
    rw [hmax] at hp
    obtain ⟨j, hj, rfl⟩ := exists_slot inv.head_lt hp
    by_cases hjk : j < k
    · exact hclear j hjk
    · rw [hkeep j (by omega) hj]
      refine inv.beyond ?_ hj
      by_contra hlt
      have := hout (j - k) (by omega)
      rw [hslot, show k + (j - k) = j by omega] at this
      exact this rfl

/-- Removing never fails its assertion, and removes `count` frames or all there are. -/
theorem removeHead_spec {fl : JbFramelist} (inv : FramelistInv fl)
    (hM : fl.maxCount < 2147483648) (ho : int32 fl.origin = fl.origin) (count : Nat) :
    ∃ fl', jbFramelistRemoveHead fl count = .ok (fl', min count fl.size) ∧
      Removed fl (min count fl.size) fl' := by
  have hcnt : (if fl.size < count then fl.size else count) = min count fl.size := by
    split <;> omega
  unfold jbFramelistRemoveHead
  simp only [hcnt]
  have hk : min count fl.size ≤ fl.size := Nat.min_le_right _ _
  generalize min count fl.size = k at hk
  have hh := inv.head_lt
  have hs := inv.size_le
  by_cases hk0 : k = 0
  · subst hk0
    exact ⟨fl, by simp, inv, rfl, rfl, by simp, by simpa using ho.symm, by simp⟩
  rw [if_neg hk0, uint32_natCast (by omega)]
  have hle : (fl.types.take k).count .discarded ≤ fl.discardedNum := by
    rw [inv.discarded_eq]
    exact (List.take_sublist k fl.types).count_le _
  have htake : fl.types.take k = window fl.frameType fl.maxCount fl.head k := by
    rw [JbFramelist.types, show fl.size = k + (fl.size - k) by omega, window_append,
      List.take_left' (by simp)]
  by_cases hw : fl.maxCount < fl.head + k
  · -- the stretch runs over the end of the arrays and is cleared in two steps
    rw [window_of_gt _ (by omega) (by omega) (by omega)] at htake
    rw [htake, List.count_append] at hle
    simp only [if_pos hw]
    rw [uncountDiscarded_ok _ _ _ _ (by omega)]
    have hft1 : (List.range (k - (fl.maxCount - fl.head))).map
          (fun i => fill fl.frameType fl.head (fl.maxCount - fl.head) .missing (0 + i))
        = (List.range (k - (fl.maxCount - fl.head))).map (fun i => fl.frameType i) := by
      apply List.map_congr_left
      intro i hi
      have := List.mem_range.mp hi
      simp only [fill, Nat.zero_add]
      rw [if_neg (by omega)]
    simp only
    rw [uncountDiscarded_ok _ _ _ _ (by rw [hft1]; omega), hft1]
    refine ⟨_, rfl, Removed.of_cleared inv hk rfl rfl rfl rfl rfl ?_ ?_ ?_⟩
    · rw [htake, List.count_append]
      simp only
      omega
    · intro i hi
      have hpos : fl.slot i < fl.maxCount := Nat.mod_lt _ (by omega)
      have hval := slot_cases (i := i) hh (by omega)
      simp only [fill]
      by_cases hin : 0 ≤ fl.slot i ∧ fl.slot i < 0 + (k - (fl.maxCount - fl.head))
      · rw [if_pos hin]
      · rw [if_neg hin, if_pos (by omega)]
    · intro i hki hi
      have hval := slot_cases (i := i) hh (by omega)
      simp only [fill]
      rw [if_neg (by omega), if_neg (by omega)]
  · rw [window_of_le _ (by omega)] at htake
    rw [htake] at hle
    simp only [if_neg hw]
    rw [uncountDiscarded_ok _ _ _ _ hle]
    simp only [uncountDiscarded]
    refine ⟨_, rfl, Removed.of_cleared inv hk rfl rfl rfl rfl rfl ?_ ?_ ?_⟩
    · rw [htake]
    · intro i hi
      have hval : fl.slot i = fl.head + i := Nat.mod_eq_of_lt (by omega)
      simp only [fill, hval]
      rw [if_neg (by omega), if_pos (by omega)]
    · intro i hki hi
      have hval := slot_cases (i := i) hh (by omega)
      simp only [fill]
      rw [if_neg (by omega), if_neg (by omega)]

/-! ## Sequence numbers

`Sound` adds to the invariant that the sequence numbers of the window are within C's `int`, with
room above them for the largest discard distance (`topSeq`). `FlagsBelow` is the relation between
the flagged slots and a reference number that keeps a frame from being discarded twice. -/

/-- The largest sequence number that leaves room for a discard distance of 10000 and for the
number after it. -/
def topSeq : Int := 2147473646

structure Sound (M : Nat) (fl : JbFramelist) : Prop where
  inv : FramelistInv fl
  maxCount : fl.maxCount = M
  bounded : M < 2147483648
  room : fl.frameSize * M < 4294967296
  origin_ge : -2147483648 ≤ fl.origin
  end_le : fl.origin + fl.size ≤ topSeq + 1

/-- Every flagged frame of the window has a sequence number at most `ref`. -/
def FlagsBelow (fl : JbFramelist) (ref : Int) : Prop :=
  ∀ i : Nat, fl.types[i]? = some .discarded → fl.origin + i ≤ ref

instance (fl : JbFramelist) (ref : Int) : Decidable (FlagsBelow fl ref) :=
  decidable_of_iff
    (∀ i, i < fl.types.length → fl.types[i]? = some .discarded → fl.origin + i ≤ ref)
    ⟨fun h i hi => h i (List.getElem?_eq_some_iff.mp hi).1 hi, fun h i _ hi => h i hi⟩

/-- `fl'` is sound, and its flagged frames are below every number those of `fl` are below. -/
structure Kept (M : Nat) (fl fl' : JbFramelist) : Prop where
  sound : Sound M fl'
  flags : ∀ ref, FlagsBelow fl ref → FlagsBelow fl' ref

theorem Kept.refl {M : Nat} {fl : JbFramelist} (hs : Sound M fl) : Kept M fl fl :=
  ⟨hs, fun _ h => h⟩

theorem Kept.trans {M : Nat} {fl fl' fl'' : JbFramelist} (h1 : Kept M fl fl')
    (h2 : Kept M fl' fl'') : Kept M fl fl'' :=
  ⟨h2.sound, fun ref h => h2.flags ref (h1.flags ref h)⟩

theorem FlagsBelow.of_size_zero {fl : JbFramelist} (h : fl.size = 0) (ref : Int) :
    FlagsBelow fl ref := by
  intro i hi
  have hlt := (List.getElem?_eq_some_iff.mp hi).1
  rw [types_length, h] at hlt
  omega

theorem Sound.int32_origin {M : Nat} {fl : JbFramelist} (hs : Sound M fl) :
    int32 fl.origin = fl.origin := by
  have h1 := hs.origin_ge
  have h2 := hs.end_le
  unfold topSeq at h2
  exact int32_of_range h1 (by omega)

theorem Sound.effSize {M : Nat} {fl : JbFramelist} (hs : Sound M fl) :
    jbFramelistEffSize fl = fl.size - fl.discardedNum := by
  have h1 := hs.inv.discarded_le
  have h2 := hs.inv.size_le
  have h3 := hs.bounded
  have h4 := hs.maxCount
  unfold jbFramelistEffSize
  rw [show (fl.size : Int) - fl.discardedNum = ((fl.size - fl.discardedNum : Nat) : Int) by omega,
    uint32_natCast (by omega)]

theorem Removed.kept {M k : Nat} {fl fl' : JbFramelist} (hs : Sound M fl) (hk : k ≤ fl.size)
    (hr : Removed fl k fl') : Kept M fl fl' := by
  have h1 := hs.origin_ge
  have h2 := hs.end_le
  have ho : fl'.origin = fl.origin + k := by
    rw [hr.origin]
    unfold topSeq at h2
    exact int32_of_range (by omega) (by omega)
  refine ⟨⟨hr.inv, hr.maxCount.trans hs.maxCount, hs.bounded, hr.frameSize ▸ hs.room, by omega, ?_⟩,
    ?_⟩
  · rw [ho, hr.size]; omega
  · intro ref hf i hi
    rw [hr.types, List.getElem?_drop] at hi
    have := hf (k + i) hi
    rw [ho]
    push_cast at this
    omega

theorem removeHead_kept {M : Nat} {fl : JbFramelist} (hs : Sound M fl) (count : Nat) :
    ∃ fl', jbFramelistRemoveHead fl count = .ok (fl', min count fl.size) ∧
      Removed fl (min count fl.size) fl' ∧ Kept M fl fl' := by
  obtain ⟨fl', h, hr⟩ := removeHead_spec hs.inv (by rw [hs.maxCount]; exact hs.bounded)
    hs.int32_origin count
  exact ⟨fl', h, hr, hr.kept hs (Nat.min_le_right _ _)⟩

/-! ## Getting -/

/-- The skip loop ends: every iteration takes a flagged frame out of the window, and the head slot
of an empty window is missing. -/
theorem skipDiscarded_spec {M : Nat} :
    ∀ (fuel : Nat) (fl : JbFramelist) (prev : Bool), Sound M fl → fl.size < fuel →
      ∃ r, skipDiscarded fuel fl prev = .ok r ∧ Kept M fl r.1 ∧
        r.1.frameType r.1.head ≠ .discarded
  | 0, _, _, _, hf => by omega
  | fuel + 1, fl, prev, hs, hf => by
      unfold skipDiscarded
      by_cases hd : fl.frameType fl.head = .discarded
      · rw [if_pos hd]
        have hsize : fl.size ≠ 0 := by
          intro h0
          have := hs.inv.outside_missing fl.head hs.inv.head_lt (fun i hi => by omega)
          rw [this] at hd
          cases hd
        obtain ⟨fl', h, hr, hk⟩ := removeHead_kept hs 1
        have hsz := hr.size
        obtain ⟨r, hr', hk', hne⟩ := skipDiscarded_spec fuel fl' true hk.sound (by omega)
        simp only [h]
        exact ⟨r, hr', hk.trans hk', hne⟩
      · rw [if_neg hd]
        exact ⟨(fl, prev), rfl, Kept.refl hs, hd⟩

/-- The head frame is in `content`. -/
theorem takeHead_eq {M : Nat} {fl : JbFramelist} (hs : Sound M fl) (prev : Bool) :
    takeHead fl prev = .ok (dropHead fl, headOut fl prev) := by
  have hroom : fl.frameSize * fl.maxCount < 4294967296 := hs.maxCount ▸ hs.room
  unfold takeHead
  rw [inContent_of_room hroom hs.inv.head_lt (Nat.le_refl _), if_neg (by simp)]

theorem dropHead_kept {M : Nat} {fl : JbFramelist} (hs : Sound M fl) (h0 : fl.size ≠ 0)
    (hd : fl.frameType fl.head ≠ .discarded) : Kept M fl (dropHead fl) := by
  have hh := hs.inv.head_lt
  have hM := hs.bounded
  have hmc := hs.maxCount
  have hslot0 : fl.slot 0 = fl.head := Nat.mod_eq_of_lt (by omega)
  refine Removed.kept (k := 1) hs (by omega)
    (Removed.of_cleared hs.inv (by omega) rfl rfl ?_ rfl rfl ?_ ?_ ?_)
  · show uint32 (fl.head + 1 : Nat) % fl.maxCount = _
    rw [uint32_natCast (by omega)]
  · have h1 : fl.types.take 1 = [fl.frameType (fl.slot 0)] := by
      rw [List.take_one, List.head?_eq_getElem?, types_getElem? fl (by omega)]
      rfl
    rw [h1, hslot0, List.count_cons_of_ne (by simpa using hd)]
    rfl
  · intro i hi
    have : i = 0 := by omega
    subst this
    show setAt fl.frameType fl.head .missing (fl.slot 0) = .missing
    rw [hslot0]
    simp [setAt]
  · intro i h1 hi
    have hne : fl.slot i ≠ fl.head := by
      rw [← hslot0]
      intro he
      have := slot_inj (m := fl.maxCount) (h := fl.head) (by omega) (by omega) he
      omega
    show setAt fl.frameType fl.head .missing (fl.slot i) = _
    simp [setAt, hne]

theorem get_kept {M fuel : Nat} {fl : JbFramelist} (hs : Sound M fl) (hf : M < fuel) :
    ∃ r, jbFramelistGet fuel fl = .ok r ∧ Kept M fl r.1 := by
  have hle := hs.inv.size_le
  have hmc := hs.maxCount
  unfold jbFramelistGet
  by_cases h0 : fl.size = 0
  · exact ⟨(fl, none), by simp [h0], Kept.refl hs⟩
  · rw [if_neg h0]
    obtain ⟨⟨fl', prev⟩, h, hk, hd⟩ := skipDiscarded_spec fuel fl false hs (by omega)
    simp only [h]
    by_cases h0' : fl'.size = 0
    · exact ⟨(fl', none), by simp [h0'], hk⟩
    · rw [if_neg h0', takeHead_eq hk.sound prev]
      exact ⟨_, rfl, hk.trans (dropHead_kept hk.sound h0' hd)⟩

/-! ## Peeking -/

/-- The search of `jb_framelist_peek` ends inside the window: from distance `j` on there are more
than `idx` frames that are not discarded. -/
theorem peekPos_ok {M : Nat} {fl : JbFramelist} (hs : Sound M fl) :
    ∀ (fuel j idx : Nat), j ≤ fl.size → fl.size - j < fuel →
      idx < (fl.types.drop j).countP (· ≠ .discarded) →
      ∃ p, peekPos fl fuel (fl.slot j) idx = .ok p
  | 0, _, _, _, hf, _ => by omega
  | fuel + 1, j, idx, hj, hf, hidx => by
      have hlt : j < fl.size := by
        by_contra hge
        rw [List.drop_eq_nil_of_le (by rw [types_length]; omega)] at hidx
        simp at hidx
      have hh := hs.inv.head_lt
      have hM := hs.bounded
      have hmc := hs.maxCount
      have hle := hs.inv.size_le
      have hdrop : fl.types.drop j = fl.frameType (fl.slot j) :: fl.types.drop (j + 1) := by
        have hjl : j < fl.types.length := by rw [types_length]; exact hlt
        rw [List.drop_eq_getElem_cons hjl]
        have := types_getElem? fl hlt
        rw [List.getElem?_eq_getElem hjl] at this
        rw [Option.some.inj this]
      have hnext : uint32 (fl.slot j + 1 : Nat) % fl.maxCount = fl.slot (j + 1) := by
        have hlt' : fl.slot j < fl.maxCount := Nat.mod_lt _ (by omega)
        rw [uint32_natCast (by omega)]
        simp only [JbFramelist.slot, Nat.mod_add_mod, Nat.add_assoc]
      rw [hdrop, List.countP_cons] at hidx
      unfold peekPos
      rw [hnext]
      by_cases hd : fl.frameType (fl.slot j) ≠ .discarded
      · rw [if_pos hd]
        by_cases hi0 : idx = 0
        · exact ⟨_, by rw [if_pos hi0]⟩
        · rw [if_neg hi0]
          refine peekPos_ok hs fuel (j + 1) (idx - 1) (by omega) (by omega) ?_
          rw [if_pos (by simpa using hd)] at hidx
          omega
      · rw [if_neg hd]
        refine peekPos_ok hs fuel (j + 1) idx (by omega) (by omega) ?_
        simpa [hd] using hidx

theorem peek_ok {M fuel : Nat} {fl : JbFramelist} (hs : Sound M fl) (hf : M < fuel)
    (offset : Nat) : ∃ r, jbFramelistPeek fuel fl offset = .ok r := by
  have hle := hs.inv.size_le
  have hmc := hs.maxCount
  have hh := hs.inv.head_lt
  unfold jbFramelistPeek
  by_cases ho : jbFramelistEffSize fl ≤ offset
  · exact ⟨none, by rw [if_pos ho]⟩
  · rw [if_neg ho]
    rw [hs.effSize, hs.inv.discarded_eq] at ho
    have hsum : fl.types.count .discarded + fl.types.countP (· ≠ .discarded) = fl.size := by
      rw [← types_length fl, List.count, List.length_eq_countP_add_countP (· == .discarded)]
      congr 1
      apply List.countP_congr
      intro a _
      simp
    have hslot0 : fl.slot 0 = fl.head := Nat.mod_eq_of_lt (by omega)
    obtain ⟨p, hp⟩ := peekPos_ok hs fuel 0 offset (by omega) (by omega)
      (by rw [List.drop_zero]; omega)
    rw [hslot0] at hp
    simp only [hp]
    exact ⟨_, rfl⟩

end Jbuf
