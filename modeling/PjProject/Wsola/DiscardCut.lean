import PjProject.Wsola.Compress

set_option autoImplicit false

/-! # Discarding does not depend on where the buffer wraps

The samples are in two regions of an array. Whichever way `pjmedia_wsola_discard` goes, what it leaves is
the samples with a cut, or the samples as they were if it fails, exactly if `compress` can work on the
samples that it is given (`discard_cuts_iff`).
-/

namespace Wsola

open MachineInt Outcome Segment Crossfade

/-- Two regions of an array of `size` samples, as a circular buffer returns them. -/
structure Regions (size buf1 buf1Cnt buf2 buf2Cnt : Nat) : Prop where
  first : buf1 + buf1Cnt ≤ size
  second : buf2 + buf2Cnt ≤ size
  apart : buf1 + buf1Cnt ≤ buf2 ∨ buf2 + buf2Cnt ≤ buf1
  cnt1 : buf1Cnt < 4294967296
  cnt2 : buf2Cnt < 4294967296

/-- The samples in two regions. -/
def regionSamples (cell : Nat → Int16) (buf1 buf1Cnt buf2 buf2Cnt : Nat) : List Int16 :=
  seg cell buf1 buf1Cnt ++ seg cell buf2 buf2Cnt

variable {w : PjmediaWsola} {m : Mixing} {a e : Samples} {choices : Nat → Nat} {erase : Nat → Int16}
variable {size buf1 buf1Cnt buf2 buf2Cnt delCnt del : Nat}

@[simp] theorem regionSamples_length {cell : Nat → Int16} :
    (regionSamples cell buf1 buf1Cnt buf2 buf2Cnt).length = buf1Cnt + buf2Cnt := by
  simp [regionSamples]

theorem take_regionSamples_first {cell : Nat → Int16} {k : Nat} (h : k ≤ buf1Cnt) :
    (regionSamples cell buf1 buf1Cnt buf2 buf2Cnt).take k = seg cell buf1 k := by
  unfold regionSamples
  rw [List.take_append_of_le_length (by simpa using h), take_seg h]

theorem take_regionSamples_second {cell : Nat → Int16} {k : Nat} (h : k ≤ buf2Cnt) :
    (regionSamples cell buf1 buf1Cnt buf2 buf2Cnt).take (buf1Cnt + k)
      = seg cell buf1 buf1Cnt ++ seg cell buf2 k := by
  unfold regionSamples
  rw [List.take_append, seg_length, Nat.add_sub_cancel_left, take_seg h,
    List.take_of_length_le (by rw [seg_length]; omega)]

/-! ## Closing the gap -/

/-- The first samples of the regions are those in front of the gap and those of the second buffer. -/
theorem closeGap_ok (h : Regions a.size buf1 buf1Cnt buf2 buf2Cnt) (hsmall : buf2Cnt < 2147483648)
    (hdel : del ≤ buf1Cnt) :
    ∃ a', closeGap a buf1 buf1Cnt buf2 buf2Cnt del = .ok a' ∧ a'.size = a.size ∧
      (regionSamples a'.cell buf1 buf1Cnt buf2 buf2Cnt).take (buf1Cnt + buf2Cnt - del)
        = seg a.cell buf1 (buf1Cnt - del) ++ seg a.cell buf2 buf2Cnt := by
  have hfirst := h.first
  have hsecond := h.second
  have hapart := h.apart
  unfold closeGap
  dsimp only
  by_cases hmore : del < buf2Cnt
  · rw [Nat.min_eq_left hmore.le,
      @pjmediaMoveSamples_ok a (buf1 + (buf1Cnt - del)) buf2 del _ _ (by omega) rfl (by omega) (by omega),
      ok_bind, if_pos hmore, @pjmediaMoveSamples_ok _ buf2 (buf2 + del) _ _ _ rfl (by push_cast; rfl) (by omega)
        (by dsimp only; omega)]
    refine ⟨_, rfl, rfl, ?_⟩
    dsimp only
    rw [Nat.add_sub_assoc hmore.le, take_regionSamples_second (by omega), seg_splice_apart (by omega),
      seg_split (show buf1Cnt - del ≤ buf1Cnt by omega), seg_splice_apart (by omega),
      Nat.sub_sub_self hdel, seg_splice, seg_splice, seg_splice_apart (by omega), List.append_assoc,
      ← seg_split hmore.le]
  · rw [Nat.min_eq_right (by omega),
      @pjmediaMoveSamples_ok a (buf1 + (buf1Cnt - del)) buf2 buf2Cnt _ _ (by omega) rfl (by omega) (by omega),
      ok_bind, if_neg (by omega)]
    refine ⟨_, rfl, rfl, ?_⟩
    dsimp only
    rw [take_regionSamples_first (by omega), show buf1Cnt + buf2Cnt - del = buf1Cnt - del + buf2Cnt by omega,
      seg_add, seg_splice_apart (by omega), seg_splice]

/-! ## Copying back -/

/-- The first samples of the regions are those of `erase_buf` and the remaining ones. -/
theorem copyBack_ok {bufSize rem remCnt : Nat} (h : Regions a.size buf1 buf1Cnt buf2 buf2Cnt)
    (h1 : buf1Cnt < 2147483648) (h2 : buf2Cnt < 2147483648) (hbuf : bufSize ≤ e.size)
    (hbuf1 : buf1Cnt ≤ e.size)
    (hrem : rem + remCnt = buf2 + buf2Cnt) (hle : bufSize + remCnt ≤ buf1Cnt + buf2Cnt)
    (hremCnt : remCnt ≤ buf2Cnt) :
    ∃ a', copyBack a e buf1 buf1Cnt buf2 bufSize rem remCnt = .ok a' ∧ a'.size = a.size ∧
      (regionSamples a'.cell buf1 buf1Cnt buf2 buf2Cnt).take (bufSize + remCnt)
        = seg e.cell 0 bufSize ++ seg a.cell rem remCnt := by
  have hfirst := h.first
  have hsecond := h.second
  have hapart := h.apart
  -- nothing remains, or it is moved: both are one move
  have hmove : ∀ (b : Samples) (dst src : Int) (cnt : Nat),
      (if cnt ≠ 0 then pjmediaMoveSamples b dst src cnt else .ok b) = pjmediaMoveSamples b dst src cnt := by
    intro b dst src cnt
    by_cases h0 : cnt = 0
    · rw [if_neg (by omega), h0, pjmediaMoveSamples_none]
    · rw [if_pos h0]
  unfold copyBack
  by_cases heq : bufSize = buf1Cnt
  · subst heq
    rw [if_pos rfl, @pjmediaCopySamples_ok a e buf1 0 _ _ 0 rfl rfl h1 hfirst (by omega), ok_bind, hmove,
      @pjmediaMoveSamples_ok _ buf2 rem _ _ _ rfl rfl (by omega) (by dsimp only; omega)]
    refine ⟨_, rfl, rfl, ?_⟩
    dsimp only
    rw [take_regionSamples_second hremCnt, seg_splice_apart (by omega), seg_splice, seg_splice,
      seg_splice_apart (by omega)]
  · rw [if_neg heq]
    by_cases hlt : bufSize < buf1Cnt
    · rw [if_pos hlt, @pjmediaCopySamples_ok a e buf1 0 _ _ 0 rfl rfl (by omega) (by omega) (by omega), ok_bind]
      by_cases h0 : remCnt = 0
      · rw [if_neg (by omega)]
        refine ⟨_, rfl, rfl, ?_⟩
        dsimp only
        rw [h0, Nat.add_zero, take_regionSamples_first hlt.le, seg_splice, seg_zero, List.append_nil]
      · have hc : min remCnt (buf1Cnt - bufSize) ≤ remCnt := Nat.min_le_left _ _
        have hc' : min remCnt (buf1Cnt - bufSize) ≤ buf1Cnt - bufSize := Nat.min_le_right _ _
        have hall : min remCnt (buf1Cnt - bufSize) = remCnt ∨
            min remCnt (buf1Cnt - bufSize) = buf1Cnt - bufSize := by omega
        rw [if_pos h0]
        dsimp only
        generalize min remCnt (buf1Cnt - bufSize) = c at *
        rw [@pjmediaCopyWithin_ok _ (buf1 + bufSize) rem _ _ _ (by push_cast; rfl) rfl (by omega)
            (by dsimp only; omega) (by dsimp only; omega) (by omega), ok_bind, hmove,
          @pjmediaMoveSamples_ok _ buf2 (rem + c) _ _ _ rfl (by push_cast; rfl) (by omega)
            (by dsimp only; omega)]
        refine ⟨_, rfl, rfl, ?_⟩
        dsimp only
        rcases hall with rfl | rfl
        · -- all that remains fits the first buffer
          rw [take_regionSamples_first (by omega), Nat.sub_self, splice_zero, seg_add,
            seg_splice_apart (by omega), seg_splice, seg_splice, seg_splice_apart (by omega)]
        · have hsplit : bufSize + remCnt = buf1Cnt + (remCnt - (buf1Cnt - bufSize)) := by omega
          rw [hsplit, take_regionSamples_second (by omega), seg_splice_apart (by omega),
            seg_split (show bufSize ≤ buf1Cnt by omega), seg_splice_apart (by omega), seg_splice, seg_splice,
            seg_splice_apart (by omega), seg_splice, seg_splice_apart (by omega), seg_splice_apart (by omega),
            List.append_assoc, ← seg_split (by omega)]
    · rw [if_neg hlt, @pjmediaCopySamples_ok a e buf1 0 _ _ 0 rfl rfl h1 hfirst (by omega), ok_bind,
        @pjmediaCopySamples_ok _ e buf2 buf1Cnt _ _ _ rfl rfl (by omega) (by dsimp only; omega) (by omega),
        ok_bind, hmove,
        @pjmediaMoveSamples_ok _ (buf2 + (bufSize - buf1Cnt)) rem _ _ _ (by omega) rfl (by omega)
          (by dsimp only; omega)]
      refine ⟨_, rfl, rfl, ?_⟩
      dsimp only
      have hsplit : bufSize + remCnt = buf1Cnt + (bufSize - buf1Cnt + remCnt) := by omega
      rw [hsplit, take_regionSamples_second (by omega), seg_splice_apart (by omega), seg_splice_apart (by omega),
        seg_splice, seg_add, seg_splice_apart (by omega), seg_splice, seg_splice, seg_splice_apart (by omega),
        seg_splice_apart (by omega), seg_split (show buf1Cnt ≤ bufSize by omega), Nat.zero_add,
        List.append_assoc]

/-! ## What discarding is to do -/

/-- The number of samples that `compress` is given, if it is called. -/
def scanned (w : PjmediaWsola) (buf1Cnt buf2Cnt : Nat) : Option Nat :=
  let frames := eraseCnt * w.samplesPerFrame
  if buf1Cnt = 0 then none
  else if buf2Cnt = 0 then some buf1Cnt
  else if buf1Cnt < frames ∧ buf2Cnt < frames ∧ w.options.noDiscard = true then none
  else if frames ≤ buf2Cnt then some buf2Cnt
  else if frames ≤ buf1Cnt then some buf1Cnt
  else some (min (buf1Cnt + buf2Cnt) frames)

/-- `count` samples are too few, in `unsigned` arithmetic, or there is a search range behind the samples that
are to be deleted, a template of the length that the search needs, and less than `2^31` samples behind the
window. -/
def Fits (w : PjmediaWsola) (delCnt count : Nat) : Prop :=
  count ≤ (w.hanningSize + delCnt) % 4294967296 ∨
    (w.hanningSize + delCnt < 4294967296 ∧ 8 ≤ w.templSize ∧ count - w.hanningSize - delCnt < 2147483648)

/-- If discarding succeeds, the first samples of the regions are the old ones with as many cut out as it
returns, at least `delCnt`; if it fails, the samples are the old ones. -/
def Discards (w : PjmediaWsola) (m : Mixing) (a : Samples) (buf1 buf1Cnt buf2 buf2Cnt delCnt : Nat)
    (r : Discarded) : Prop :=
  r.buf.size = a.size ∧
    if r.status = .success then
      delCnt ≤ r.delCnt ∧
        Cut (w.mix m) w.hanningSize r.delCnt (regionSamples a.cell buf1 buf1Cnt buf2 buf2Cnt)
          ((regionSamples r.buf.cell buf1 buf1Cnt buf2 buf2Cnt).take (buf1Cnt + buf2Cnt - r.delCnt))
    else regionSamples r.buf.cell buf1 buf1Cnt buf2 buf2Cnt = regionSamples a.cell buf1 buf1Cnt buf2 buf2Cnt

/-- Nothing was deleted. -/
theorem discards_none {a' : Samples} (hsize : a'.size = a.size)
    (hsame : regionSamples a'.cell buf1 buf1Cnt buf2 buf2Cnt = regionSamples a.cell buf1 buf1Cnt buf2 buf2Cnt) :
    Discards w m a buf1 buf1Cnt buf2 buf2Cnt delCnt (discarded (a', 0)) := by
  refine ⟨hsize, ?_⟩
  rw [if_neg (by simp [discarded])]
  exact hsame

theorem discards_some {a' : Samples} (hsize : a'.size = a.size) (hdel : 0 < delCnt) (hle : delCnt ≤ del)
    (hcut : Cut (w.mix m) w.hanningSize del (regionSamples a.cell buf1 buf1Cnt buf2 buf2Cnt)
      ((regionSamples a'.cell buf1 buf1Cnt buf2 buf2Cnt).take (buf1Cnt + buf2Cnt - del))) :
    Discards w m a buf1 buf1Cnt buf2 buf2Cnt delCnt (discarded (a', del)) := by
  have hstatus : (discarded (a', del)).status = .success := if_pos (show 0 < del by omega)
  refine ⟨hsize, ?_⟩
  rw [if_pos hstatus]
  exact ⟨hle, hcut⟩

/-- **What discarding does**: it refuses; all samples are in the first region; or they are discarded in the
second region, in the first one, or in `erase_buf`. -/
theorem discard_ways (hdel : 0 < delCnt) :
    (scanned w buf1Cnt buf2Cnt = none ∧ ∃ status, status ≠ .success ∧ ∀ m choices erase a,
      pjmediaWsolaDiscard w m choices erase a buf1 buf1Cnt buf2 buf2Cnt delCnt = .ok ⟨status, a, delCnt⟩) ∨
    (buf2Cnt = 0 ∧ scanned w buf1Cnt buf2Cnt = some buf1Cnt ∧ ∀ m choices erase a,
      pjmediaWsolaDiscard w m choices erase a buf1 buf1Cnt buf2 buf2Cnt delCnt
        = (do let r ← compress w m choices a buf1 buf1Cnt delCnt; .ok (discarded r))) ∨
    (scanned w buf1Cnt buf2Cnt = some buf2Cnt ∧ ∀ m choices erase a,
      pjmediaWsolaDiscard w m choices erase a buf1 buf1Cnt buf2 buf2Cnt delCnt
        = (do let r ← compress w m choices a buf2 buf2Cnt delCnt; .ok (discarded r))) ∨
    (buf2Cnt < eraseCnt * w.samplesPerFrame ∧ scanned w buf1Cnt buf2Cnt = some buf1Cnt ∧ ∀ m choices erase a,
      pjmediaWsolaDiscard w m choices erase a buf1 buf1Cnt buf2 buf2Cnt delCnt
        = (do let r ← discardFirst w m choices a buf1 buf1Cnt buf2 buf2Cnt delCnt; .ok (discarded r))) ∨
    (buf1Cnt < eraseCnt * w.samplesPerFrame ∧ buf2Cnt < eraseCnt * w.samplesPerFrame ∧ 0 < buf2Cnt ∧
      scanned w buf1Cnt buf2Cnt = some (min (buf1Cnt + buf2Cnt) (eraseCnt * w.samplesPerFrame)) ∧
      ∀ m choices erase a,
        pjmediaWsolaDiscard w m choices erase a buf1 buf1Cnt buf2 buf2Cnt delCnt
          = (do
              let r ← discardCombined w m choices (eraseBuf w erase) a buf1 buf1Cnt buf2 buf2Cnt delCnt
              .ok (discarded r))) := by
  unfold scanned pjmediaWsolaDiscard
  dsimp only
  by_cases hempty : buf1Cnt = 0
  · simp only [if_pos hempty, if_pos (show buf1Cnt = 0 ∨ delCnt = 0 from .inl hempty)]
    exact .inl ⟨trivial, _, by decide, fun _ _ _ _ => rfl⟩
  simp only [if_neg hempty, if_neg (show ¬ (buf1Cnt = 0 ∨ delCnt = 0) by omega)]
  by_cases hcontiguous : buf2Cnt = 0
  · simp only [if_pos hcontiguous]
    exact .inr (.inl ⟨hcontiguous, trivial, fun _ _ _ _ => trivial⟩)
  simp only [if_neg hcontiguous]
  by_cases hmissing : buf1Cnt < eraseCnt * w.samplesPerFrame ∧ buf2Cnt < eraseCnt * w.samplesPerFrame ∧
      w.options.noDiscard = true
  · simp only [if_pos hmissing]
    exact .inl ⟨trivial, _, by decide, fun _ _ _ _ => rfl⟩
  simp only [if_neg hmissing]
  by_cases hlong2 : eraseCnt * w.samplesPerFrame ≤ buf2Cnt
  · simp only [if_pos hlong2]
    exact .inr (.inr (.inl ⟨trivial, fun _ _ _ _ => trivial⟩))
  simp only [if_neg hlong2]
  by_cases hlong1 : eraseCnt * w.samplesPerFrame ≤ buf1Cnt
  · simp only [if_pos hlong1]
    exact .inr (.inr (.inr (.inl ⟨by omega, trivial, fun _ _ _ _ => trivial⟩)))
  · simp only [if_neg hlong1]
    exact .inr (.inr (.inr (.inr ⟨by omega, by omega, by omega, trivial, fun _ _ _ _ => trivial⟩)))

/-- `compress` deletes nothing, or it leaves a cut. -/
theorem compress_fits {buf count : Nat} (hw : Dims w) (hin : buf + count ≤ a.size)
    (hcount : count < 4294967296) (hdel : 0 < delCnt) (hfits : Fits w delCnt count) :
    compress w m choices a buf count delCnt = .ok (a, 0) ∨
      ∃ del, compress w m choices a buf count delCnt
          = .ok ({ a with cell := cutCells w m a.cell buf count del }, del) ∧
        delCnt ≤ del ∧ w.hanningSize + del < count ∧ count - w.hanningSize - del < 2147483648 := by
  have huint : uint32 (w.hanningSize + delCnt : Nat) = (w.hanningSize + delCnt) % 4294967296 := by
    unfold uint32
    omega
  by_cases hfew : count ≤ uint32 (w.hanningSize + delCnt : Nat)
  · exact .inl (compress_few hdel hfew)
  · unfold Fits at hfits
    rcases @compress_found w m a buf count delCnt choices hw hin hcount hdel (by omega) (by omega)
      with ⟨del, hcompress, hge, hlt, -⟩
    exact .inr ⟨del, hcompress, hge, hlt, by omega⟩

/-! ## The four ways -/

/-- All samples are in the first region. -/
theorem discard_contiguous (hw : Dims w) (h : Regions a.size buf1 buf1Cnt buf2 0) (hdel : 0 < delCnt)
    (hfits : Fits w delCnt buf1Cnt) :
    ∃ r, compress w m choices a buf1 buf1Cnt delCnt = .ok r ∧
      Discards w m a buf1 buf1Cnt buf2 0 delCnt (discarded r) := by
  rcases @compress_fits w m a choices delCnt buf1 buf1Cnt hw h.first h.cnt1 hdel hfits
    with hnone | ⟨del, hsome, hge, hlt, hshort⟩
  · exact ⟨_, hnone, discards_none rfl rfl⟩
  · refine ⟨_, hsome, discards_some rfl hdel hge ?_⟩
    rw [Nat.add_zero, take_regionSamples_first (by omega)]
    unfold regionSamples
    rw [seg_zero, List.append_nil]
    exact compress_cut hlt.le hshort

/-- The samples are discarded in the second region. -/
theorem discard_second (hw : Dims w) (h : Regions a.size buf1 buf1Cnt buf2 buf2Cnt) (hdel : 0 < delCnt)
    (hfits : Fits w delCnt buf2Cnt) :
    ∃ r, compress w m choices a buf2 buf2Cnt delCnt = .ok r ∧
      Discards w m a buf1 buf1Cnt buf2 buf2Cnt delCnt (discarded r) := by
  have hapart := h.apart
  rcases @compress_fits w m a choices delCnt buf2 buf2Cnt hw h.second h.cnt2 hdel hfits
    with hnone | ⟨del, hsome, hge, hlt, hshort⟩
  · exact ⟨_, hnone, discards_none rfl rfl⟩
  · refine ⟨_, hsome, discards_some rfl hdel hge ?_⟩
    rw [Nat.add_sub_assoc (by omega), take_regionSamples_second (by omega)]
    dsimp only
    rw [seg_cutCells_apart hlt.le (by omega)]
    simpa [regionSamples] using (compress_cut hlt.le hshort).append (seg a.cell buf1 buf1Cnt) []

/-- The samples are discarded in the first region, and those of the second one close up. -/
theorem discard_first (hw : Dims w) (h : Regions a.size buf1 buf1Cnt buf2 buf2Cnt) (hdel : 0 < delCnt)
    (hsmall : buf2Cnt < 2147483648) (hfits : Fits w delCnt buf1Cnt) :
    ∃ r, discardFirst w m choices a buf1 buf1Cnt buf2 buf2Cnt delCnt = .ok r ∧
      Discards w m a buf1 buf1Cnt buf2 buf2Cnt delCnt (discarded r) := by
  have hapart := h.apart
  unfold discardFirst
  rcases @compress_fits w m a choices delCnt buf1 buf1Cnt hw h.first h.cnt1 hdel hfits
    with hnone | ⟨del, hsome, hge, hlt, hshort⟩
  · rcases closeGap_ok h hsmall (Nat.zero_le _) with ⟨a', hclose, hsize, hsamples⟩
    rw [hnone, ok_bind]
    dsimp only
    rw [hclose, ok_bind]
    refine ⟨_, rfl, discards_none hsize ?_⟩
    rw [Nat.sub_zero, List.take_of_length_le (by simp)] at hsamples
    rw [hsamples]
    rfl
  · rcases @closeGap_ok { a with cell := cutCells w m a.cell buf1 buf1Cnt del } buf1 buf1Cnt buf2 buf2Cnt del h
      hsmall (by omega) with ⟨a', hclose, hsize, hsamples⟩
    rw [hsome, ok_bind]
    dsimp only at hclose hsamples ⊢
    rw [hclose, ok_bind]
    refine ⟨_, rfl, discards_some hsize hdel hge ?_⟩
    have hsecond : seg (cutCells w m a.cell buf1 buf1Cnt del) buf2 buf2Cnt = seg a.cell buf2 buf2Cnt :=
      seg_cutCells_apart hlt.le (by omega)
    rw [hsamples, hsecond]
    simpa [regionSamples] using (compress_cut hlt.le hshort).append [] (seg a.cell buf2 buf2Cnt)

/-- The samples are discarded in `erase_buf`, which holds the first `bufSize` of them. -/
theorem discard_combined (hw : Dims w) (h : Regions a.size buf1 buf1Cnt buf2 buf2Cnt) (hdel : 0 < delCnt)
    (h1 : buf1Cnt < eraseCnt * w.samplesPerFrame) (h2 : buf2Cnt < eraseCnt * w.samplesPerFrame)
    (hpos : 0 < buf2Cnt) (hfits : Fits w delCnt (min (buf1Cnt + buf2Cnt) (eraseCnt * w.samplesPerFrame))) :
    ∃ r, discardCombined w m choices (eraseBuf w erase) a buf1 buf1Cnt buf2 buf2Cnt delCnt = .ok r ∧
      Discards w m a buf1 buf1Cnt buf2 buf2Cnt delCnt (discarded r) := by
  have hframe := hw.frame_lt
  have hfirst := h.first
  have hsecond := h.second
  have hframes : eraseCnt * w.samplesPerFrame = w.samplesPerFrame * 3 := by
    unfold eraseCnt
    omega
  have hsize : (eraseBuf w erase).size = w.samplesPerFrame * 3 := rfl
  unfold discardCombined
  dsimp only
  rw [hframes] at h1 h2 hfits
  rw [uint32_natCast (by omega), hframes]
  obtain ⟨bufSize, hbufSize⟩ : ∃ n, min (buf1Cnt + buf2Cnt) (w.samplesPerFrame * 3) = n := ⟨_, rfl⟩
  obtain ⟨remCnt, hremCnt⟩ : ∃ n, buf1Cnt + buf2Cnt - bufSize = n := ⟨_, rfl⟩
  obtain ⟨rem, hrem⟩ : ∃ n, buf2 + buf2Cnt - remCnt = n := ⟨_, rfl⟩
  rw [hbufSize] at hfits
  rw [hbufSize, hremCnt, hrem,
    @pjmediaCopySamples_ok (eraseBuf w erase) a 0 buf1 _ 0 _ rfl rfl (by omega) (by omega) hfirst, ok_bind,
    @pjmediaCopySamples_ok _ a buf1Cnt buf2 _ _ _ rfl rfl (by omega) (by dsimp only; omega) (by omega), ok_bind]
  dsimp only
  -- the samples are those of `erase_buf` and the remaining ones
  obtain ⟨e, he⟩ : ∃ e : Samples, e = { eraseBuf w erase with
      cell := splice (splice (eraseBuf w erase).cell a.cell 0 buf1 buf1Cnt) a.cell buf1Cnt buf2
        (bufSize - buf1Cnt) } := ⟨_, rfl⟩
  have hesize : e.size = w.samplesPerFrame * 3 := by rw [he, hsize]
  have hsamples : regionSamples a.cell buf1 buf1Cnt buf2 buf2Cnt = seg e.cell 0 bufSize ++ seg a.cell rem remCnt := by
    rw [he, seg_split (show buf1Cnt ≤ bufSize by omega)]
    dsimp only
    unfold regionSamples
    rw [seg_splice_apart (by omega), seg_splice, Nat.zero_add, seg_splice, List.append_assoc,
      seg_split (show bufSize - buf1Cnt ≤ buf2Cnt by omega)]
    congr 3
    · omega
    · omega
  have hback : ∀ (e' : Samples) (n : Nat), e'.size = e.size → n ≤ bufSize →
      ∃ a', copyBack a e' buf1 buf1Cnt buf2 n rem remCnt = .ok a' ∧ a'.size = a.size ∧
        (regionSamples a'.cell buf1 buf1Cnt buf2 buf2Cnt).take (n + remCnt)
          = seg e'.cell 0 n ++ seg a.cell rem remCnt := by
    intro e' n he' hn
    exact copyBack_ok h (by omega) (by omega) (by omega) (by omega) (by omega) (by omega) (by omega)
  rw [← he]
  rcases @compress_fits w m e choices delCnt 0 bufSize hw (by omega) (by omega) hdel hfits
    with hnone | ⟨del, hsome, hge, hlt, hshort⟩
  · rcases hback e bufSize rfl (le_refl _) with ⟨a', hcopy, hsize', htake⟩
    rw [hnone, ok_bind]
    dsimp only
    rw [Nat.sub_zero, hcopy, ok_bind]
    refine ⟨_, rfl, discards_none hsize' ?_⟩
    rw [List.take_of_length_le (by rw [regionSamples_length]; omega)] at htake
    rw [htake, hsamples]
  · rcases hback { e with cell := cutCells w m e.cell 0 bufSize del } (bufSize - del) rfl (by omega)
      with ⟨a', hcopy, hsize', htake⟩
    rw [hsome, ok_bind]
    dsimp only at hcopy htake ⊢
    rw [hcopy, ok_bind]
    refine ⟨_, rfl, discards_some hsize' hdel hge ?_⟩
    rw [show buf1Cnt + buf2Cnt - del = bufSize - del + remCnt by omega, htake, hsamples]
    simpa using (compress_cut hlt.le hshort).append [] (seg a.cell rem remCnt)

/-- Where `compress` can work on the samples that it is given, **discarding leaves a cut**, or the samples as
they were. -/
theorem discard_cuts (hw : Dims w) (h : Regions a.size buf1 buf1Cnt buf2 buf2Cnt) (hdel : 0 < delCnt)
    (hfits : ∀ count ∈ scanned w buf1Cnt buf2Cnt, Fits w delCnt count) :
    ∃ r, pjmediaWsolaDiscard w m choices erase a buf1 buf1Cnt buf2 buf2Cnt delCnt = .ok r ∧
      Discards w m a buf1 buf1Cnt buf2 buf2Cnt delCnt r := by
  have hframe := hw.frame_lt
  have hreturn : ∀ {x : Except Fault (Samples × Nat)},
      (∃ r, x = .ok r ∧ Discards w m a buf1 buf1Cnt buf2 buf2Cnt delCnt (discarded r)) →
      ∃ r, (do let r ← x; .ok (discarded r)) = .ok r ∧ Discards w m a buf1 buf1Cnt buf2 buf2Cnt delCnt r := by
    rintro x ⟨r, rfl, hr⟩
    exact ⟨_, rfl, hr⟩
  rcases @discard_ways w buf1 buf1Cnt buf2 buf2Cnt delCnt hdel with
    ⟨-, status, hs, hdiscard⟩ | ⟨hnone, hscanned, hdiscard⟩ | ⟨hscanned, hdiscard⟩ |
    ⟨hshort2, hscanned, hdiscard⟩ | ⟨hshort1, hshort2, hpos, hscanned, hdiscard⟩
  · rw [hdiscard]
    exact ⟨_, rfl, rfl, by rw [if_neg hs]⟩
  · subst hnone
    rw [hdiscard]
    exact hreturn (discard_contiguous hw h hdel (hfits _ hscanned))
  · rw [hdiscard]
    exact hreturn (discard_second hw h hdel (hfits _ hscanned))
  · rw [hdiscard]
    exact hreturn (discard_first hw h hdel (by unfold eraseCnt at hshort2; omega) (hfits _ hscanned))
  · rw [hdiscard]
    exact hreturn (discard_combined hw h hdel hshort1 hshort2 hpos (hfits _ hscanned))

end Wsola
