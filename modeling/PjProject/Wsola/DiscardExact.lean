import PjProject.Wsola.DiscardCut
import PjProject.Wsola.Invariant

set_option autoImplicit false

/-! # When discarding works

`compress` is given samples that it cannot work on in three ways: `hanning_size + del_cnt` wraps, so that
samples that are too few are not; its template is shorter than eight samples; or it moves `2^31` samples or
more. In the first two discarding does not come back (`discard_faults`), in the third it leaves the end of
the samples where it was (`discard_misplaces`). Otherwise it works, so that the condition is exact
(`discard_cuts_iff`). Then `shrink_buffer` cuts the samples of its circular buffer (`shrinkBuffer_cuts`).
-/

namespace Wsola

open MachineInt Outcome Segment Crossfade

variable {w : PjmediaWsola} {m : Mixing} {a : Samples} {choices : Nat → Nat} {erase : Nat → Int16}
variable {size buf1 buf1Cnt buf2 buf2Cnt delCnt count : Nat}

/-! ## Faults -/

/-- Where `compress` does not come back, nor does discarding. -/
theorem discard_faults (hw : Dims w) (h : Regions a.size buf1 buf1Cnt buf2 buf2Cnt) (hdel : 0 < delCnt)
    (hscanned : scanned w buf1Cnt buf2Cnt = some count) (hfew : uint32 (w.hanningSize + delCnt : Nat) < count)
    (hbad : w.templSize < 8 ∨ 4294967296 ≤ w.hanningSize + delCnt) :
    ∃ e, pjmediaWsolaDiscard w m choices erase a buf1 buf1Cnt buf2 buf2Cnt delCnt = .error e := by
  have hframe := hw.frame_lt
  have hfirst := h.first
  have hsecond := h.second
  have hcompress : ∀ (b : Samples) (buf : Nat), count < 4294967296 →
      ∃ e, compress w m choices b buf count delCnt = .error e :=
    fun b buf hcount => compress_faults hw hcount hdel hfew hbad
  rcases @discard_ways w buf1 buf1Cnt buf2 buf2Cnt delCnt hdel with
    ⟨hnone, -⟩ | ⟨-, hsome, hdiscard⟩ | ⟨hsome, hdiscard⟩ | ⟨-, hsome, hdiscard⟩ |
    ⟨hshort1, hshort2, hpos, hsome, hdiscard⟩
  · rw [hnone] at hscanned
    cases hscanned
  · obtain rfl := Option.some.inj (hscanned.symm.trans hsome)
    rcases hcompress a buf1 h.cnt1 with ⟨e, he⟩
    rw [hdiscard, he]
    exact ⟨e, rfl⟩
  · obtain rfl := Option.some.inj (hscanned.symm.trans hsome)
    rcases hcompress a buf2 h.cnt2 with ⟨e, he⟩
    rw [hdiscard, he]
    exact ⟨e, rfl⟩
  · obtain rfl := Option.some.inj (hscanned.symm.trans hsome)
    rcases hcompress a buf1 h.cnt1 with ⟨e, he⟩
    rw [hdiscard]
    unfold discardFirst
    rw [he]
    exact ⟨e, rfl⟩
  · have hframes : eraseCnt * w.samplesPerFrame = w.samplesPerFrame * 3 := by
      unfold eraseCnt
      omega
    have hsize : (eraseBuf w erase).size = w.samplesPerFrame * 3 := rfl
    have hcount := Option.some.inj (hsome.symm.trans hscanned)
    rw [hdiscard]
    unfold discardCombined
    dsimp only
    rw [uint32_natCast (by omega), hcount,
      @pjmediaCopySamples_ok (eraseBuf w erase) a 0 buf1 _ 0 _ rfl rfl (by omega) (by omega) hfirst, ok_bind,
      @pjmediaCopySamples_ok _ a buf1Cnt buf2 _ _ _ rfl rfl (by omega) (by dsimp only; omega) (by omega), ok_bind]
    rcases hcompress { eraseBuf w erase with
      cell := splice (splice (eraseBuf w erase).cell a.cell 0 buf1 buf1Cnt) a.cell buf1Cnt buf2
        (count - buf1Cnt) } 0 (by omega) with ⟨e, he⟩
    rw [he]
    exact ⟨e, rfl⟩

/-! ## Misplaced samples -/

/-- Mixing that takes the samples behind the seam. -/
def behind : Mixing := ⟨fun _ _ _ r => r, fun _ _ _ r => r⟩

theorem mix_behind : w.mix behind = fun _ _ r => r := by
  unfold PjmediaWsola.mix
  split
  · rfl
  · rfl

/-- Ones at both ends of the `count` samples from `buf` on. -/
def ends (buf count : Nat) : Nat → Int16 := fun p => if p = buf ∨ p + 1 = buf + count then 1 else 0

/-- Between the ends there are zeros, and after samples that should have been moved were not, one is left
at the end. -/
theorem cutCells_ends {buf : Nat} (hhanning : 0 < w.hanningSize) (hdel : 0 < delCnt)
    (hlong : 2147483648 ≤ count - w.hanningSize - delCnt) (hcount : count < 4294967296) :
    cutCells w behind (ends buf count) buf count delCnt buf = 0 ∧
      cutCells w behind (ends buf count) buf count delCnt (buf + (count - delCnt - 1)) = 0 := by
  have hcopied : copiedCnt (count - w.hanningSize - delCnt) = count - w.hanningSize - delCnt - 2147483648 := by
    unfold copiedCnt uint32
    omega
  unfold cutCells
  rw [hcopied, mix_behind, splice_apart (by omega), splice_apart (by omega), overlappAdd_apply (by omega),
    overlappAdd_apply (by omega), if_pos (by omega), if_neg (by omega)]
  unfold ends
  constructor
  · rw [if_neg (by omega)]
  · rw [if_neg (by omega)]

theorem regionSamples_first {cell : Nat → Int16} {i : Nat} (h : i < buf1Cnt) :
    (regionSamples cell buf1 buf1Cnt buf2 buf2Cnt)[i]? = some (cell (buf1 + i)) := by
  unfold regionSamples
  rw [List.getElem?_append_left (by rw [seg_length]; exact h), seg_getElem? h]

theorem regionSamples_second {cell : Nat → Int16} {i : Nat} (h : i < buf2Cnt) :
    (regionSamples cell buf1 buf1Cnt buf2 buf2Cnt)[buf1Cnt + i]? = some (cell (buf2 + i)) := by
  unfold regionSamples
  rw [List.getElem?_append_right (by rw [seg_length]; omega), seg_length, Nat.add_sub_cancel_left, seg_getElem? h]

/-- A one at the front and a one at the end cannot both be cut out. -/
theorem not_cut_of_ends {h : Nat} {s r : List Int16} {o : Nat} (hdel : delCnt < count)
    (hfront : s[o]? = some 1) (hend : s[o + (count - 1)]? = some 1) (hfront' : r[o]? = some 0)
    (hend' : r[o + (count - delCnt - 1)]? = some 0) : ¬ Cut (fun _ _ y => y) h delCnt s r := by
  intro hcut
  rcases hcut.getElem?_of_right with ⟨p, hp⟩
  have h1 := hp o
  have h2 := hp (o + (count - delCnt - 1))
  rw [show o + (count - delCnt - 1) + delCnt = o + (count - 1) by omega, hend, hend'] at h2
  rw [hfront, hfront'] at h1
  by_cases hfirst : o < p
  · rw [if_pos hfirst] at h1
    cases h1
  · rw [if_neg (by omega)] at h2
    cases h2

/-- Where `2^31` samples or more are to be moved, **what discarding leaves is no cut**: it deletes `delCnt`
samples at least, but those at the end stay where they are. -/
theorem discard_misplaces (hw : Dims w) (h : Regions size buf1 buf1Cnt buf2 buf2Cnt) (hdel : 0 < delCnt)
    (hscanned : scanned w buf1Cnt buf2Cnt = some count) (hsum : w.hanningSize + delCnt < count)
    (htempl : 8 ≤ w.templSize) (hlong : 2147483648 ≤ count - w.hanningSize - delCnt) :
    ∃ cell : Nat → Int16, ∀ r,
      pjmediaWsolaDiscard w behind (fun _ => 0) erase ⟨size, cell⟩ buf1 buf1Cnt buf2 buf2Cnt delCnt = .ok r →
        ¬ Discards w behind ⟨size, cell⟩ buf1 buf1Cnt buf2 buf2Cnt delCnt r := by
  have hframe := hw.frame_lt
  have hhanning : 0 < w.hanningSize := by
    have hle := hw.templ_le
    omega
  have hcompress : ∀ buf, buf + count ≤ size → count < 4294967296 →
      compress w behind (fun _ => 0) ⟨size, ends buf count⟩ buf count delCnt
        = .ok (⟨size, cutCells w behind (ends buf count) buf count delCnt⟩, delCnt) := by
    intro buf hin hcount
    rcases @compress_found w behind ⟨size, ends buf count⟩ buf count delCnt (fun _ => 0) hw hin hcount hdel
      htempl hsum with ⟨dist, hdist, -, -, hzero⟩
    obtain rfl := hzero rfl
    exact hdist
  -- the samples that are returned, if they begin and end with a zero where there was a one
  have hnot : ∀ (cell : Nat → Int16) (a' : Samples) (o : Nat),
      (regionSamples cell buf1 buf1Cnt buf2 buf2Cnt)[o]? = some 1 →
      (regionSamples cell buf1 buf1Cnt buf2 buf2Cnt)[o + (count - 1)]? = some 1 →
      ((regionSamples a'.cell buf1 buf1Cnt buf2 buf2Cnt).take (buf1Cnt + buf2Cnt - delCnt))[o]? = some 0 →
      ((regionSamples a'.cell buf1 buf1Cnt buf2 buf2Cnt).take
        (buf1Cnt + buf2Cnt - delCnt))[o + (count - delCnt - 1)]? = some 0 →
      ¬ Discards w behind ⟨size, cell⟩ buf1 buf1Cnt buf2 buf2Cnt delCnt (discarded (a', delCnt)) := by
    intro cell a' o h1 h2 h3 h4 hdiscards
    have hstatus : (discarded (a', delCnt)).status = .success := if_pos hdel
    have hcut := hdiscards.2
    rw [if_pos hstatus, mix_behind] at hcut
    exact not_cut_of_ends (by omega) h1 h2 h3 h4 hcut.2
  have hfront : ∀ buf, ends buf count buf = 1 := fun buf => if_pos (.inl rfl)
  have hback : ∀ buf, ends buf count (buf + (count - 1)) = 1 := fun buf => if_pos (.inr (by omega))
  rcases @discard_ways w buf1 buf1Cnt buf2 buf2Cnt delCnt hdel with
    ⟨hnone, -⟩ | ⟨-, hsome, hdiscard⟩ | ⟨hsome, hdiscard⟩ | ⟨hshort2, hsome, hdiscard⟩ | ⟨-, -, -, hsome, -⟩
  · rw [hnone] at hscanned
    cases hscanned
  · obtain rfl := Option.some.inj (hscanned.symm.trans hsome)
    rcases @cutCells_ends w delCnt count buf1 hhanning hdel hlong h.cnt1 with ⟨h1, h2⟩
    refine ⟨ends buf1 count, fun r hr => ?_⟩
    rw [hdiscard, hcompress buf1 h.first h.cnt1, ok_bind] at hr
    obtain rfl := Except.ok.inj hr
    refine hnot _ _ 0 ?_ ?_ ?_ ?_
    · rw [regionSamples_first (by omega), Nat.add_zero, hfront]
    · rw [regionSamples_first (by omega), Nat.zero_add, hback]
    · rw [List.getElem?_take_of_lt (by omega), regionSamples_first (by omega), Nat.add_zero]
      exact congrArg some h1
    · rw [List.getElem?_take_of_lt (by omega), regionSamples_first (by omega), Nat.zero_add]
      exact congrArg some h2
  · obtain rfl := Option.some.inj (hscanned.symm.trans hsome)
    rcases @cutCells_ends w delCnt count buf2 hhanning hdel hlong h.cnt2 with ⟨h1, h2⟩
    refine ⟨ends buf2 count, fun r hr => ?_⟩
    rw [hdiscard, hcompress buf2 h.second h.cnt2, ok_bind] at hr
    obtain rfl := Except.ok.inj hr
    refine hnot _ _ buf1Cnt ?_ ?_ ?_ ?_
    · exact (@regionSamples_second _ _ _ _ _ 0 (by omega)).trans (congrArg some (hfront buf2))
    · rw [regionSamples_second (by omega), hback]
    · rw [List.getElem?_take_of_lt (by omega)]
      exact (@regionSamples_second _ _ _ _ _ 0 (by omega)).trans (congrArg some h1)
    · rw [List.getElem?_take_of_lt (by omega), regionSamples_second (by omega)]
      exact congrArg some h2
  · obtain rfl := Option.some.inj (hscanned.symm.trans hsome)
    rcases @cutCells_ends w delCnt count buf1 hhanning hdel hlong h.cnt1 with ⟨h1, h2⟩
    rcases @closeGap_ok ⟨size, cutCells w behind (ends buf1 count) buf1 count delCnt⟩ buf1 count buf2 buf2Cnt
      delCnt h (by unfold eraseCnt at hshort2; omega) (by omega) with ⟨a', hclose, -, hsamples⟩
    refine ⟨ends buf1 count, fun r hr => ?_⟩
    rw [hdiscard] at hr
    unfold discardFirst at hr
    rw [hcompress buf1 h.first h.cnt1, ok_bind] at hr
    dsimp only at hr
    rw [hclose] at hr
    obtain rfl := Except.ok.inj hr
    refine hnot _ _ 0 ?_ ?_ ?_ ?_
    · rw [regionSamples_first (by omega), Nat.add_zero, hfront]
    · rw [regionSamples_first (by omega), Nat.zero_add, hback]
    · rw [hsamples, List.getElem?_append_left (by rw [seg_length]; omega), seg_getElem? (by omega), Nat.add_zero]
      exact congrArg some h1
    · rw [hsamples, List.getElem?_append_left (by rw [seg_length]; omega), seg_getElem? (by omega), Nat.zero_add]
      exact congrArg some h2
  · have hcount := Option.some.inj (hscanned.symm.trans hsome)
    unfold eraseCnt at hcount
    omega

/-! ## The exact condition -/

/-- **Discarding does not depend on where the buffer wraps.** For all samples, places that are picked and
mixings it leaves a cut, or the samples as they were, if and only if `compress` can work on as many samples
as it is given. -/
theorem discard_cuts_iff (hw : Dims w) (h : Regions size buf1 buf1Cnt buf2 buf2Cnt) (hdel : 0 < delCnt) :
    (∀ (m : Mixing) (choices : Nat → Nat) (erase cell : Nat → Int16),
      ∃ r, pjmediaWsolaDiscard w m choices erase ⟨size, cell⟩ buf1 buf1Cnt buf2 buf2Cnt delCnt = .ok r ∧
        Discards w m ⟨size, cell⟩ buf1 buf1Cnt buf2 buf2Cnt delCnt r) ↔
      ∀ count ∈ scanned w buf1Cnt buf2Cnt, Fits w delCnt count := by
  constructor
  · intro hall count hscanned
    by_contra hnot
    unfold Fits at hnot
    have hfew : uint32 (w.hanningSize + delCnt : Nat) < count := by
      unfold uint32
      omega
    by_cases hbad : w.templSize < 8 ∨ 4294967296 ≤ w.hanningSize + delCnt
    · rcases hall behind (fun _ => 0) (fun _ => 0) (fun _ => 0) with ⟨r, hr, -⟩
      rcases @discard_faults w behind ⟨size, fun _ => 0⟩ (fun _ => 0) (fun _ => 0) _ _ _ _ _ _ hw h hdel hscanned
        hfew hbad with ⟨e, he⟩
      rw [hr] at he
      cases he
    · rcases @discard_misplaces w (fun _ => 0) _ _ _ _ _ _ _ hw h hdel hscanned (by omega) (by omega) (by omega)
        with ⟨cell, hcell⟩
      rcases hall behind (fun _ => 0) (fun _ => 0) cell with ⟨r, hr, hdiscards⟩
      exact hcell r hr hdiscards
  · intro hfits m choices erase cell
    exact @discard_cuts w m ⟨size, cell⟩ choices erase _ _ _ _ _ hw h hdel hfits

/-- The sizes of `narrowband`, and that it has an `erase_buf`. -/
theorem narrowband_dims :
    Dims narrowband ∧ narrowband.hanningSize = 40 ∧ narrowband.templSize = 40 ∧
      narrowband.samplesPerFrame = 160 ∧ narrowband.options.noDiscard = false :=
  ⟨Dims.of_create (Option.some_get _).symm, by decide +kernel, by decide +kernel, by decide +kernel,
    by decide +kernel⟩

/-- A buffer of 400 samples, of which 380 wrap: they go through `erase_buf`. -/
theorem discard_cuts_narrowband :
    (∀ (m : Mixing) (choices : Nat → Nat) (erase cell : Nat → Int16),
      ∃ r, pjmediaWsolaDiscard narrowband m choices erase ⟨400, cell⟩ 200 200 0 180 80 = .ok r ∧
        Discards narrowband m ⟨400, cell⟩ 200 200 0 180 80 r) ↔
      ∀ count ∈ scanned narrowband 200 180, Fits narrowband 80 count :=
  discard_cuts_iff narrowband_dims.1 ⟨by omega, by omega, .inr (by omega), by omega, by omega⟩ (by omega)

/-- A request of `2^32 - 1` samples wraps the sum with the window, so that 480 samples are searched behind
their end. -/
theorem discard_wraps (m : Mixing) (choices : Nat → Nat) (erase cell : Nat → Int16) :
    ∃ e, pjmediaWsolaDiscard narrowband m choices erase ⟨480, cell⟩ 0 480 0 0 4294967295 = .error e := by
  obtain ⟨hdims, hhanning, htempl, -, -⟩ := narrowband_dims
  refine @discard_faults narrowband m ⟨480, cell⟩ choices erase 0 480 0 0 4294967295 480 hdims
    ⟨Nat.le_refl _, Nat.zero_le _, .inr (Nat.le_refl _), by decide, by decide⟩ (by decide) rfl ?_ (.inr ?_)
  · rw [hhanning]
    decide +kernel
  · rw [hhanning]
    decide

theorem not_discards_wraps :
    ¬ ∀ (m : Mixing) (choices : Nat → Nat) (erase cell : Nat → Int16),
      ∃ r, pjmediaWsolaDiscard narrowband m choices erase ⟨480, cell⟩ 0 480 0 0 4294967295 = .ok r ∧
        Discards narrowband m ⟨480, cell⟩ 0 480 0 0 4294967295 r := by
  intro hall
  rcases hall behind (fun _ => 0) (fun _ => 0) (fun _ => 0) with ⟨r, hr, -⟩
  rcases discard_wraps behind (fun _ => 0) (fun _ => 0) (fun _ => 0) with ⟨e, he⟩
  rw [hr] at he
  cases he

/-! ## The delay buffer -/

/-- The read regions of a circular buffer are regions of its array. -/
theorem PjmediaCircBuf.Ok.regions {cb : PjmediaCircBuf} (h : cb.Ok) (hcap : cb.capacity < 4294967296) :
    Regions cb.capacity cb.start (circBufGetReadRegions cb.toCircBuf).1 0
      (circBufGetReadRegions cb.toCircBuf).2 := by
  have hl := h.len_le
  have hsum := h.regions_add
  refine ⟨hsum.2, by omega, .inr ?_, by omega, by omega⟩
  unfold circBufGetReadRegions
  split
  · dsimp only
    omega
  · dsimp only
    omega

/-- **Shrinking cuts the samples of the circular buffer**, at least as many as it was asked for, or leaves
them as they are. -/
theorem shrinkBuffer_cuts {cb : PjmediaCircBuf} {eraseCnt : Nat} (hw : Dims w) (h : cb.Ok)
    (hcap : cb.capacity < 4294967296) (herase : 0 < eraseCnt) (hlen : 0 < cb.len)
    (hfits : ∀ count ∈ scanned w (circBufGetReadRegions cb.toCircBuf).1 (circBufGetReadRegions cb.toCircBuf).2,
      Fits w eraseCnt count) :
    ∃ cb' : PjmediaCircBuf, shrinkBuffer w m choices erase cb eraseCnt = .ok cb' ∧ cb'.Ok ∧
      cb'.capacity = cb.capacity ∧
      (cb'.content = cb.content ∨
        ∃ d, eraseCnt ≤ d ∧ Cut (w.mix m) w.hanningSize d cb.content cb'.content) := by
  have hl := h.len_le
  have hsum := h.regions_add
  rcases @discard_cuts w m cb.buf choices erase cb.start _ 0 _ eraseCnt hw (h.regions hcap) herase hfits
    with ⟨r, hr, -, hdiscards⟩
  -- the regions of the buffer with the new samples are the old ones
  have hcontent : ∀ cell : Nat → Int16, ({ cb with cell := cell } : PjmediaCircBuf).content =
      regionSamples cell cb.start (circBufGetReadRegions cb.toCircBuf).1 0
        (circBufGetReadRegions cb.toCircBuf).2 :=
    fun cell => @PjmediaCircBuf.Ok.content_eq { cb with cell := cell } h
  have hold := h.content_eq
  unfold shrinkBuffer
  rw [if_neg (by omega)]
  dsimp only
  rw [hr, ok_bind]
  by_cases hs : r.status = .success
  · rw [if_pos hs] at hdiscards
    obtain ⟨hge, hcut⟩ := hdiscards
    have hlength := hcut.length
    rw [regionSamples_length, hsum.1] at hlength
    rw [if_pos ⟨hs, by omega⟩]
    refine ⟨_, rfl, ?_⟩
    have huint : uint32 ((cb.len : Int) - r.delCnt) = cb.len - r.delCnt := by
      rw [← Nat.cast_sub (by omega)]
      exact uint32_natCast (by omega)
    rw [huint]
    refine ⟨⟨h.start_lt, show cb.len - r.delCnt ≤ cb.capacity by omega⟩, rfl, .inr ⟨r.delCnt, hge, ?_⟩⟩
    have htake : (pjmediaCircBufSetLen { cb with cell := r.buf.cell } (cb.len - r.delCnt)).content
        = (regionSamples r.buf.cell cb.start (circBufGetReadRegions cb.toCircBuf).1 0
            (circBufGetReadRegions cb.toCircBuf).2).take (cb.len - r.delCnt) := by
      rw [← hcontent]
      exact (Circular.window_take _ _ _ (Nat.sub_le _ _)).symm
    rw [htake, ← hsum.1, hold]
    exact hcut
  · rw [if_neg hs] at hdiscards
    rw [if_neg (fun hc => hs hc.1)]
    refine ⟨_, rfl, h, rfl, .inl ?_⟩
    rw [hcontent, hdiscards, hold]
    rfl

end Wsola
