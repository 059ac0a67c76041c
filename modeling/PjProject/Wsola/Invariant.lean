import PjProject.Library.Run
import PjProject.Wsola.Wsola

set_option autoImplicit false

/-! # The length of the buffer

Between the operations the buffer holds the history and the samples of one window, and has room for a
frame (`Sound`). An expansion makes more than it is asked for, by less than the largest distance of the
search; the buffer is large enough for this even if the window is a whole frame.

One lemma for each operation says that it succeeds and what length it leaves.
-/

namespace Wsola

open MachineInt Outcome

/-! ## What `pjmedia_wsola_create` sets up -/

/-- The sizes for frames of `f` samples and a window of `n`. -/
structure Sizes (f n : Nat) (w : PjmediaWsola) : Prop where
  frame : w.samplesPerFrame = f
  small : 6 * f < 65536
  capacity : w.buf.capacity = 6 * f
  bufSize : w.bufSize = 6 * f
  hanning : w.hanningSize = n
  extra : w.minExtra = n
  window_le : n ≤ f
  templ_ge : 8 ≤ w.templSize
  templ_le : w.templSize ≤ n
  hist : w.histSize = 3 * f / 2
  minDist : w.expandSrMinDist = f / 2
  maxDist : w.expandSrMaxDist = 3 * f / 2
  fade : w.fadeOutPos ≤ w.maxExpandCnt

variable {f n : Nat} {w : PjmediaWsola}

theorem Sizes.frame_ge (h : Sizes f n w) : 8 ≤ f := by
  have h1 := h.templ_ge
  have h2 := h.templ_le
  have h3 := h.window_le
  omega

/-- Only the buffer and the place of the fade-out change. -/
theorem Sizes.update (h : Sizes f n w) {buf : CircBuf} (hcap : buf.capacity = w.buf.capacity) {pos : Nat}
    (hpos : pos ≤ w.maxExpandCnt) : Sizes f n { w with buf := buf, fadeOutPos := pos } :=
  { h with
    capacity := hcap.trans h.capacity
    fade := hpos }

/-- The state between two operations. -/
structure Sound (f n : Nat) (w : PjmediaWsola) : Prop where
  sizes : Sizes f n w
  buf : w.buf.Ok
  len_ge : 3 * f / 2 + n ≤ w.buf.len
  len_le : w.buf.len ≤ 5 * f

/-! ## Expanding -/

theorem findPitch_ok {size : Nat} {frm start stop : Int} {templateCnt : Nat} (choice : Nat)
    (h8 : 8 ≤ templateCnt) (hlt : start < stop) (h0 : 0 ≤ start) (hfrm : stop ≤ frm)
    (hend : frm + templateCnt ≤ size) :
    ∃ pos, findPitch size frm start stop templateCnt choice = .ok pos ∧ start ≤ pos ∧ pos < stop := by
  unfold findPitch
  rw [if_neg (by omega), if_neg (by omega), if_neg (by omega), access_ok (by omega) hend, ok_bind,
    access_ok h0 (by omega), ok_bind]
  have hpos : (0 : Int) < stop - start := by omega
  have h1 := Int.emod_nonneg (choice : Int) (show stop - start ≠ 0 by omega)
  have h2 := Int.emod_lt_of_pos (choice : Int) hpos
  exact ⟨_, rfl, by omega, by omega⟩

/-- **One pass** makes new samples, at most the largest distance. -/
theorem expandOnce_ok (h : Sizes f n w) {reg1Len : Nat} (choice : Nat)
    (hge : 3 * f / 2 + n ≤ reg1Len) (hle : reg1Len + 3 * f / 2 ≤ 6 * f) :
    ∃ dist, expandOnce w 0 reg1Len choice = .ok dist ∧ 0 < dist ∧ dist ≤ 3 * f / 2 := by
  have hf := h.frame_ge
  have hcap := h.capacity
  have hsize := h.bufSize
  have hsmall := h.small
  have htl := h.templ_le
  unfold expandOnce
  rw [h.hanning, h.maxDist, h.minDist]
  dsimp only
  rcases @findPitch_ok w.buf.capacity (0 + (reg1Len : Int) - n)
    (0 + (reg1Len : Int) - n - (3 * f / 2 : Nat)) (0 + (reg1Len : Int) - n - (f / 2 : Nat)) w.templSize
    choice h.templ_ge (by omega) (by omega) (by omega) (by omega) with ⟨pos, hpos, hlo, hhi⟩
  rcases Int.eq_ofNat_of_zero_le (show 0 ≤ 0 + (reg1Len : Int) - n - pos by omega) with ⟨dist, hdist⟩
  have hu : uint32 (dist : Int) = dist := uint32_natCast (by omega)
  have hsum : uint32 ((reg1Len + dist : Nat) : Int) = reg1Len + dist := uint32_natCast (by omega)
  rw [hpos, ok_bind, access_ok (by omega) (by omega), ok_bind, access_ok (by omega) (by omega), ok_bind,
    hdist, hu, hsum, if_neg (by omega), access_ok (by omega) (by omega), ok_bind,
    access_ok (by omega) (by omega), ok_bind, ok_bind]
  exact ⟨dist, rfl, by omega, by omega⟩

/-- **The loop** ends with at least what is needed, and less than the largest distance more. -/
theorem expandLoop_ok (h : Sizes f n w) {len needed : Nat} (choices : Nat → Nat)
    (hge : 3 * f / 2 + n ≤ len) (hle : len + needed ≤ 3 * f / 2 + f + 2 * n) (hneed : 0 < needed) :
    ∀ (fuel rep generated : Nat), generated < needed → needed ≤ fuel + generated →
      ∃ len', expandLoop w 0 needed choices fuel rep (len + generated) generated = .ok len' ∧
        len + needed ≤ len' ∧ len' < len + needed + 3 * f / 2
  | 0, _, _, hlt, hfuel => by omega
  | fuel + 1, rep, generated, hlt, hfuel => by
      have hf := h.frame_ge
      have hsmall := h.small
      have hn := h.window_le
      rcases expandOnce_ok h (choices rep) (show 3 * f / 2 + n ≤ len + generated by omega)
        (by omega) with ⟨dist, hdist, hpos, hmax⟩
      unfold expandLoop
      rw [hdist, ok_bind, uint32_natCast (by omega), uint32_natCast (by omega)]
      by_cases hdone : needed ≤ generated + dist
      · rw [if_pos hdone]
        exact ⟨_, rfl, by omega, by omega⟩
      · rw [if_neg hdone, Nat.add_assoc]
        exact expandLoop_ok h choices hge hle hneed fuel (rep + 1) (generated + dist) (by omega)
          (by omega)

theorem expand_ok (h : Sizes f n w) (hbuf : w.buf.Ok) {needed fuel : Nat} (choices : Nat → Nat)
    (hge : 3 * f / 2 + n ≤ w.buf.len) (hle : w.buf.len + needed ≤ 3 * f / 2 + f + 2 * n)
    (hneed : 0 < needed) (hfuel : 6 * f ≤ fuel) :
    ∃ len, expand fuel w needed choices =
        .ok { w with buf := { w.buf with start := 0, len := len } } ∧
      w.buf.len + needed ≤ len ∧ len < w.buf.len + needed + 3 * f / 2 := by
  have hf := h.frame_ge
  have hn := h.window_le
  have hcap := h.capacity
  unfold expand
  rw [circBufPackBuffer_ok hbuf (by omega) (by omega), ok_bind]
  have hregions : (circBufGetReadRegions { w.buf with start := 0 }).1 = w.buf.len := by
    have hl := hbuf.len_le
    unfold circBufGetReadRegions
    dsimp only
    rw [if_neg (by omega)]
  dsimp only
  rw [hregions]
  have hsizes : Sizes f n { w with buf := { w.buf with start := 0 } } :=
    @Sizes.update f n w h { w.buf with start := 0 } rfl w.fadeOutPos h.fade
  rcases expandLoop_ok hsizes choices hge hle hneed fuel 1 0 (by omega) (by omega) with
    ⟨len, hlen, hlo, hhi⟩
  rw [Nat.add_zero] at hlen
  simp only [Nat.cast_zero]
  rw [hlen, ok_bind]
  exact ⟨len, rfl, hlo, hhi⟩

/-! ## Fading and merging -/

/-- The last samples of the buffer lie in one region or in both. -/
theorem regions_sum (hbuf : w.buf.Ok) :
    (circBufGetReadRegions w.buf).1 + (circBufGetReadRegions w.buf).2 = w.buf.len ∧
      w.buf.start + (circBufGetReadRegions w.buf).1 ≤ w.buf.capacity ∧
      (circBufGetReadRegions w.buf).2 ≤ w.buf.capacity := by
  have hs := hbuf.start_lt
  have hl := hbuf.len_le
  unfold circBufGetReadRegions
  split
  · dsimp only
    omega
  · dsimp only
    omega

theorem fadeOutTail_ok (hbuf : w.buf.Ok) {count : Nat} (hle : count ≤ w.buf.len) :
    fadeOutTail w count = .ok { w with fadeOutPos := w.fadeOutPos - count } := by
  rcases regions_sum hbuf with ⟨hsum, h1, h2⟩
  unfold fadeOutTail wsolaFadeOut
  dsimp only
  by_cases h0 : (circBufGetReadRegions w.buf).2 = 0
  · rw [if_pos h0, access_ok (by omega) (by omega), ok_bind]
  by_cases hin : count ≤ (circBufGetReadRegions w.buf).2
  · rw [if_neg h0, if_pos hin, access_ok (by omega) (by omega), ok_bind]
  · rw [if_neg h0, if_neg hin, access_ok (by omega) (by omega), ok_bind, ok_bind,
      access_ok (by omega) (by omega), ok_bind]
    dsimp only
    rw [Nat.sub_sub, Nat.sub_add_cancel (by omega)]

theorem mergeWithFrame_ok (h : Sizes f n w) (hbuf : w.buf.Ok) (hle : n ≤ w.buf.len) :
    mergeWithFrame w = .ok () := by
  rcases regions_sum hbuf with ⟨hsum, h1, h2⟩
  unfold mergeWithFrame
  rw [h.extra, h.hanning]
  dsimp only
  by_cases h0 : (circBufGetReadRegions w.buf).2 = 0
  · rw [if_pos h0, access_ok (by omega) (by omega)]
  by_cases hin : n ≤ (circBufGetReadRegions w.buf).2
  · rw [if_neg h0, if_pos hin, access_ok (by omega) (by omega)]
  · rw [if_neg h0, if_neg hin, access_ok (by omega) (by omega), ok_bind,
      access_ok (by omega) (by omega), ok_bind, access_ok (by omega) (by omega), ok_bind,
      access_ok (by omega) (by omega)]

theorem fadeInFrame_ok (h : Sizes f n w) (h0 : w.maxExpandCnt ≠ 0) : fadeInFrame w = .ok () := by
  have hn := h.window_le
  unfold fadeInFrame fadeIn
  rw [if_neg h0, h.frame, h.extra]
  dsimp only
  split
  · exact access_ok (by omega) (by omega)
  · exact access_ok (by omega) (by omega)

/-! ## The operations -/

/-- The fade-in divides by `max_expand_cnt`. -/
def Fades (w : PjmediaWsola) : Prop := w.options.noFading = true ∨ w.maxExpandCnt ≠ 0

instance decidableFades (w : PjmediaWsola) : Decidable (Fades w) :=
  inferInstanceAs (Decidable (_ ∨ _))

theorem trimAfterLoss_spec (h : Sizes f n w) (hge : 3 * f / 2 + 2 * n ≤ w.buf.len) :
    ∃ buf : CircBuf, trimAfterLoss w = { w with buf := buf } ∧ buf.capacity = w.buf.capacity ∧
      buf.start = w.buf.start ∧ buf.len = 3 * f / 2 + 2 * n := by
  have hhist := h.hist
  have hextra := h.extra
  unfold trimAfterLoss
  by_cases hlt : w.histSize + w.minExtra * 2 < w.buf.len
  · rw [if_pos hlt]
    refine ⟨_, rfl, rfl, rfl, ?_⟩
    dsimp only [circBufSetLen]
    omega
  · rw [if_neg hlt]
    exact ⟨w.buf, rfl, rfl, rfl, by omega⟩

theorem fadeOutExtra_ok (h : Sizes f n w) (hbuf : w.buf.Ok) (hge : 2 * n ≤ w.buf.len) :
    ∃ pos, fadeOutExtra w = .ok { w with fadeOutPos := pos } ∧ pos ≤ w.fadeOutPos := by
  have hextra := h.extra
  unfold fadeOutExtra
  split
  · exact ⟨w.fadeOutPos, rfl, Nat.le_refl _⟩
  · rw [fadeOutTail_ok hbuf (by omega)]
    exact ⟨_, rfl, Nat.sub_le _ _⟩

theorem fadeInMerged_eq (h : Sizes f n w) :
    fadeInMerged w = if Fades w then .ok () else .error .divByZero := by
  unfold fadeInMerged
  by_cases hnf : w.options.noFading = true
  · have hf : Fades w := .inl hnf
    rw [if_pos hnf, if_pos hf]
  · rw [if_neg hnf]
    by_cases h0 : w.maxExpandCnt = 0
    · have hf : ¬ Fades w := by simp [Fades, hnf, h0]
      rw [if_neg hf]
      simp [fadeInFrame, h0]
    · have hf : Fades w := .inr h0
      rw [if_pos hf, fadeInFrame_ok h h0]

/-- **Merging after a loss** leaves the history and one window, unless the fade-in divides by zero. -/
theorem mergeAfterLoss_eq (h : Sizes f n w) (hbuf : w.buf.Ok) (hlen : w.buf.len = 3 * f / 2 + 2 * n) :
    ∃ pos, pos ≤ w.fadeOutPos ∧ mergeAfterLoss w =
      if Fades w then
        .ok { w with buf := { w.buf with len := 3 * f / 2 + n }, fadeOutPos := pos }
      else .error .divByZero := by
  have hn := h.window_le
  have hsmall := h.small
  rcases fadeOutExtra_ok h hbuf (by omega) with ⟨pos, hpos, hle⟩
  have hfaded : Sizes f n { w with fadeOutPos := pos } :=
    @Sizes.update f n w h w.buf rfl pos (hle.trans h.fade)
  refine ⟨pos, hle, ?_⟩
  have hu : uint32 ((w.buf.len : Int) - n) = 3 * f / 2 + n := by
    rw [hlen, show ((3 * f / 2 + 2 * n : Nat) : Int) - n = ((3 * f / 2 + n : Nat) : Int) by
      push_cast
      ring]
    exact uint32_natCast (by omega)
  have hfades : Fades { w with fadeOutPos := pos } ↔ Fades w := Iff.rfl
  unfold mergeAfterLoss
  rw [hpos, ok_bind, mergeWithFrame_ok hfaded hbuf (by dsimp only; omega), ok_bind,
    fadeInMerged_eq hfaded]
  by_cases hf : Fades w
  · rw [if_pos (hfades.mpr hf), if_pos hf, ok_bind]
    dsimp only
    rw [h.frame, h.extra, access_ok (by omega) (by omega), ok_bind, hu]
    rfl
  · rw [if_neg (fun hc => hf (hfades.mp hc)), if_neg hf]
    rfl

/-- What an operation leaves: a state between two operations, with the same settings. -/
structure Leaves (f n : Nat) (w w' : PjmediaWsola) : Prop where
  sound : Sound f n w'
  options : w'.options = w.options
  maxExpandCnt : w'.maxExpandCnt = w.maxExpandCnt

theorem Leaves.fades {w' : PjmediaWsola} (h : Leaves f n w w') : Fades w' ↔ Fades w := by
  unfold Fades
  rw [h.options, h.maxExpandCnt]

/-- The frame goes in and another one comes out, so that the length stays. -/
theorem saveFrame_ok (h : Sizes f n w) (hbuf : w.buf.Ok) (hge : 3 * f / 2 + n ≤ w.buf.len)
    (hle : w.buf.len ≤ 5 * f) : ∃ w', saveFrame w = .ok w' ∧ Leaves f n w w' := by
  have hf := h.frame_ge
  have hcap := h.capacity
  have hframe := h.frame
  have hhist := h.hist
  have hext := h.templ_ge
  have htl := h.templ_le
  have hwrite := circBufWrite_ok hbuf (show w.buf.len + w.samplesPerFrame ≤ w.buf.capacity by omega)
  have hbuf' : ({ w.buf with len := w.buf.len + w.samplesPerFrame } : CircBuf).Ok :=
    ⟨hbuf.start_lt, by dsimp only; omega⟩
  have hcopy := circBufCopy_ok hbuf'
    (show w.histSize + w.samplesPerFrame ≤ w.buf.len + w.samplesPerFrame by omega)
  rcases circBufAdvReadPtr_ok hbuf'
    (show w.samplesPerFrame < w.buf.len + w.samplesPerFrame by omega) with ⟨hok, hlen, hcap'⟩
  dsimp only at hlen
  unfold saveFrame
  rw [hwrite, ok_bind, hcopy, ok_bind]
  refine ⟨_, rfl, ⟨h.update hcap' (Nat.le_refl _), hok, ?_, ?_⟩, rfl, rfl⟩
  · dsimp only
    omega
  · dsimp only
    omega

/-- **`pjmedia_wsola_save`**; after a loss it needs an expanded buffer, and the fade-in must not divide by
zero. -/
theorem save_ok (h : Sound f n w) {prevLost : Bool}
    (hlost : prevLost = true → 3 * f / 2 + 2 * n ≤ w.buf.len ∧ Fades w) :
    ∃ w', pjmediaWsolaSave w prevLost = .ok w' ∧ Leaves f n w w' := by
  have hsizes := h.sizes
  have hn := hsizes.window_le
  have hcap := hsizes.capacity
  unfold pjmediaWsolaSave
  cases prevLost with
  | true =>
      rw [if_pos rfl]
      rcases hlost rfl with ⟨hge, hf⟩
      rcases trimAfterLoss_spec hsizes hge with ⟨buf, heq, hbcap, hbstart, hblen⟩
      have hsizes₁ : Sizes f n { w with buf := buf } :=
        hsizes.update hbcap hsizes.fade
      have hstart := h.buf.start_lt
      have hok₁ : buf.Ok := ⟨by omega, by omega⟩
      rcases mergeAfterLoss_eq hsizes₁ hok₁ hblen with ⟨pos, hpos, hmerge⟩
      have hf₁ : Fades { w with buf := buf } := hf
      rw [heq, hmerge, if_pos hf₁, ok_bind]
      have hsizes₂ := @Sizes.update f n { w with buf := buf } hsizes₁
        { buf with len := 3 * f / 2 + n } rfl pos (hpos.trans hsizes.fade)
      rcases saveFrame_ok hsizes₂ ⟨hok₁.start_lt, by dsimp only; omega⟩ (Nat.le_refl _)
        (by dsimp only; omega) with ⟨w', hw', hleaves⟩
      exact ⟨w', hw', hleaves.sound, hleaves.options, hleaves.maxExpandCnt⟩
  | false =>
      rw [if_neg (by simp)]
      by_cases hfading : w.options.noFading = false ∧ w.fadeOutPos ≠ w.maxExpandCnt
      · rw [if_pos hfading]
        have hpos := hsizes.fade
        have h0 : w.maxExpandCnt ≠ 0 := by omega
        have hfade : ∃ pos, saveAfterFading w = .ok { w with fadeOutPos := pos } ∧
            pos ≤ w.fadeOutPos := by
          unfold saveAfterFading
          by_cases hlt : w.histSize < w.buf.len
          · rw [if_pos hlt, fadeOutTail_ok h.buf (Nat.sub_le _ _), ok_bind]
            dsimp only
            rw [fadeInFrame_ok (@Sizes.update f n w hsizes w.buf rfl _ ((Nat.sub_le _ _).trans hpos)) h0,
              ok_bind]
            exact ⟨_, rfl, Nat.sub_le _ _⟩
          · rw [if_neg hlt, ok_bind]
            dsimp only
            rw [fadeInFrame_ok hsizes h0, ok_bind]
            exact ⟨w.fadeOutPos, rfl, Nat.le_refl _⟩
        rcases hfade with ⟨pos, heq, hle⟩
        rw [heq, ok_bind]
        have hsizes₁ := @Sizes.update f n w hsizes w.buf rfl pos (hle.trans hpos)
        rcases saveFrame_ok hsizes₁ h.buf h.len_ge h.len_le with ⟨w', hw', hleaves⟩
        exact ⟨w', hw', hleaves.sound, hleaves.options, hleaves.maxExpandCnt⟩
      · rw [if_neg hfading]
        exact saveFrame_ok hsizes h.buf h.len_ge h.len_le

/-- The frame that comes out of an expanded buffer leaves the history and twice the window. -/
theorem generateFrame_ok (h : Sizes f n w) (hbuf : w.buf.Ok)
    (hge : 3 * f / 2 + f + 2 * n ≤ w.buf.len) :
    ∃ w', generateFrame w = .ok w' ∧ Leaves f n w w' ∧ 3 * f / 2 + 2 * n ≤ w'.buf.len := by
  have hf := h.frame_ge
  have hcap := h.capacity
  have hframe := h.frame
  have hhist := h.hist
  have hlen' := hbuf.len_le
  have hcopy := circBufCopy_ok hbuf (show w.histSize + w.samplesPerFrame ≤ w.buf.len by omega)
  rcases circBufAdvReadPtr_ok hbuf (show w.samplesPerFrame < w.buf.len by omega) with
    ⟨hok, hlen, hcap'⟩
  have hfadepos : w.fadeOutPos - w.samplesPerFrame ≤ w.maxExpandCnt :=
    (Nat.sub_le _ _).trans h.fade
  unfold generateFrame
  rw [hcopy, ok_bind]
  dsimp only
  split
  · refine ⟨_, rfl, ⟨⟨h.update hcap' h.fade, hok, ?_, ?_⟩, rfl, rfl⟩, ?_⟩
    · dsimp only
      omega
    · dsimp only
      omega
    · dsimp only
      omega
  · unfold wsolaFadeOut
    rw [access_ok (by omega) (by omega), ok_bind]
    refine ⟨_, rfl, ⟨⟨h.update hcap' hfadepos, hok, ?_, ?_⟩, rfl, rfl⟩, ?_⟩
    · dsimp only
      omega
    · dsimp only
      omega
    · dsimp only
      omega

/-- **`pjmedia_wsola_generate`**. -/
theorem generate_ok (h : Sound f n w) {fuel : Nat} (hfuel : 6 * f ≤ fuel) (choices : Nat → Nat) :
    ∃ w', pjmediaWsolaGenerate fuel w choices = .ok w' ∧ Leaves f n w w' ∧
      3 * f / 2 + 2 * n ≤ w'.buf.len := by
  have hsizes := h.sizes
  have hsmall := hsizes.small
  have hframe := hsizes.frame
  have hhist := hsizes.hist
  have hext := hsizes.extra
  have hn := hsizes.window_le
  have hge := h.len_ge
  have hle := h.len_le
  have hf := hsizes.frame_ge
  have hsub : (w.buf.len : Int) - w.histSize = ((w.buf.len - w.histSize : Nat) : Int) := by omega
  unfold pjmediaWsolaGenerate
  rw [hsub, uint32_natCast (by omega)]
  dsimp only
  by_cases hlt : w.buf.len - w.histSize < w.samplesPerFrame + w.minExtra * 2
  · rw [if_pos hlt]
    rcases expand_ok hsizes h.buf choices hge
      (show w.buf.len + (w.samplesPerFrame + w.minExtra * 2 - (w.buf.len - w.histSize)) ≤
        3 * f / 2 + f + 2 * n by omega) (by omega) hfuel with ⟨len, hexp, hlo, hhi⟩
    rw [hexp, ok_bind]
    have hcap := hsizes.capacity
    have hstart := h.buf.start_lt
    have hsizes₁ := @Sizes.update f n w hsizes { w.buf with start := 0, len := len } rfl w.fadeOutPos
      hsizes.fade
    rcases generateFrame_ok hsizes₁ ⟨by dsimp only; omega, by dsimp only; omega⟩
      (by dsimp only; omega) with ⟨w', hw', hleaves, hlen⟩
    exact ⟨w', hw', ⟨hleaves.sound, hleaves.options, hleaves.maxExpandCnt⟩, hlen⟩
  · rw [if_neg hlt]
    exact generateFrame_ok hsizes h.buf (by omega)

/-- **`pjmedia_wsola_reset`**. -/
theorem reset_ok (h : Sound f n w) : Leaves f n w (pjmediaWsolaReset w) := by
  have hsizes := h.sizes
  have hhist := hsizes.hist
  have hext := hsizes.extra
  have hn := hsizes.window_le
  have hcap := hsizes.capacity
  have hf := hsizes.frame_ge
  have hsizes' : Sizes f n (pjmediaWsolaReset w) :=
    @Sizes.update f n w hsizes (circBufSetLen (circBufReset w.buf) (w.histSize + w.minExtra)) rfl
      w.maxExpandCnt (Nat.le_refl _)
  refine ⟨⟨hsizes', ⟨?_, ?_⟩, ?_, ?_⟩, rfl, rfl⟩
  all_goals
    dsimp only [pjmediaWsolaReset, circBufSetLen, circBufReset]
    omega

/-- **`pjmedia_wsola_create`** with packet loss concealment. -/
theorem create_ok {clockRate channelCount : Nat} {options : Options}
    (h : pjmediaWsolaCreate clockRate f channelCount options = some w) (hplc : options.noPlc = false)
    (hsmall : 6 * f < 65536) (htempl : 8 ≤ w.templSize) :
    Sound f w.hanningSize w ∧ w.options = options ∧ w.maxExpandCnt = clockRate * 80 / 1000 := by
  unfold pjmediaWsolaCreate at h
  split at h
  next hargs =>
    rcases hargs with ⟨hrate, hframe, hmax, hlt, hch⟩
    dsimp only at h
    split at h
    next hle =>
      simp only [Option.some.injEq] at h
      have hu16 : uint16 f = f := Nat.mod_eq_of_lt (by omega)
      have hsize : uint16 (f * frameCnt) = 6 * f := by
        unfold uint16 frameCnt
        omega
      have hhist : uint16 (3 * f / 2) = 3 * f / 2 := Nat.mod_eq_of_lt (by omega)
      have hmin : uint16 (f / 2) = f / 2 := Nat.mod_eq_of_lt (by omega)
      have hwin : msecSize hanningPtime clockRate channelCount f ≤ f := by
        unfold msecSize
        dsimp only
        rw [hu16]
        split
        · omega
        · omega
      have hexp : uint32 ((clockRate * maxExpandMsec : Nat) : Int) / 1000 = clockRate * 80 / 1000 := by
        rw [uint32_natCast (by unfold maxExpandMsec; omega)]
        rfl
      rw [hexp, hsize, hhist, hu16, hmin, hhist, hplc] at h
      subst h
      dsimp only at htempl ⊢
      refine ⟨⟨⟨rfl, hsmall, rfl, rfl, rfl, rfl, hwin, htempl, hle, rfl, rfl, rfl, ?_⟩, ⟨?_, ?_⟩, ?_, ?_⟩,
        rfl, rfl⟩
      all_goals
        simp only [circBufSetLen, circBufCreate, Bool.not_false, if_true]
        omega
    next => cases h
  next => cases h

end Wsola

/-! ## Runs of saves and losses

A session is a sequence of frames: one that arrived is saved, one that did not is generated, and a save
says whether a generated frame comes before it. `buffer_run_iff`: all such runs keep the buffer within its
bounds, without a range outside of it, a failed copy or a loop that does not end, if and only if the
fade-in of a frame after a loss does not divide by zero, which it does below 13 samples per second.
-/

namespace Wsola

open Machine Outcome

inductive Op where
  | save (prevLost : Bool)
  | generate (choices : Nat → Nat)
  | reset

/-- The state, and whether the last operation was a generate. -/
structure Session where
  wsola : PjmediaWsola
  generated : Bool

def opStep (fuel : Nat) (s : Session) : Op → Except Fault Session
  | .save prevLost => (pjmediaWsolaSave s.wsola prevLost).map fun w => ⟨w, false⟩
  | .generate choices => (pjmediaWsolaGenerate fuel s.wsola choices).map fun w => ⟨w, true⟩
  | .reset => .ok ⟨pjmediaWsolaReset s.wsola, false⟩

/-- Only directly behind a generated frame is the previous one said to be lost. -/
def opAllowed (s : Session) : Op → Prop
  | .save prevLost => prevLost = true → s.generated = true
  | _ => True

/-- The buffer holds the history and the extra samples, and has room for a frame. -/
def Between (w : PjmediaWsola) : Prop :=
  w.histSize + w.minExtra ≤ w.buf.len ∧ w.buf.len + w.samplesPerFrame ≤ w.bufSize

variable {f n : Nat}

theorem Sound.between {w : PjmediaWsola} (h : Sound f n w) : Between w := by
  have h1 := h.sizes.hist
  have h2 := h.sizes.extra
  have h3 := h.sizes.frame
  have h4 := h.sizes.bufSize
  have h5 := h.len_ge
  have h6 := h.len_le
  constructor
  · omega
  · omega

/-- The invariant of a session. -/
structure SessionSound (f n : Nat) (s : Session) : Prop where
  sound : Sound f n s.wsola
  fades : Fades s.wsola
  expanded : s.generated = true → 3 * f / 2 + 2 * n ≤ s.wsola.buf.len

/-- **One operation.** -/
theorem opStep_ok {fuel : Nat} (hfuel : 6 * f ≤ fuel) {s : Session} (h : SessionSound f n s) {op : Op}
    (hop : opAllowed s op) : ∃ s', opStep fuel s op = .ok s' ∧ SessionSound f n s' := by
  cases op with
  | save prevLost =>
      rcases @save_ok f n s.wsola h.sound prevLost (fun hl => ⟨h.expanded (hop hl), h.fades⟩) with
        ⟨w, hw, hleaves⟩
      refine ⟨⟨w, false⟩, by simp [opStep, hw, Except.map], hleaves.sound, hleaves.fades.mpr h.fades, ?_⟩
      simp
  | generate choices =>
      rcases generate_ok h.sound hfuel choices with ⟨w, hw, hleaves, hlen⟩
      refine ⟨⟨w, true⟩, by simp [opStep, hw, Except.map], hleaves.sound, hleaves.fades.mpr h.fades, ?_⟩
      intro _
      exact hlen
  | reset =>
      have hleaves := reset_ok h.sound
      refine ⟨⟨_, false⟩, rfl, hleaves.sound, hleaves.fades.mpr h.fades, ?_⟩
      simp

/-- A loss and the frame behind it, without a sample to fade over. -/
theorem loss_divides {fuel : Nat} (hfuel : 6 * f ≤ fuel) {w : PjmediaWsola} (h : Sound f n w)
    (hf : ¬ Fades w) (choices : Nat → Nat) :
    run (opStep fuel) ⟨w, false⟩ [.generate choices, .save true] = .error .divByZero := by
  rcases generate_ok h hfuel choices with ⟨w₁, hw₁, hleaves, hlen⟩
  have hsizes := hleaves.sound.sizes
  have hcap := hsizes.capacity
  have hn := hsizes.window_le
  have hstart := hleaves.sound.buf.start_lt
  rcases trimAfterLoss_spec hsizes hlen with ⟨buf, heq, hbcap, hbstart, hblen⟩
  have hsizes₁ := @Sizes.update f n w₁ hsizes buf hbcap w₁.fadeOutPos hsizes.fade
  rcases mergeAfterLoss_eq hsizes₁ ⟨by dsimp only; omega, by dsimp only; omega⟩ hblen with
    ⟨pos, -, hmerge⟩
  have hf₁ : ¬ Fades { w₁ with buf := buf } := fun hc => hf (hleaves.fades.mp hc)
  have hsave : pjmediaWsolaSave w₁ true = .error .divByZero := by
    unfold pjmediaWsolaSave
    rw [if_pos rfl, heq, hmerge, if_neg hf₁]
    rfl
  have hstep : opStep fuel ⟨w, false⟩ (.generate choices) = .ok ⟨w₁, true⟩ := by
    simp [opStep, hw₁, Except.map]
  rw [run_cons_ok hstep]
  simp [run, opStep, hsave, Except.map]

/-- The frame may be saved as one after a loss. -/
theorem loss_meets (fuel : Nat) (w : PjmediaWsola) (choices : Nat → Nat) :
    Meets (opStep fuel) opAllowed ⟨w, false⟩ [.generate choices, .save true] := by
  refine ⟨trivial, ?_⟩
  intro s hs
  refine ⟨?_, fun s' _ => trivial⟩
  intro _
  simp only [opStep] at hs
  cases hg : pjmediaWsolaGenerate fuel w choices with
  | error e =>
      rw [hg] at hs
      cases hs
  | ok w₁ =>
      rw [hg] at hs
      cases hs
      rfl

/-- **Which buffers keep their bounds in every run.** -/
theorem buffer_run_iff {clockRate channelCount fuel : Nat} {options : Options} {w : PjmediaWsola}
    (hcreate : pjmediaWsolaCreate clockRate f channelCount options = some w)
    (hplc : options.noPlc = false) (hsmall : 6 * f < 65536) (htempl : 8 ≤ w.templSize)
    (hfuel : 6 * f ≤ fuel) :
    (∀ ops, Meets (opStep fuel) opAllowed ⟨w, false⟩ ops →
      ∃ s, run (opStep fuel) ⟨w, false⟩ ops = .ok s ∧ Between s.wsola) ↔
      options.noFading = true ∨ 13 ≤ clockRate := by
  rcases create_ok hcreate hplc hsmall htempl with ⟨hsound, hopt, hmax⟩
  have hfades : Fades w ↔ options.noFading = true ∨ 13 ≤ clockRate := by
    unfold Fades
    rw [hopt, hmax]
    constructor
    · rintro (hnf | h0)
      · exact .inl hnf
      · right
        omega
    · rintro (hnf | h13)
      · exact .inl hnf
      · right
        omega
  rw [← hfades]
  constructor
  · intro hall
    by_contra hf
    have hloss := loss_divides hfuel hsound hf (fun _ => 0)
    rcases hall _ (loss_meets fuel w _) with ⟨s, hrun, -⟩
    rw [hloss] at hrun
    cases hrun
  · intro hf ops hmeets
    have hinit : SessionSound f w.hanningSize ⟨w, false⟩ := ⟨hsound, hf, by simp⟩
    have hstep : ∀ (s : Session) (op : Op), SessionSound f w.hanningSize s → opAllowed s op →
        ∃ s', opStep fuel s op = .ok s' ∧ SessionSound f w.hanningSize s' := by
      intro s op h hop
      exact opStep_ok hfuel h hop
    rcases run_invariant hstep ops _ hinit hmeets with ⟨s, hrun, hs⟩
    exact ⟨s, hrun, hs.sound.between⟩

/-- Frames of 20 ms at 8000 samples per second. -/
def narrowband : PjmediaWsola :=
  (pjmediaWsolaCreate 8000 160 1 ⟨false, false, false, false⟩).get (by decide +kernel)

theorem buffer_run_sample :
    (∀ ops, Meets (opStep 960) opAllowed ⟨narrowband, false⟩ ops →
      ∃ s, run (opStep 960) ⟨narrowband, false⟩ ops = .ok s ∧ Between s.wsola) ↔
      false = true ∨ 13 ≤ 8000 := by
  have hcreate : pjmediaWsolaCreate 8000 160 1 ⟨false, false, false, false⟩ = some narrowband :=
    (Option.some_get _).symm
  exact buffer_run_iff hcreate rfl (by decide) (by decide +kernel) (by decide)

/-- Twelve samples per second on 134 channels. -/
def slowClock : PjmediaWsola :=
  (pjmediaWsolaCreate 12 8 134 ⟨false, false, false, false⟩).get (by decide +kernel)

/-- The frame behind a generated one divides by zero. -/
theorem slowClock_divides :
    pjmediaWsolaCreate 12 8 134 ⟨false, false, false, false⟩ = some slowClock ∧
      8 ≤ slowClock.templSize ∧
      Meets (opStep 48) opAllowed ⟨slowClock, false⟩ [.generate (fun _ => 0), .save true] ∧
      run (opStep 48) ⟨slowClock, false⟩ [.generate (fun _ => 0), .save true] = .error .divByZero := by
  refine ⟨(Option.some_get _).symm, by decide +kernel, loss_meets _ _ _, ?_⟩
  have hcreate : pjmediaWsolaCreate 12 8 134 ⟨false, false, false, false⟩ = some slowClock :=
    (Option.some_get _).symm
  rcases create_ok hcreate rfl (by decide) (by decide +kernel) with ⟨hsound, -, -⟩
  exact loss_divides (by decide) hsound (by decide +kernel) _

end Wsola
