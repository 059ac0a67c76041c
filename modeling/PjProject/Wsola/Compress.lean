import PjProject.Library.Crossfade
import PjProject.Wsola.CircSamples
import PjProject.Wsola.Invariant
import PjProject.Wsola.Wsola

set_option autoImplicit false

/-! # Discarding samples

`pjmedia_wsola_discard` and `compress` of `pjmedia/wsola.c`, with the samples, and `shrink_buffer` of
`pjmedia/delaybuf.c`. A buffer that wraps is given as two regions of an array. As in `Wsola`, the place that
`find_pitch` picks is any place of its search range. How two samples are mixed is a parameter, since the
weights are floating point.
-/

namespace Wsola

open MachineInt

def eraseCnt : Nat := 3

/-- What `overlapp_add` and `overlapp_add_simple` make of the samples with number `i` of `count` ones. -/
structure Mixing where
  overlappAdd (count i : Nat) (l r : Int16) : Int16
  overlappAddSimple (count i : Nat) (l r : Int16) : Int16

/-- The mixing over the window that the options select. -/
def PjmediaWsola.mix (w : PjmediaWsola) (m : Mixing) : Nat → Int16 → Int16 → Int16 :=
  if w.options.noHanning then m.overlappAddSimple w.hanningSize else m.overlappAdd w.hanningSize

/-- The loop of `overlapp_add` and of `overlapp_add_simple`. -/
def overlappAdd (mix : Nat → Int16 → Int16 → Int16) (dst l r : Nat) : Nat → (Nat → Int16) → (Nat → Int16)
  | 0, cell => cell
  | count + 1, cell =>
      let cell := overlappAdd mix dst l r count cell
      Function.update cell (dst + count) (mix count (cell (l + count)) (cell (r + count)))

/-- One pass of the loop of `compress`; it also returns how many samples are gone. -/
def compressOnce (w : PjmediaWsola) (m : Mixing) (a : Samples) (buf count delCnt samplesDel choice : Nat) :
    Except Fault (Samples × Nat) := do
  let start : Int := (buf : Int) + delCnt - samplesDel
  let stop : Int := start + w.samplesPerFrame
  let stop := if (buf : Int) + count < stop + w.hanningSize then (buf : Int) + count - w.hanningSize else stop
  let start ← findPitch a.size buf start stop w.templSize choice
  let dist := uint32 (start - buf)
  access a.size buf w.hanningSize
  access a.size start w.hanningSize
  let a := { a with cell := overlappAdd (w.mix m) buf buf start.toNat w.hanningSize a.cell }
  let a ← pjmediaMoveSamples a (buf + w.hanningSize) (buf + w.hanningSize + dist)
    (uint32 ((count : Int) - w.hanningSize - dist))
  .ok (a, dist)

/-- The loop; `choices` are the places that are picked. -/
def compressLoop (w : PjmediaWsola) (m : Mixing) (choices : Nat → Nat) (buf delCnt : Nat) :
    Nat → Nat → Samples → Nat → Nat → Except Fault (Samples × Nat)
  | 0, _, _, _, _ => .error .diverges
  | fuel + 1, rep, a, count, samplesDel =>
      if count ≤ uint32 (w.hanningSize + delCnt : Nat) then .ok (a, samplesDel)
      else do
        let (a, dist) ← compressOnce w m a buf count delCnt samplesDel (choices rep)
        let count := uint32 ((count : Int) - dist)
        let samplesDel := uint32 (samplesDel + dist : Nat)
        if delCnt ≤ samplesDel then .ok (a, samplesDel)
        else compressLoop w m choices buf delCnt fuel (rep + 1) a count samplesDel

/-- `compress`, on the `count` samples from `buf` on. A pass deletes a sample at least. -/
def compress (w : PjmediaWsola) (m : Mixing) (choices : Nat → Nat) (a : Samples) (buf count delCnt : Nat) :
    Except Fault (Samples × Nat) :=
  compressLoop w m choices buf delCnt delCnt 1 a count 0

/-- What `pjmedia_wsola_discard` returns. -/
inductive DiscardStatus where
  | success
  /-- `PJ_EINVAL`. -/
  | inval
  /-- `PJ_EINVALIDOP`. -/
  | invalidOp
  /-- `PJ_ETOOSMALL`. -/
  | tooSmall
  deriving DecidableEq

/-- The status, the array with the two buffers, and `*del_cnt`. -/
structure Discarded where
  status : DiscardStatus
  buf : Samples
  delCnt : Nat

/-- The array `erase_buf` with what an earlier call left there. -/
def eraseBuf (w : PjmediaWsola) (cell : Nat → Int16) : Samples := ⟨w.samplesPerFrame * eraseCnt, cell⟩

/-- There is no space between the buffers after the `delCnt` samples at the end of the first one are gone. -/
def closeGap (a : Samples) (buf1 buf1Cnt buf2 buf2Cnt delCnt : Nat) : Except Fault Samples := do
  let max := min delCnt buf2Cnt
  let a ← pjmediaMoveSamples a ((buf1 : Int) + buf1Cnt - delCnt) buf2 max
  if max < buf2Cnt then pjmediaMoveSamples a buf2 (buf2 + delCnt) (buf2Cnt - max) else .ok a

/-- Copy the `bufSize` samples of `erase_buf` back to the buffers, and behind them the `remCnt` ones at
`rem`, which are in the second buffer. -/
def copyBack (a erase : Samples) (buf1 buf1Cnt buf2 bufSize rem remCnt : Nat) : Except Fault Samples :=
  if bufSize = buf1Cnt then do
    let a ← pjmediaCopySamples a buf1 erase 0 bufSize
    if remCnt ≠ 0 then pjmediaMoveSamples a buf2 rem remCnt else .ok a
  else if bufSize < buf1Cnt then do
    let a ← pjmediaCopySamples a buf1 erase 0 bufSize
    if remCnt ≠ 0 then do
      let c := min remCnt (buf1Cnt - bufSize)
      let a ← pjmediaCopyWithin a (buf1 + bufSize) rem c
      if remCnt - c ≠ 0 then pjmediaMoveSamples a buf2 (rem + c) (remCnt - c) else .ok a
    else .ok a
  else do
    let a ← pjmediaCopySamples a buf1 erase 0 buf1Cnt
    let a ← pjmediaCopySamples a buf2 erase buf1Cnt (bufSize - buf1Cnt)
    if remCnt ≠ 0 then pjmediaMoveSamples a ((buf2 : Int) + bufSize - buf1Cnt) rem remCnt else .ok a

/-- The samples are combined in `erase_buf`, as many as it holds. -/
def discardCombined (w : PjmediaWsola) (m : Mixing) (choices : Nat → Nat) (erase a : Samples)
    (buf1 buf1Cnt buf2 buf2Cnt delCnt : Nat) : Except Fault (Samples × Nat) := do
  let bufSize := min (uint32 (buf1Cnt + buf2Cnt : Nat)) (eraseCnt * w.samplesPerFrame)
  let remCnt := uint32 (buf1Cnt + buf2Cnt : Nat) - bufSize
  -- not used where nothing remains
  let rem := buf2 + buf2Cnt - remCnt
  let erase ← pjmediaCopySamples erase 0 a buf1 buf1Cnt
  let erase ← pjmediaCopySamples erase buf1Cnt a buf2 (bufSize - buf1Cnt)
  let (erase, del) ← compress w m choices erase 0 bufSize delCnt
  let a ← copyBack a erase buf1 buf1Cnt buf2 (bufSize - del) rem remCnt
  .ok (a, del)

/-- The samples are discarded in the first buffer, and those of the second one close up. -/
def discardFirst (w : PjmediaWsola) (m : Mixing) (choices : Nat → Nat) (a : Samples)
    (buf1 buf1Cnt buf2 buf2Cnt delCnt : Nat) : Except Fault (Samples × Nat) := do
  let (a, del) ← compress w m choices a buf1 buf1Cnt delCnt
  let a ← closeGap a buf1 buf1Cnt buf2 buf2Cnt del
  .ok (a, del)

/-- The end of `pjmedia_wsola_discard`. -/
def discarded (r : Samples × Nat) : Discarded :=
  ⟨if 0 < r.2 then .success else .tooSmall, r.1, r.2⟩

/-- `pjmedia_wsola_discard`. Without `PJMEDIA_WSOLA_NO_DISCARD`, there is an `erase_buf`, which holds
`erase`. -/
def pjmediaWsolaDiscard (w : PjmediaWsola) (m : Mixing) (choices : Nat → Nat) (erase : Nat → Int16)
    (a : Samples) (buf1 buf1Cnt buf2 buf2Cnt delCnt : Nat) : Except Fault Discarded :=
  let frames := eraseCnt * w.samplesPerFrame
  if buf1Cnt = 0 ∨ delCnt = 0 then .ok ⟨.inval, a, delCnt⟩
  else if buf2Cnt = 0 then do
    let r ← compress w m choices a buf1 buf1Cnt delCnt
    .ok (discarded r)
  else if buf1Cnt < frames ∧ buf2Cnt < frames ∧ w.options.noDiscard = true then .ok ⟨.invalidOp, a, delCnt⟩
  else if frames ≤ buf2Cnt then do
    let r ← compress w m choices a buf2 buf2Cnt delCnt
    .ok (discarded r)
  else if frames ≤ buf1Cnt then do
    let r ← discardFirst w m choices a buf1 buf1Cnt buf2 buf2Cnt delCnt
    .ok (discarded r)
  else do
    let r ← discardCombined w m choices (eraseBuf w erase) a buf1 buf1Cnt buf2 buf2Cnt delCnt
    .ok (discarded r)

/-- `shrink_buffer`: discard samples of the circular buffer, and set its length. -/
def shrinkBuffer (w : PjmediaWsola) (m : Mixing) (choices : Nat → Nat) (erase : Nat → Int16)
    (cb : PjmediaCircBuf) (eraseCnt : Nat) : Except Fault PjmediaCircBuf :=
  if eraseCnt = 0 ∨ cb.len = 0 then .error .assertion
  else do
    let regions := circBufGetReadRegions cb.toCircBuf
    let r ← pjmediaWsolaDiscard w m choices erase cb.buf cb.start regions.1 0 regions.2 eraseCnt
    let cb := { cb with cell := r.buf.cell }
    if r.status = .success ∧ 0 < r.delCnt then .ok (pjmediaCircBufSetLen cb (uint32 ((cb.len : Int) - r.delCnt)))
    else .ok cb

end Wsola

/-! ## Compressing

`compress` finds its samples or none in one pass, because its search begins behind the samples that are to
be deleted. What it leaves is a cut (`compress_cut`) where the samples behind the seam are moved as a whole;
where it cannot search, it does not come back (`compress_faults`).
-/

namespace Wsola

open MachineInt Outcome Segment Crossfade

/-- The sizes of a wsola, as far as discarding reads them. -/
structure Dims (w : PjmediaWsola) : Prop where
  templ_le : w.templSize ≤ w.hanningSize
  hanning_lt : w.hanningSize < 65536
  frame_lt : w.samplesPerFrame < 65536

theorem msecSize_lt (ptime clockRate channelCount samplesPerFrame : Nat) :
    msecSize ptime clockRate channelCount samplesPerFrame < 65536 := by
  unfold msecSize uint16
  dsimp only
  split
  · omega
  · omega

theorem Dims.of_create {clockRate samplesPerFrame channelCount : Nat} {options : Options}
    {w : PjmediaWsola} (h : pjmediaWsolaCreate clockRate samplesPerFrame channelCount options = some w) :
    Dims w := by
  unfold pjmediaWsolaCreate at h
  dsimp only at h
  by_cases hargs : clockRate ≠ 0 ∧ samplesPerFrame ≠ 0 ∧ clockRate ≤ 65535 ∧ samplesPerFrame < clockRate ∧
      0 < channelCount
  · rw [if_pos hargs] at h
    by_cases htempl : msecSize templatePtime clockRate channelCount samplesPerFrame ≤
        msecSize hanningPtime clockRate channelCount samplesPerFrame
    · rw [if_pos htempl] at h
      obtain rfl := Option.some.inj h
      exact ⟨htempl, msecSize_lt _ _ _ _, Nat.mod_lt _ (by omega)⟩
    · rw [if_neg htempl] at h
      cases h
  · rw [if_neg hargs] at h
    cases h

/-! ## Overlap-add -/

variable {mix : Nat → Int16 → Int16 → Int16} {cell : Nat → Int16} {dst r n : Nat}

/-- Mixing into the first range reads no sample that it has written, since the second range does not begin
before it. -/
theorem overlappAdd_apply (h : dst ≤ r) (p : Nat) :
    overlappAdd mix dst dst r n cell p =
      if dst ≤ p ∧ p < dst + n then mix (p - dst) (cell p) (cell (r + (p - dst))) else cell p := by
  induction n generalizing p with
  | zero =>
      rw [if_neg (by omega)]
      rfl
  | succ n ih =>
      unfold overlappAdd
      dsimp only
      by_cases hp : p = dst + n
      · subst hp
        rw [Function.update_self, ih, ih, if_neg (by omega), if_neg (by omega), if_pos (by omega),
          Nat.add_sub_cancel_left]
      · rw [Function.update_of_ne hp, ih]
        by_cases hin : dst ≤ p ∧ p < dst + n
        · rw [if_pos hin, if_pos (by omega)]
        · rw [if_neg hin, if_neg (by omega)]

theorem seg_overlappAdd (h : dst ≤ r) :
    seg (overlappAdd mix dst dst r n cell) dst n = crossfade mix (seg cell dst n) (seg cell r n) := by
  refine List.ext_getElem? fun i => ?_
  by_cases hi : i < n
  · rw [seg_getElem? hi, crossfade_getElem? (seg_getElem? hi) (seg_getElem? hi), overlappAdd_apply h,
      if_pos (by omega), Nat.add_sub_cancel_left]
  · rw [List.getElem?_eq_none (by rw [seg_length]; omega),
      List.getElem?_eq_none (by rw [crossfade_length, seg_length, seg_length]; omega)]

theorem seg_overlappAdd_apart {a m : Nat} (h : dst ≤ r) (hapart : a + m ≤ dst ∨ dst + n ≤ a) :
    seg (overlappAdd mix dst dst r n cell) a m = seg cell a m := by
  refine seg_congr fun i hi => ?_
  rw [overlappAdd_apply h, if_neg (by omega)]

/-! ## One pass -/

variable {w : PjmediaWsola} {m : Mixing} {a : Samples} {buf count delCnt dist : Nat} {choices : Nat → Nat}

/-- The cells after `dist` of the `count` samples from `buf` on are gone. -/
def cutCells (w : PjmediaWsola) (m : Mixing) (cell : Nat → Int16) (buf count dist : Nat) : Nat → Int16 :=
  let mixed := overlappAdd (w.mix m) buf buf (buf + dist) w.hanningSize cell
  splice mixed mixed (buf + w.hanningSize) (buf + w.hanningSize + dist)
    (copiedCnt (count - w.hanningSize - dist))

/-- The place that is picked, in a range behind the template. -/
theorem findPitch_ahead {size : Nat} {frm start stop : Int} {templateCnt choice : Nat}
    (h8 : 8 ≤ templateCnt) (hle : start ≤ stop) (h0 : 0 ≤ frm) (hfrm : frm ≤ start)
    (hend : start + templateCnt ≤ size) (hstop : stop + templateCnt ≤ size) :
    ∃ pos, findPitch size frm start stop templateCnt choice = .ok pos ∧ start ≤ pos ∧
      (pos = start ∨ pos < stop) ∧ (choice = 0 → pos = start) := by
  unfold findPitch
  rw [if_neg (by omega), if_neg (by omega)]
  by_cases heq : stop = start
  · rw [if_pos heq]
    exact ⟨start, rfl, le_refl _, .inl rfl, fun _ => rfl⟩
  · rw [if_neg heq, access_ok h0 (by omega), ok_bind, access_ok (by omega) (by omega), ok_bind]
    have h1 := Int.emod_nonneg (choice : Int) (show stop - start ≠ 0 by omega)
    have h2 := Int.emod_lt_of_pos (choice : Int) (show 0 < stop - start by omega)
    refine ⟨_, rfl, by omega, .inr (by omega), ?_⟩
    rintro rfl
    simp

/-- A pass picks a place behind the samples that are to be deleted. -/
theorem compressOnce_ok (hw : Dims w) (choice : Nat) (hin : buf + count ≤ a.size)
    (hcount : count < 4294967296) (htempl : 8 ≤ w.templSize) (hfound : w.hanningSize + delCnt < count) :
    ∃ dist, compressOnce w m a buf count delCnt 0 choice
        = .ok ({ a with cell := cutCells w m a.cell buf count dist }, dist) ∧
      delCnt ≤ dist ∧ w.hanningSize + dist < count ∧ (choice = 0 → dist = delCnt) := by
  have htempl_le := hw.templ_le
  have hhanning := hw.hanning_lt
  unfold compressOnce
  dsimp only
  rw [Nat.cast_zero, sub_zero]
  -- the search ends where the window still fits
  have hstop : ∃ stop : Int, (if (buf : Int) + count < (buf : Int) + delCnt + w.samplesPerFrame + w.hanningSize
        then (buf : Int) + count - w.hanningSize else (buf : Int) + delCnt + w.samplesPerFrame) = stop ∧
      (buf : Int) + delCnt ≤ stop ∧ stop + w.hanningSize ≤ buf + count := by
    split
    · exact ⟨_, rfl, by omega, by omega⟩
    · exact ⟨_, rfl, by omega, by omega⟩
  rcases hstop with ⟨stop, hstop, hle, hend⟩
  rw [hstop]
  rcases @findPitch_ahead a.size buf (buf + delCnt) stop w.templSize choice htempl hle (by omega) (by omega)
    (by omega) (by omega) with ⟨pos, hpos, hge, hlt, hzero⟩
  obtain ⟨dist, rfl⟩ : ∃ dist : Nat, pos = buf + dist := ⟨(pos - buf).toNat, by omega⟩
  have hdist : uint32 ((buf : Int) + dist - buf) = dist := by
    rw [add_sub_cancel_left]
    exact uint32_natCast (by omega)
  have hrest : uint32 ((count : Int) - w.hanningSize - dist) = count - w.hanningSize - dist := by
    have hcast : (count : Int) - w.hanningSize - dist = ((count - w.hanningSize - dist : Nat) : Int) := by omega
    rw [hcast]
    exact uint32_natCast (by omega)
  have htoNat : ((buf : Int) + dist).toNat = buf + dist := by omega
  refine ⟨dist, ?_, by omega, by omega, fun h => by have h' := hzero h; omega⟩
  rw [hpos, ok_bind, hdist, access_ok (by omega) (by omega), ok_bind, access_ok (by omega) (by omega), ok_bind,
    hrest, htoNat]
  unfold pjmediaMoveSamples
  rw [@pjmediaCopySamples_returns _ _ (buf + w.hanningSize) (buf + w.hanningSize + dist) _ _ _ (by push_cast; rfl)
    (by push_cast; rfl) (by dsimp only; omega) (by dsimp only; omega), ok_bind]
  rfl

/-! ## The loop -/

/-- Not enough samples: none is deleted. -/
theorem compress_few (hdel : 0 < delCnt) (hfew : count ≤ uint32 (w.hanningSize + delCnt : Nat)) :
    compress w m choices a buf count delCnt = .ok (a, 0) := by
  obtain ⟨fuel, rfl⟩ : ∃ fuel, delCnt = fuel + 1 := ⟨delCnt - 1, by omega⟩
  unfold compress compressLoop
  rw [if_pos hfew]

/-- The first pass is the last one. -/
theorem compress_found (hw : Dims w) (hin : buf + count ≤ a.size) (hcount : count < 4294967296)
    (hdel : 0 < delCnt) (htempl : 8 ≤ w.templSize) (hfound : w.hanningSize + delCnt < count) :
    ∃ dist, compress w m choices a buf count delCnt
        = .ok ({ a with cell := cutCells w m a.cell buf count dist }, dist) ∧
      delCnt ≤ dist ∧ w.hanningSize + dist < count ∧ (choices 1 = 0 → dist = delCnt) := by
  rcases @compressOnce_ok w m a buf count delCnt hw (choices 1) hin hcount htempl hfound with
    ⟨dist, honce, hge, hlt, hzero⟩
  refine ⟨dist, ?_, hge, hlt, hzero⟩
  obtain ⟨fuel, rfl⟩ : ∃ fuel, delCnt = fuel + 1 := ⟨delCnt - 1, by omega⟩
  unfold compress compressLoop
  rw [uint32_natCast (by omega), if_neg (by omega), honce, ok_bind]
  dsimp only
  rw [Nat.zero_add, uint32_natCast (show dist < 4294967296 by omega), if_pos hge]

/-- **`compress` does not come back** where it looks for a place and its template is too short, or where
`hanning_size + del_cnt` wraps, so that the search would begin behind its end. -/
theorem compress_faults (hw : Dims w) (hcount : count < 4294967296) (hdel : 0 < delCnt)
    (hfew : uint32 (w.hanningSize + delCnt : Nat) < count)
    (hbad : w.templSize < 8 ∨ 4294967296 ≤ w.hanningSize + delCnt) :
    ∃ e, compress w m choices a buf count delCnt = .error e := by
  have hhanning := hw.hanning_lt
  obtain ⟨fuel, hfuel⟩ : ∃ fuel, delCnt = fuel + 1 := ⟨delCnt - 1, by omega⟩
  have hfind : ∃ e, compressOnce w m a buf count delCnt 0 (choices 1) = .error e := by
    unfold compressOnce findPitch
    dsimp only
    by_cases h8 : w.templSize < 8
    · rw [if_pos h8]
      exact ⟨_, rfl⟩
    · rw [if_neg h8, if_pos (by split <;> omega)]
      exact ⟨_, rfl⟩
  rcases hfind with ⟨e, he⟩
  refine ⟨e, ?_⟩
  unfold compress
  rw [hfuel]
  unfold compressLoop
  rw [if_neg (by rw [← hfuel]; omega), ← hfuel, he]
  rfl

/-! ## What it leaves -/

/-- Outside the samples nothing changes. -/
theorem seg_cutCells_apart (hle : w.hanningSize + dist ≤ count) {b n : Nat}
    (hapart : b + n ≤ buf ∨ buf + count ≤ b) : seg (cutCells w m cell buf count dist) b n = seg cell b n := by
  have hcopied := copiedCnt_le (count - w.hanningSize - dist)
  unfold cutCells
  dsimp only
  rw [seg_splice_apart (by omega), seg_overlappAdd_apart (by omega) (by omega)]

/-- Where the samples behind the seam are moved as a whole, **the samples are cut**. -/
theorem compress_cut (hle : w.hanningSize + dist ≤ count) (hshort : count - w.hanningSize - dist < 2147483648) :
    Cut (w.mix m) w.hanningSize dist (seg cell buf count)
      (seg (cutCells w m cell buf count dist) buf (count - dist)) := by
  refine ⟨[], seg cell buf dist, seg cell (buf + dist) w.hanningSize,
    seg cell (buf + dist + w.hanningSize) (count - dist - w.hanningSize), ?_, seg_length, seg_length, ?_⟩
  · rw [List.nil_append, List.append_assoc, ← seg_split (show w.hanningSize ≤ count - dist by omega),
      ← seg_split (show dist ≤ count by omega)]
  · have hwindow : (seg cell buf dist ++ seg cell (buf + dist) w.hanningSize).take w.hanningSize
        = seg cell buf w.hanningSize := by
      rw [← seg_add, take_seg (by omega)]
    rw [List.nil_append, hwindow]
    unfold cutCells
    dsimp only
    rw [copiedCnt_of_lt hshort, seg_split (show w.hanningSize ≤ count - dist by omega),
      seg_splice_apart (by omega), seg_overlappAdd (by omega),
      show count - dist - w.hanningSize = count - w.hanningSize - dist by omega, seg_splice,
      seg_overlappAdd_apart (by omega) (by omega),
      show buf + w.hanningSize + dist = buf + dist + w.hanningSize by omega]

end Wsola
