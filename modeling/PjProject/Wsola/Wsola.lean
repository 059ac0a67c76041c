import PjProject.Library.MachineInt
import PjProject.Wsola.CircBuf

set_option autoImplicit false

/-! # Time-scale modification

`pjmedia/wsola.c` without the samples: `pjmedia_wsola_create`, `pjmedia_wsola_save`,
`pjmedia_wsola_generate` with `expand`, and `pjmedia_wsola_reset`. What remains are the lengths and the
positions; every range of samples that is read, compared, merged, faded or copied is checked to lie in
its array. The place that `find_pitch` picks in its search range depends on the samples, so that here
any place of the range can be picked. The running timestamp, which nothing reads, and the discarding
functions are left out.
-/

namespace Wsola

open MachineInt

def frameCnt : Nat := 6
def templatePtime : Nat := 5
def hanningPtime : Nat := 5
def maxExpandMsec : Nat := 80

/-- The bits `PJMEDIA_WSOLA_NO_HANNING`, `NO_PLC`, `NO_DISCARD` and `NO_FADING` of the options. -/
structure Options where
  noHanning : Bool
  noPlc : Bool
  noDiscard : Bool
  noFading : Bool
  deriving DecidableEq

/-- `struct pjmedia_wsola`. -/
structure PjmediaWsola where
  clockRate : Nat
  samplesPerFrame : Nat
  channelCount : Nat
  options : Options
  buf : CircBuf
  bufSize : Nat
  hanningSize : Nat
  templSize : Nat
  histSize : Nat
  minExtra : Nat
  maxExpandCnt : Nat
  fadeOutPos : Nat
  expandSrMinDist : Nat
  expandSrMaxDist : Nat
  deriving DecidableEq

/-- Conversion to `pj_uint16_t`. -/
def uint16 (x : Nat) : Nat := x % 65536

/-- `PTIME * clock_rate * channel_count / 1000` as `pj_uint16_t`, at most a frame. -/
def msecSize (ptime clockRate channelCount samplesPerFrame : Nat) : Nat :=
  let size := uint16 (uint32 (ptime * clockRate * channelCount : Nat) / 1000)
  if uint16 samplesPerFrame < size then uint16 samplesPerFrame else size

/-- `pjmedia_wsola_create`, or nothing where one of its assertions about the arguments fails. -/
def pjmediaWsolaCreate (clockRate samplesPerFrame channelCount : Nat) (options : Options) :
    Option PjmediaWsola :=
  if clockRate ≠ 0 ∧ samplesPerFrame ≠ 0 ∧ clockRate ≤ 65535 ∧ samplesPerFrame < clockRate ∧
      0 < channelCount then
    let maxExpandCnt := uint32 (clockRate * maxExpandMsec : Nat) / 1000
    let bufSize := uint16 (samplesPerFrame * frameCnt)
    let histSize := uint16 (3 * samplesPerFrame / 2)
    let templSize := msecSize templatePtime clockRate channelCount samplesPerFrame
    let hanningSize := msecSize hanningPtime clockRate channelCount samplesPerFrame
    if templSize ≤ hanningSize then
      let plc := !options.noPlc
      let minExtra := if plc then hanningSize else 0
      some
        { clockRate := clockRate
          samplesPerFrame := uint16 samplesPerFrame
          channelCount := uint16 channelCount
          options := options
          buf := circBufSetLen (circBufCreate bufSize) (histSize + minExtra)
          bufSize := bufSize
          hanningSize := hanningSize
          templSize := templSize
          histSize := histSize
          minExtra := minExtra
          maxExpandCnt := maxExpandCnt
          fadeOutPos := maxExpandCnt
          expandSrMinDist := if plc then uint16 (uint16 samplesPerFrame / 2) else 0
          expandSrMaxDist := if plc then uint16 (3 * uint16 samplesPerFrame / 2) else 0 }
    else none
  else none

def pjmediaWsolaReset (w : PjmediaWsola) : PjmediaWsola :=
  { w with
    buf := circBufSetLen (circBufReset w.buf) (w.histSize + w.minExtra)
    fadeOutPos := w.maxExpandCnt }

/-! ## Expanding -/

/-- The samples that `find_pitch` compares: those of the template, and as many from each place of the
search range on. Its sums take eight samples at a time, of a template of at least eight. -/
def findPitch (size : Nat) (frm start stop : Int) (templateCnt : Nat) (choice : Nat) :
    Except Fault Int :=
  if templateCnt < 8 then .error .outOfBounds
  else if stop < start then .error .diverges
  else if stop = start then .ok start
  else do
    access size frm templateCnt
    access size start ((stop - 1 - start).toNat + templateCnt)
    .ok (start + choice % (stop - start))

/-- One pass of the loop of `expand`: the length of the samples behind it, or what its `break` for a
buffer that is too small does. -/
def expandOnce (w : PjmediaWsola) (reg1 : Int) (reg1Len choice : Nat) : Except Fault Nat := do
  let size := w.buf.capacity
  let templ := reg1 + reg1Len - w.hanningSize
  let start ← findPitch size templ (templ - w.expandSrMaxDist) (templ - w.expandSrMinDist) w.templSize
    choice
  -- `overlapp_add` or `overlapp_add_simple`
  access size templ w.hanningSize
  access size start w.hanningSize
  let dist := uint32 (templ - start)
  if w.bufSize < uint32 (reg1Len + dist : Nat) then .error .assertion
  else do
    -- the tail is copied to the end, and the merged samples over the template
    access size (templ + w.hanningSize) dist
    access size (start + w.hanningSize) dist
    access size templ w.hanningSize
    .ok dist

/-- The loop of `expand`, with `generated` samples so far; `choices` are the places that are picked from
the pass `rep` on. -/
def expandLoop (w : PjmediaWsola) (reg1 : Int) (needed : Nat) (choices : Nat → Nat) :
    Nat → Nat → Nat → Nat → Except Fault Nat
  | 0, _, _, _ => .error .diverges
  | fuel + 1, rep, reg1Len, generated => do
      let dist ← expandOnce w reg1 reg1Len (choices rep)
      let reg1Len := uint32 (reg1Len + dist : Nat)
      let generated := uint32 (generated + dist : Nat)
      if needed ≤ generated then .ok reg1Len
      else expandLoop w reg1 needed choices fuel (rep + 1) reg1Len generated

/-- `expand`. -/
def expand (fuel : Nat) (w : PjmediaWsola) (needed : Nat) (choices : Nat → Nat) : Except Fault PjmediaWsola := do
  let buf ← circBufPackBuffer fuel w.buf
  let regions := circBufGetReadRegions buf
  let len ← expandLoop { w with buf := buf } buf.start needed choices fuel 1 regions.1 0
  .ok { w with buf := circBufSetLen buf len }

/-! ## Fading -/

/-- `wsola_fade_out` over `count` samples of an array: it goes over all of them. -/
def wsolaFadeOut (w : PjmediaWsola) (size : Nat) (pos : Int) (count : Nat) : Except Fault PjmediaWsola := do
  access size pos count
  .ok { w with fadeOutPos := w.fadeOutPos - count }

/-- `fade_in` over a frame of `count` samples. -/
def fadeIn (size count fadeInPos fadeCnt : Nat) : Except Fault Unit :=
  if (fadeCnt : Int) - fadeInPos < count then access size 0 (fadeCnt - fadeInPos)
  else access size 0 count

/-- The fade-out of the last `count` samples of the buffer. -/
def fadeOutTail (w : PjmediaWsola) (count : Nat) : Except Fault PjmediaWsola :=
  let regions := circBufGetReadRegions w.buf
  let size := w.buf.capacity
  if regions.2 = 0 then wsolaFadeOut w size (w.buf.start + regions.1 - count) count
  else if count ≤ regions.2 then wsolaFadeOut w size (regions.2 - count) count
  else do
    let tmp := count - regions.2
    let w ← wsolaFadeOut w size (w.buf.start + regions.1 - tmp) tmp
    wsolaFadeOut w size 0 regions.2

/-- The fade-in of the frame, from where the fade-out has come to. -/
def fadeInFrame (w : PjmediaWsola) : Except Fault Unit :=
  if w.maxExpandCnt = 0 then .error .divByZero
  else
    let fadeInPos := uint32 (w.fadeOutPos * w.minExtra : Nat) / w.maxExpandCnt
    fadeIn w.samplesPerFrame w.samplesPerFrame fadeInPos w.minExtra

/-! ## Saving and generating -/

/-- The samples that are merged with the frame, the last `min_extra` ones of the buffer. Where they are in
two regions, they are put together in `merge_buf`. -/
def mergeWithFrame (w : PjmediaWsola) : Except Fault Unit := do
  let regions := circBufGetReadRegions w.buf
  let size := w.buf.capacity
  if regions.2 = 0 then access size (w.buf.start + regions.1 - w.minExtra) w.minExtra
  else if w.minExtra ≤ regions.2 then access size (regions.2 - w.minExtra) w.minExtra
  else do
    let tmp := w.minExtra - regions.2
    access size (w.buf.start + regions.1 - tmp) tmp
    access w.hanningSize 0 tmp
    access size 0 regions.2
    access w.hanningSize tmp regions.2

/-- When the previous frame was lost, `pjmedia_wsola_save` first trims the excessive length. -/
def trimAfterLoss (w : PjmediaWsola) : PjmediaWsola :=
  if w.histSize + w.minExtra * 2 < w.buf.len then
    { w with buf := circBufSetLen w.buf (w.histSize + w.minExtra * 2) }
  else w

/-- Continue the fade-out of the extra samples. -/
def fadeOutExtra (w : PjmediaWsola) : Except Fault PjmediaWsola :=
  if w.options.noFading then .ok w else fadeOutTail w (w.minExtra * 2)

/-- Fade in the frame before it is merged. -/
def fadeInMerged (w : PjmediaWsola) : Except Fault Unit :=
  if w.options.noFading then .ok () else fadeInFrame w

/-- Then it merges the extra samples with the frame. -/
def mergeAfterLoss (w : PjmediaWsola) : Except Fault PjmediaWsola := do
  let w ← fadeOutExtra w
  mergeWithFrame w
  fadeInMerged w
  -- the merged samples are written into the frame
  access w.samplesPerFrame 0 w.minExtra
  .ok { w with buf := circBufSetLen w.buf (uint32 ((w.buf.len : Int) - w.minExtra)) }

/-- What it does after a frame that was not lost, while the synthetic samples are fading out. -/
def saveAfterFading (w : PjmediaWsola) : Except Fault PjmediaWsola := do
  let faded ← if w.histSize < w.buf.len then fadeOutTail w (w.buf.len - w.histSize) else .ok w
  fadeInFrame faded
  .ok faded

/-- The end of `pjmedia_wsola_save`: the frame is written, and the one behind the history comes out. -/
def saveFrame (w : PjmediaWsola) : Except Fault PjmediaWsola := do
  let buf ← circBufWrite w.buf w.samplesPerFrame
  circBufCopy buf w.histSize w.samplesPerFrame
  .ok { w with buf := circBufAdvReadPtr buf w.samplesPerFrame, fadeOutPos := w.maxExpandCnt }

/-- `pjmedia_wsola_save`. -/
def pjmediaWsolaSave (w : PjmediaWsola) (prevLost : Bool) : Except Fault PjmediaWsola :=
  if prevLost then mergeAfterLoss (trimAfterLoss w) >>= saveFrame
  else if w.options.noFading = false ∧ w.fadeOutPos ≠ w.maxExpandCnt then
    saveAfterFading w >>= saveFrame
  else saveFrame w

/-- The end of `pjmedia_wsola_generate`: the frame behind the history comes out and is faded. -/
def generateFrame (w : PjmediaWsola) : Except Fault PjmediaWsola := do
  circBufCopy w.buf w.histSize w.samplesPerFrame
  let w := { w with buf := circBufAdvReadPtr w.buf w.samplesPerFrame }
  if w.options.noFading then .ok w else wsolaFadeOut w w.samplesPerFrame 0 w.samplesPerFrame

/-- `pjmedia_wsola_generate`. -/
def pjmediaWsolaGenerate (fuel : Nat) (w : PjmediaWsola) (choices : Nat → Nat) :
    Except Fault PjmediaWsola :=
  let samplesLen := uint32 ((w.buf.len : Int) - w.histSize)
  let samplesReq := w.samplesPerFrame + w.minExtra * 2
  if samplesLen < samplesReq then expand fuel w (samplesReq - samplesLen) choices >>= generateFrame
  else generateFrame w

end Wsola
