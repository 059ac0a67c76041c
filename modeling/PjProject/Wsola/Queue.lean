import PjProject.Library.Run
import PjProject.Wsola.CircSamples

set_option autoImplicit false

/-! # The circular buffer is a queue

A queue of at most `capacity` samples answers each operation with a status, with the queue that is left and
with the samples it returns (`answer`). The circular buffer gives these answers in every run whose steps
copy less than `2^31` samples in a piece (`asQueue_of_short`); a refused operation leaves the buffer as it
is, and packing leaves the samples in one piece at its beginning.
-/

namespace Wsola.Queue

open MachineInt Outcome Segment Circular

/-- What a user calls, with its array `data`. -/
inductive Op where
  | read (data : Samples) (count : Nat)
  | write (data : Samples) (count : Nat)
  | copy (startIdx : Nat) (data : Samples) (count : Nat)
  | advReadPtr (count : Nat)
  | reset
  | packBuffer

/-- The array of an operation; there is none for the last three. -/
def Op.data : Op → Samples
  | .read data _ | .write data _ | .copy _ data _ => data
  | .advReadPtr _ | .reset | .packBuffer => ⟨0, fun _ => 0⟩

def call (cb : PjmediaCircBuf) : Op → Except Fault Result
  | .read data count => pjmediaCircBufRead cb data count
  | .write data count => pjmediaCircBufWrite cb data count
  | .copy startIdx data count => pjmediaCircBufCopy cb startIdx data count
  | .advReadPtr count => .ok ⟨.success, pjmediaCircBufAdvReadPtr cb count, Op.data .reset⟩
  | .reset => .ok ⟨.success, pjmediaCircBufReset cb, Op.data .reset⟩
  | .packBuffer => pjmediaCircBufPackBuffer cb (Op.data .packBuffer)

/-- A step leaves a buffer, whether the operation is refused or not. -/
def step (cb : PjmediaCircBuf) (op : Op) : Except Fault PjmediaCircBuf := do
  let r ← call cb op
  .ok r.circbuf

/-! ## The queue -/

/-- What a queue answers. -/
structure Answer where
  status : Status
  queue : List Int16
  returned : List Int16

/-- The answer of a queue of at most `capacity` samples, which cannot be packed if it is `stuck`. -/
def answer (capacity : Nat) (stuck : Prop) [Decidable stuck] (q : List Int16) : Op → Answer
  | .read _ count =>
      if count ≤ q.length then ⟨.success, q.drop count, q.take count⟩ else ⟨.tooBig, q, []⟩
  | .write data count =>
      if q.length + count ≤ capacity then ⟨.success, q ++ seg data.cell 0 count, []⟩ else ⟨.tooBig, q, []⟩
  | .copy startIdx _ count =>
      if startIdx + count ≤ q.length then ⟨.success, q, (q.drop startIdx).take count⟩ else ⟨.tooBig, q, []⟩
  | .advReadPtr count => ⟨.success, q.drop count, []⟩
  | .reset => ⟨.success, [], []⟩
  | .packBuffer => if stuck then ⟨.tooBig, q, []⟩ else ⟨.success, q, []⟩

/-- The buffer is full, and its samples wrap. -/
def Stuck (cb : PjmediaCircBuf) : Prop := cb.len = cb.capacity ∧ cb.capacity < cb.start + cb.len

instance (cb : PjmediaCircBuf) : Decidable (Stuck cb) := inferInstanceAs (Decidable (_ ∧ _))

/-- The result of an operation on the buffer is the answer of the queue, and the buffer is as it was if the
operation is refused. Packed samples are stored from the beginning on. -/
structure Follows (cb : PjmediaCircBuf) (op : Op) (r : Result) : Prop where
  ok : r.circbuf.Ok
  capacity : r.circbuf.capacity = cb.capacity
  status : r.status = (answer cb.capacity (Stuck cb) cb.content op).status
  content : r.circbuf.content = (answer cb.capacity (Stuck cb) cb.content op).queue
  returned : Returned op.data r.data (answer cb.capacity (Stuck cb) cb.content op).returned
  refused : r.status = .tooBig → r.circbuf = cb
  packed : op = .packBuffer → r.status = .success →
    r.circbuf.start = 0 ∧ seg r.circbuf.cell 0 r.circbuf.len = r.circbuf.content

/-- Every operation of the run comes back, with no access outside the arrays, and answers as the queue. -/
def AsQueue : PjmediaCircBuf → List Op → Prop
  | _, [] => True
  | cb, op :: ops => ∃ r, call cb op = .ok r ∧ Follows cb op r ∧ AsQueue r.circbuf ops

/-! ## Legal and short operations -/

/-- What the caller sees to: its array has the samples that it asks for, and sums are `unsigned`. -/
def Legal (_ : PjmediaCircBuf) : Op → Prop
  | .read data count | .write data count => count ≤ data.size
  | .copy startIdx data count => count ≤ data.size ∧ count + startIdx < 4294967296
  | .advReadPtr _ | .reset | .packBuffer => True

/-- An operation that is not refused copies or moves less than `2^31` samples in a piece. -/
def Short (cb : PjmediaCircBuf) : Op → Prop
  | .read _ count => count ≤ cb.len → Pieces (circBufGetReadRegions cb.toCircBuf).1 count
  | .write _ count =>
      cb.len + count ≤ cb.capacity → Pieces (circBufGetWriteRegions cb.toCircBuf).2.1 count
  | .copy startIdx _ count =>
      startIdx + count ≤ cb.len → Pieces ((circBufGetReadRegions cb.toCircBuf).1 - startIdx) count
  | .advReadPtr _ | .reset => True
  | .packBuffer => ¬ Stuck cb → cb.start = 0 ∨ cb.len < 2147483648

instance (reg1Cnt count : Nat) : Decidable (Pieces reg1Cnt count) := inferInstanceAs (Decidable (_ ∧ _))

instance (cb : PjmediaCircBuf) (op : Op) : Decidable (Legal cb op) := by
  cases op <;> unfold Legal <;> infer_instance

instance (cb : PjmediaCircBuf) (op : Op) : Decidable (Short cb op) := by
  cases op <;> unfold Short <;> infer_instance

variable {cb : PjmediaCircBuf} {data : Samples} {count startIdx : Nat}

theorem pjmediaCircBufCreate_content (capacity : Nat) : (pjmediaCircBufCreate capacity).content = [] := rfl

/-- Samples for which there is room are appended. -/
theorem answer_write {capacity : Nat} {stuck : Prop} [Decidable stuck] {q : List Int16}
    (h : q.length + count ≤ capacity) :
    answer capacity stuck q (.write data count) = ⟨.success, q ++ seg data.cell 0 count, []⟩ := if_pos h

theorem returned_none : Returned data data [] := ⟨rfl, rfl, fun _ _ => rfl⟩

/-- A refused operation. -/
theorem Follows.of_refused {op : Op} (h : cb.Ok)
    (hanswer : answer cb.capacity (Stuck cb) cb.content op = ⟨.tooBig, cb.content, []⟩) :
    Follows cb op ⟨.tooBig, cb, op.data⟩ where
  ok := h
  capacity := rfl
  status := by rw [hanswer]
  content := by rw [hanswer]
  returned := by
    rw [hanswer]
    exact returned_none
  refused _ := rfl
  packed _ hs := by cases hs

/-! ## One lemma for each operation -/

theorem read_follows (h : cb.Ok) (hlegal : count ≤ data.size) (hshort : Short cb (.read data count)) :
    ∃ r, call cb (.read data count) = .ok r ∧ Follows cb (.read data count) r := by
  have hl := h.len_le
  show ∃ r, pjmediaCircBufRead cb data count = .ok r ∧ _
  unfold pjmediaCircBufRead
  by_cases hfit : count ≤ cb.len
  · have hanswer : answer cb.capacity (Stuck cb) cb.content (.read data count)
        = ⟨.success, cb.content.drop count, cb.content.take count⟩ := if_pos (by simpa using hfit)
    have hslice := @PjmediaCircBuf.Ok.slice_first cb count 0 h (by omega) (Nat.zero_le _)
    rw [List.drop_zero, Nat.add_zero, Nat.sub_zero] at hslice
    have hregions := h.regions_add
    rcases @copyOut_ok cb data count cb.start _ (hshort hfit) hlegal (by omega) (by omega)
      with ⟨data', hcopy, hreturned⟩
    rw [← hslice] at hreturned
    rw [if_neg (by omega), hcopy, ok_bind]
    rcases @pjmediaCircBufAdvReadPtr_keeps cb count h with ⟨hok, hcap⟩
    exact ⟨_, rfl,
      { ok := hok
        capacity := hcap
        status := by rw [hanswer]
        content := by
          rw [hanswer]
          exact pjmediaCircBufAdvReadPtr_content h
        returned := by
          rw [hanswer]
          exact hreturned
        refused := fun hs => by cases hs
        packed := fun hop => by cases hop }⟩
  · rw [if_pos (by omega)]
    exact ⟨_, rfl, Follows.of_refused h (if_neg (by simpa using hfit))⟩

theorem write_follows (h : cb.Ok) (hcap : cb.capacity < 4294967296) (hlegal : count ≤ data.size)
    (hshort : Short cb (.write data count)) :
    ∃ r, call cb (.write data count) = .ok r ∧ Follows cb (.write data count) r := by
  have hl := h.len_le
  by_cases hfit : cb.len + count ≤ cb.capacity
  · have hanswer : answer cb.capacity (Stuck cb) cb.content (.write data count)
        = ⟨.success, cb.content ++ seg data.cell 0 count, []⟩ := answer_write (by simpa using hfit)
    rcases pjmediaCircBufWrite_ok h hcap hfit hlegal (hshort hfit) with ⟨cb', hwrite, hbuf, hcontent⟩
    have hcap' := congrArg CircBuf.capacity hbuf
    exact ⟨_, hwrite,
      { ok := by
          show cb'.toCircBuf.Ok
          rw [hbuf]
          exact ⟨h.start_lt, hfit⟩
        capacity := hcap'
        status := by rw [hanswer]
        content := by rw [hanswer, hcontent]
        returned := by
          rw [hanswer]
          exact returned_none
        refused := fun hs => by cases hs
        packed := fun hop => by cases hop }⟩
  · refine ⟨_, ?_, Follows.of_refused h (if_neg (by simpa using hfit))⟩
    show pjmediaCircBufWrite cb data count = _
    unfold pjmediaCircBufWrite
    rw [if_pos (by omega)]
    rfl

theorem copy_follows (h : cb.Ok) (hlegal : count ≤ data.size) (hsum : count + startIdx < 4294967296)
    (hshort : Short cb (.copy startIdx data count)) :
    ∃ r, call cb (.copy startIdx data count) = .ok r ∧ Follows cb (.copy startIdx data count) r := by
  have hl := h.len_le
  show ∃ r, pjmediaCircBufCopy cb startIdx data count = .ok r ∧ _
  unfold pjmediaCircBufCopy
  rw [uint32_natCast hsum]
  by_cases hfit : startIdx + count ≤ cb.len
  · have hanswer : answer cb.capacity (Stuck cb) cb.content (.copy startIdx data count)
        = ⟨.success, cb.content, (cb.content.drop startIdx).take count⟩ := if_pos (by simpa using hfit)
    have hregions := h.regions_add
    -- whatever is copied is the slice, and the buffer is not touched
    have hfollows : ∀ data', Returned data data' ((cb.content.drop startIdx).take count) →
        Follows cb (.copy startIdx data count) ⟨.success, cb, data'⟩ := fun data' hreturned =>
      { ok := h
        capacity := rfl
        status := by rw [hanswer]
        content := by rw [hanswer]
        returned := by
          rw [hanswer]
          exact hreturned
        refused := fun _ => rfl
        packed := fun hop => by cases hop }
    rw [if_neg (by omega)]
    by_cases hin : startIdx < (circBufGetReadRegions cb.toCircBuf).1
    · have hslice := h.slice_first hfit hin.le
      rcases @copyOut_ok cb data count (cb.start + startIdx) _ (hshort hfit) hlegal (by omega) (by omega)
        with ⟨data', hcopy, hreturned⟩
      rw [if_pos hin, ← Nat.cast_add, hcopy, ok_bind]
      exact ⟨_, rfl, hfollows data' (hslice ▸ hreturned)⟩
    · have hslice := h.slice_second hfit (by omega)
      have hcount : count < 2147483648 := by
        have hp := (hshort hfit).2
        omega
      rw [if_neg hin, @pjmediaCopySamples_ok data cb.buf 0 (startIdx - (circBufGetReadRegions cb.toCircBuf).1)
        count 0 _ rfl (by omega) hcount (by omega) (by dsimp only [PjmediaCircBuf.buf]; omega), ok_bind]
      refine ⟨_, rfl, hfollows _ ?_⟩
      rw [hslice]
      refine ⟨rfl, ?_, fun i hi => ?_⟩
      · rw [seg_length]
        exact seg_splice
      · rw [seg_length] at hi
        exact splice_apart (by omega)
  · rw [if_pos (by omega)]
    exact ⟨_, rfl, Follows.of_refused h (if_neg (by simpa using hfit))⟩

theorem advReadPtr_follows (h : cb.Ok) :
    ∃ r, call cb (.advReadPtr count) = .ok r ∧ Follows cb (.advReadPtr count) r := by
  rcases @pjmediaCircBufAdvReadPtr_keeps cb count h with ⟨hok, hcap⟩
  exact ⟨_, rfl,
    { ok := hok
      capacity := hcap
      status := rfl
      content := pjmediaCircBufAdvReadPtr_content h
      returned := returned_none
      refused := fun hs => by cases hs
      packed := fun hop => by cases hop }⟩

theorem reset_follows (h : cb.Ok) : ∃ r, call cb .reset = .ok r ∧ Follows cb .reset r := by
  have hs := h.start_lt
  exact ⟨_, rfl,
    { ok := ⟨show 0 < cb.capacity by omega, Nat.zero_le _⟩
      capacity := rfl
      status := rfl
      content := rfl
      returned := returned_none
      refused := fun hs => by cases hs
      packed := fun hop => by cases hop }⟩

theorem packBuffer_follows (h : cb.Ok) (hshort : Short cb .packBuffer) :
    ∃ r, call cb .packBuffer = .ok r ∧ Follows cb .packBuffer r := by
  have hl := h.len_le
  by_cases hstuck : Stuck cb
  · exact ⟨_, pjmediaCircBufPackBuffer_full hstuck.2 hstuck.1 h.start_lt,
      Follows.of_refused h (if_pos hstuck)⟩
  · have hanswer : answer cb.capacity (Stuck cb) cb.content .packBuffer = ⟨.success, cb.content, []⟩ :=
      if_neg hstuck
    have hroom : cb.start + cb.len ≤ cb.capacity ∨ cb.len < cb.capacity := by
      unfold Stuck at hstuck
      omega
    rcases @pjmediaCircBufPackBuffer_ok cb (Op.data .packBuffer) h hroom (hshort hstuck)
      with ⟨cb', hpack, hbuf, hcells⟩
    have hcap := congrArg CircBuf.capacity hbuf
    have hstart := congrArg CircBuf.start hbuf
    have hlen := congrArg CircBuf.len hbuf
    dsimp only at hcap hstart hlen
    have hok : cb'.Ok := by
      show cb'.toCircBuf.Ok
      rw [hbuf]
      exact ⟨Nat.zero_lt_of_lt h.start_lt, hl⟩
    have hcontent : cb'.content = seg cb'.cell 0 cb'.len := by
      unfold PjmediaCircBuf.content
      rw [hstart]
      exact window_eq_seg (by rw [Nat.zero_add]; exact hok.len_le)
    exact ⟨_, hpack,
      { ok := hok
        capacity := hcap
        status := by rw [hanswer]
        content := by rw [hanswer, hcontent, hlen, hcells]
        returned := by
          rw [hanswer]
          exact returned_none
        refused := fun hs => by cases hs
        packed := fun _ _ => ⟨hstart, hcontent.symm⟩ }⟩

/-! ## Runs -/

/-- **Every legal and short operation** answers as the queue. -/
theorem call_follows {op : Op} (h : cb.Ok) (hcap : cb.capacity < 4294967296) (hlegal : Legal cb op)
    (hshort : Short cb op) : ∃ r, call cb op = .ok r ∧ Follows cb op r := by
  cases op with
  | read data count => exact read_follows h hlegal hshort
  | write data count => exact write_follows h hcap hlegal hshort
  | copy startIdx data count => exact copy_follows h hlegal.1 hlegal.2 hshort
  | advReadPtr count => exact advReadPtr_follows h
  | reset => exact reset_follows h
  | packBuffer => exact packBuffer_follows h hshort

theorem asQueue_from (ops : List Op) (h : cb.Ok) (hcap : cb.capacity < 4294967296)
    (hlegal : Machine.Meets step Legal cb ops) (hshort : Machine.Meets step Short cb ops) :
    AsQueue cb ops := by
  induction ops generalizing cb with
  | nil => trivial
  | cons op ops ih =>
      rcases call_follows h hcap hlegal.1 hshort.1 with ⟨r, hcall, hfollows⟩
      have hstep : step cb op = .ok r.circbuf := by
        unfold step
        rw [hcall, ok_bind]
      refine ⟨r, hcall, hfollows, ih hfollows.ok ?_ (hlegal.2 _ hstep) (hshort.2 _ hstep)⟩
      rw [hfollows.capacity]
      exact hcap

/-- **The circular buffer is a queue** in every run whose operations are legal and short. -/
theorem asQueue_of_short {capacity : Nat} (h1 : 1 ≤ capacity) (hcap : capacity < 4294967296)
    (ops : List Op) (hlegal : Machine.Meets step Legal (pjmediaCircBufCreate capacity) ops)
    (hshort : Machine.Meets step Short (pjmediaCircBufCreate capacity) ops) :
    AsQueue (pjmediaCircBufCreate capacity) ops :=
  asQueue_from ops ⟨h1, Nat.zero_le _⟩ hcap hlegal hshort

/-- All operations are short on a buffer of less than `2^31` samples. -/
theorem short_of_small (h : cb.Ok) (hsmall : cb.capacity < 2147483648) (op : Op) : Short cb op := by
  have hl := h.len_le
  cases op with
  | read | write | copy => exact fun hfit => ⟨by omega, by omega⟩
  | advReadPtr | reset => trivial
  | packBuffer => exact fun _ => .inr (by omega)

/-- Such a buffer is a queue in every run. -/
theorem asQueue_of_small {capacity : Nat} (h1 : 1 ≤ capacity) (hsmall : capacity < 2147483648)
    (ops : List Op) (hlegal : Machine.Meets step Legal (pjmediaCircBufCreate capacity) ops) :
    AsQueue (pjmediaCircBufCreate capacity) ops := by
  have hinv : (pjmediaCircBufCreate capacity).Ok ∧ (pjmediaCircBufCreate capacity).capacity = capacity :=
    ⟨⟨h1, Nat.zero_le _⟩, rfl⟩
  refine asQueue_from ops hinv.1 (by omega) hlegal ?_
  refine @Machine.Meets.of_invariant _ _ _ step Legal (fun cb => cb.Ok ∧ cb.capacity = capacity) Short
    ?_ ?_ ops _ hinv hlegal
  · exact fun cb op h _ => short_of_small h.1 (by omega) op
  · intro cb op cb' h hop hstep
    rcases call_follows h.1 (by omega) hop (short_of_small h.1 (by omega) op) with ⟨r, hcall, hfollows⟩
    unfold step at hstep
    rw [hcall, ok_bind] at hstep
    obtain rfl := Except.ok.inj hstep
    exact ⟨hfollows.ok, hfollows.capacity.trans h.2⟩

/-- Samples that wrap, a full buffer that cannot be packed, and one that can. -/
def wrapping : List Op :=
  [.write ⟨3, fun i => Int16.ofNat (i + 1)⟩ 3, .read ⟨2, fun _ => 0⟩ 2, .write ⟨3, fun i => Int16.ofNat (i + 4)⟩ 3,
    .packBuffer, .advReadPtr 1, .packBuffer, .copy 1 ⟨2, fun _ => 0⟩ 2]

theorem asQueue_wrapping : AsQueue (pjmediaCircBufCreate 4) wrapping := by
  have hcheck : Machine.checkRun step (fun cb op => decide (Legal cb op ∧ Short cb op))
      (fun cb => decide (cb.content = [4, 5, 6])) (pjmediaCircBufCreate 4) wrapping = true := by
    decide +kernel
  have hmeets := (Machine.checkRun_sound _ _ _ _ _ hcheck).1
  exact asQueue_of_short (by omega) (by omega) wrapping
    (hmeets.mono (fun _ _ h => (of_decide_eq_true h).1) _ _)
    (hmeets.mono (fun _ _ h => (of_decide_eq_true h).2) _ _)

/-- An array of `2^31` samples. -/
def ones : Samples := ⟨2147483648, fun _ => 1⟩

/-- Of `2^31` samples, which the buffer has room for, none is written. -/
theorem not_asQueue_ones :
    Machine.Meets step Legal (pjmediaCircBufCreate 2147483648) [.write ones 2147483648] ∧
      ¬ AsQueue (pjmediaCircBufCreate 2147483648) [.write ones 2147483648] := by
  refine ⟨⟨Nat.le_refl _, fun _ _ => trivial⟩, ?_⟩
  rintro ⟨r, hcall, hfollows, -⟩
  have hcopied : copiedCnt 2147483648 = 0 := by decide +kernel
  have hcnt : uint32 2147483648 = 2147483648 := by decide +kernel
  have hresult : call (pjmediaCircBufCreate 2147483648) (.write ones 2147483648)
      = .ok ⟨.success, pjmediaCircBufSetLen (pjmediaCircBufCreate 2147483648) 2147483648, ones⟩ := by
    simp [call, pjmediaCircBufWrite, pjmediaCircBufCreate, circBufCreate, circBufGetWriteRegions, copyIn,
      pjmediaCopySamples, PjmediaCircBuf.buf, access, hcopied, hcnt, bind, Except.bind]
  obtain rfl := Except.ok.inj (hresult.symm.trans hcall)
  -- the queue has the samples, the buffer still has zeros
  have hcontent := hfollows.content
  rw [pjmediaCircBufCreate_content, answer_write (show 0 + 2147483648 ≤ 2147483648 by omega)] at hcontent
  have hfirst : (some 0 : Option Int16) = some 1 := by
    calc (some 0 : Option Int16)
        = (pjmediaCircBufSetLen (pjmediaCircBufCreate 2147483648) 2147483648).content[0]? :=
          (window_getElem? (fun _ => 0) 2147483648 0 2147483648 (by omega)).symm
      _ = (seg ones.cell 0 2147483648)[0]? := by
          rw [hcontent]
          exact congrArg (fun l => l[0]?) (List.nil_append _)
      _ = some 1 := seg_getElem? (by omega)
  cases hfirst

end Wsola.Queue
