import PjProject.Jbuf.Jbuf
import PjProject.Jbuf.Window

set_option autoImplicit false

/-! # What the frame list holds of the frames that were put

A log lists the puts and gets of a run with what they answered. `Held` relates a frame list to it:
a *normal* slot of the window holds the first accepted put of its sequence number, and an accepted
put is still in its slot, flagged, or behind the window. It needs none of what counts the discarded
frames. One lemma for each thing that happens to a frame list says that it is kept: the oldest frames
go (`Held.dropped`), a slot is flagged (`Held.flagged`), a frame is stored (`Held.stored`).
-/

namespace Jbuf

open MachineInt Circular

/-! ## The log -/

/-- A put, with the reported flag, or a get, with the frame that was taken out. -/
inductive JbufEvent where
  | put (frame : List UInt8) (bitInfo : Nat) (frameSeq : Int) (ts : Nat) (discarded : Bool)
  | got (type : JbFrameType) (out : Option FrameOut)
  deriving DecidableEq

/-- What the caller gives with a frame. -/
structure PutFrame where
  frame : List UInt8
  bitInfo : Nat
  ts : Nat
  deriving DecidableEq

/-- The frame of an accepted put of the sequence number. -/
def JbufEvent.acceptedAs (q : Int) : JbufEvent → Option PutFrame
  | .put frame bitInfo frameSeq ts false =>
      if frameSeq = q then some ⟨frame, bitInfo, ts⟩ else none
  | _ => none

/-- The first accepted put of the sequence number. -/
def firstAccepted (log : List JbufEvent) (q : Int) : Option PutFrame :=
  log.findSome? (JbufEvent.acceptedAs q)

/-- The sequence number of a frame that was returned as *normal*. -/
def JbufEvent.normalSeq : JbufEvent → Option Int
  | .got .normal (some out) => some out.seq
  | _ => none

def normalSeqs (log : List JbufEvent) : List Int := log.filterMap JbufEvent.normalSeq

/-- The returned frame has the bytes, as far as a slot of `F` bytes holds them, and the fields of the
put. -/
structure Carries (F : Nat) (out : FrameOut) (p : PutFrame) : Prop where
  size : out.size = min p.frame.length F
  bytes : out.frame.take out.size = p.frame.take F
  bitInfo : out.bitInfo = p.bitInfo
  ts : out.ts = p.ts

/-- What was returned as *normal* carries what was accepted first under its number, and the numbers
increase. -/
structure Delivered (F : Nat) (log : List JbufEvent) : Prop where
  carries : ∀ out, .got .normal (some out) ∈ log →
    ∃ p, firstAccepted log out.seq = some p ∧ Carries F out p
  increasing : (normalSeqs log).Pairwise (· < ·)

theorem firstAccepted_append (log : List JbufEvent) (e : JbufEvent) (q : Int) :
    firstAccepted (log ++ [e]) q = (firstAccepted log q).or (e.acceptedAs q) := by
  simp [firstAccepted, List.findSome?_append]

/-- What was accepted first stays so. -/
theorem firstAccepted_mono {log : List JbufEvent} {q : Int} {p : PutFrame}
    (h : firstAccepted log q = some p) (e : JbufEvent) : firstAccepted (log ++ [e]) q = some p := by
  rw [firstAccepted_append, h, Option.some_or]

/-! ## The bytes of the slots -/

theorem frameAt_congr {fl fl' : JbFramelist} (hfs : fl'.frameSize = fl.frameSize)
    (hcontent : fl'.content = fl.content) (pos : Nat) : fl'.frameAt pos = fl.frameAt pos := by
  unfold JbFramelist.frameAt JbFramelist.offset
  rw [hfs, hcontent]

/-- The slot holds what has been copied to it. -/
theorem frameAt_copyIn {fl fl' : JbFramelist} {pos n : Nat} {frame : List UInt8}
    (hfs : fl'.frameSize = fl.frameSize) (hcontent : fl'.content = fl.copyIn pos frame n)
    (hn : n ≤ fl.frameSize) (hlen : n ≤ frame.length) :
    (fl'.frameAt pos).take n = frame.take n := by
  have hoff : fl'.offset pos = fl.offset pos := by
    unfold JbFramelist.offset
    rw [hfs]
  unfold JbFramelist.frameAt
  rw [hfs, hoff, hcontent]
  refine List.ext_getElem ?_ fun i h1 h2 => ?_
  · simp
    omega
  · have hi : i < n := by
      rw [List.length_take] at h2
      omega
    have hget : fl.copyIn pos frame n (fl.offset pos + i) = frame.getD i 0 := by
      unfold JbFramelist.copyIn
      rw [if_pos (by omega), show fl.offset pos + i - fl.offset pos = i by omega]
    simp only [List.getElem_take, List.getElem_map, List.getElem_range, hget]
    rw [List.getD_eq_getElem?_getD, List.getElem?_eq_getElem (by omega), Option.getD_some]

/-- The other slots hold what they held. -/
theorem frameAt_copyIn_ne {fl fl' : JbFramelist} {pos pos' n : Nat} {frame : List UInt8}
    (hroom : fl.frameSize * fl.maxCount < 4294967296) (hfs : fl'.frameSize = fl.frameSize)
    (hcontent : fl'.content = fl.copyIn pos frame n) (hn : n ≤ fl.frameSize) (hpos : pos < fl.maxCount)
    (hpos' : pos' < fl.maxCount) (hne : pos' ≠ pos) : fl'.frameAt pos' = fl.frameAt pos' := by
  have hoff : fl'.offset pos' = fl.offset pos' := by
    unfold JbFramelist.offset
    rw [hfs]
  unfold JbFramelist.frameAt
  rw [hfs, hoff, hcontent]
  apply List.map_congr_left
  intro i hi
  have hi := List.mem_range.mp hi
  unfold JbFramelist.copyIn
  rw [offset_of_room hroom hpos, offset_of_room hroom hpos', if_neg]
  -- The bytes of one slot lie in front of those of the other.
  rintro ⟨hlo, hhi⟩
  rcases Nat.lt_or_gt_of_ne hne with hlt | hlt
  · have hle := Nat.mul_le_mul_right fl.frameSize (show pos' + 1 ≤ pos from hlt)
    rw [Nat.add_one_mul] at hle
    omega
  · have hle := Nat.mul_le_mul_right fl.frameSize (show pos + 1 ≤ pos' from hlt)
    rw [Nat.add_one_mul] at hle
    omega

/-! ## The invariant -/

/-- The slot holds what was accepted first under the number. -/
structure Slot (F : Nat) (log : List JbufEvent) (fl : JbFramelist) (pos : Nat) (p : PutFrame) :
    Prop where
  len : fl.contentLen pos = min p.frame.length F
  bytes : (fl.frameAt pos).take (fl.contentLen pos) = p.frame.take F
  bitInfo : fl.bitInfo pos = p.bitInfo
  ts : fl.ts pos = p.ts

/-- A frame list of `M` slots, without overflow. -/
structure Window (M : Nat) (fl : JbFramelist) : Prop where
  maxCount : fl.maxCount = M
  bounded : M < 2147483648
  room : fl.frameSize * M < 4294967296
  head_lt : fl.head < M
  size_le : fl.size ≤ M
  origin_ge : -2147483648 ≤ fl.origin
  end_le : fl.origin + fl.size ≤ 2147483647

/-- The frame list, of `M` slots of `F` bytes, against the log. -/
structure Held (F M : Nat) (log : List JbufEvent) (fl : JbFramelist) : Prop extends Window M fl where
  beyond : ∀ j, fl.size ≤ j → j < M → fl.frameType (fl.slot j) = .missing
  normal : ∀ i, i < fl.size → fl.frameType (fl.slot i) = .normal →
    ∃ p, firstAccepted log (fl.origin + i) = some p ∧ Slot F log fl (fl.slot i) p
  accepted : ∀ q p, firstAccepted log q = some p → q < fl.origin ∨
    ∃ i : Nat, i < fl.size ∧ q = fl.origin + i ∧ fl.frameType (fl.slot i) ≠ .missing
  returned : ∀ s ∈ normalSeqs log, s < fl.origin
  delivered : Delivered F log

variable {F M : Nat} {log : List JbufEvent} {fl fl' : JbFramelist}

/-- **The oldest `k` frames go.** Their slots are cleared and the other slots of the window are as they
were. -/
theorem Held.dropped (h : Held F M log fl) {k : Nat} (hk : k ≤ fl.size)
    (hfs : fl'.frameSize = fl.frameSize) (hcontent : fl'.content = fl.content)
    (hmax : fl'.maxCount = fl.maxCount) (hhead : fl'.head = (fl.head + k) % fl.maxCount)
    (hsize : fl'.size = fl.size - k) (horigin : fl'.origin = fl.origin + k)
    (hclear : ∀ i, i < k → fl'.frameType (fl.slot i) = .missing)
    (hkeep : ∀ i, k ≤ i → i < M → fl'.frameType (fl.slot i) = fl.frameType (fl.slot i) ∧
      fl'.contentLen (fl.slot i) = fl.contentLen (fl.slot i) ∧
      fl'.bitInfo (fl.slot i) = fl.bitInfo (fl.slot i) ∧ fl'.ts (fl.slot i) = fl.ts (fl.slot i)) :
    Held F M log fl' := by
  obtain ⟨hM, hb, hroom, hlt, hle, hlo, hhi⟩ := h.toWindow
  have hslot : ∀ i, fl'.slot i = fl.slot (k + i) := by
    intro i
    simp only [JbFramelist.slot, hmax, hhead, Nat.mod_add_mod, Nat.add_assoc]
  constructor
  · refine ⟨hmax.trans hM, hb, hfs ▸ hroom, ?_, by omega, by omega, by omega⟩
    rw [hhead, hM]
    exact Nat.mod_lt _ (by omega)
  · intro j hj hjM
    rw [hslot]
    by_cases hin : k + j < M
    · rw [(hkeep (k + j) (by omega) hin).1]
      exact h.beyond (k + j) (by omega) hin
    · -- the slot is one of those that were cleared
      have hwrap : fl.slot (k + j) = fl.slot (k + j - M) := by
        unfold JbFramelist.slot
        rw [hM, show fl.head + (k + j) = fl.head + (k + j - M) + M by omega, Nat.add_mod_right]
      rw [hwrap]
      exact hclear (k + j - M) (by omega)
  · intro i hi hnormal
    rw [hslot] at hnormal ⊢
    rcases hkeep (k + i) (by omega) (by omega) with ⟨htype, hlen, hbit, hts⟩
    rw [htype] at hnormal
    rcases h.normal (k + i) (by omega) hnormal with ⟨p, hp, hs⟩
    refine ⟨p, ?_, ?_⟩
    · rw [horigin]
      push_cast at hp
      rw [← hp]
      congr 1
      omega
    · exact ⟨hlen.trans hs.len, by rw [frameAt_congr hfs hcontent, hlen]; exact hs.bytes, hbit.trans hs.bitInfo,
        hts.trans hs.ts⟩
  · intro q p hq
    rcases h.accepted q p hq with hold | ⟨i, hi, hqi, hne⟩
    · left
      omega
    · by_cases hik : i < k
      · left
        omega
      · right
        refine ⟨i - k, by omega, by omega, ?_⟩
        rw [hslot, show k + (i - k) = i by omega, (hkeep i (by omega) (by omega)).1]
        exact hne
  · intro s hs
    have hold := h.returned s hs
    omega
  · exact h.delivered

/-- **A slot of the window is flagged.** -/
theorem Held.flagged (h : Held F M log fl) {d num : Nat} (hd : d < fl.size) :
    Held F M log { fl with
      frameType := setAt fl.frameType (fl.slot d) .discarded, discardedNum := num } := by
  have hM := h.maxCount
  have hle := h.size_le
  constructor
  · exact ⟨hM, h.bounded, h.room, h.head_lt, hle, h.origin_ge, h.end_le⟩
  · intro j hj hjM
    show setAt fl.frameType (fl.slot d) .discarded (fl.slot j) = .missing
    unfold setAt
    split
    next he =>
      have hjd : j = d := slot_inj (m := fl.maxCount) (h := fl.head) (by omega) (by omega) he
      exact absurd hj (by dsimp only; omega)
    next => exact h.beyond j hj hjM
  · intro i hi hnormal
    change setAt fl.frameType (fl.slot d) .discarded (fl.slot i) = .normal at hnormal
    unfold setAt at hnormal
    split at hnormal
    · cases hnormal
    · rcases h.normal i hi hnormal with ⟨p, hp, hs⟩
      exact ⟨p, hp, hs.len, hs.bytes, hs.bitInfo, hs.ts⟩
  · intro q p hq
    rcases h.accepted q p hq with hold | ⟨i, hi, hqi, hne⟩
    · exact .inl hold
    · right
      refine ⟨i, hi, hqi, ?_⟩
      show setAt fl.frameType (fl.slot d) .discarded (fl.slot i) ≠ .missing
      unfold setAt
      split
      · simp
      · exact hne
  · exact h.returned
  · exact h.delivered

/-- **The empty window begins at another number**, which is not below it. -/
theorem Held.moved (h : Held F M log fl) (h0 : fl.size = 0) {index : Int} (hlo : fl.origin ≤ index)
    (hhi : index ≤ 2147483646) : Held F M log { fl with origin := index } := by
  have hge := h.origin_ge
  constructor
  · exact ⟨h.maxCount, h.bounded, h.room, h.head_lt, h.size_le, by dsimp only; omega, by dsimp only; omega⟩
  · exact h.beyond
  · intro i hi
    dsimp only at hi
    omega
  · intro q p hq
    rcases h.accepted q p hq with hold | ⟨i, hi, -⟩
    · left
      dsimp only
      omega
    · omega
  · intro s hs
    have hold := h.returned s hs
    dsimp only
    omega
  · exact h.delivered

/-! ## The log grows -/

/-- An event that accepts nothing and returns nothing as *normal*. -/
theorem Held.quiet (h : Held F M log fl) {e : JbufEvent} (hacc : ∀ q, e.acceptedAs q = none)
    (hnorm : e.normalSeq = none) : Held F M (log ++ [e]) fl := by
  have hfirst : ∀ q, firstAccepted (log ++ [e]) q = firstAccepted log q := by
    intro q
    rw [firstAccepted_append, hacc, Option.or_none]
  have hseqs : normalSeqs (log ++ [e]) = normalSeqs log := by
    simp [normalSeqs, hnorm]
  constructor
  · exact h.toWindow
  · exact h.beyond
  · intro i hi hnormal
    rcases h.normal i hi hnormal with ⟨p, hp, hs⟩
    exact ⟨p, (hfirst _).trans hp, hs.len, hs.bytes, hs.bitInfo, hs.ts⟩
  · intro q p hq
    rw [hfirst] at hq
    exact h.accepted q p hq
  · rw [hseqs]
    exact h.returned
  · constructor
    · intro out hout
      rcases List.mem_append.mp hout with hout | hout
      · rcases h.delivered.carries out hout with ⟨p, hp, hc⟩
        exact ⟨p, (hfirst _).trans hp, hc⟩
      · rw [← List.mem_singleton.mp hout] at hnorm
        simp [JbufEvent.normalSeq] at hnorm
    · rw [hseqs]
      exact h.delivered.increasing

/-- **A frame is returned**, which carries what was accepted first under a number that is not below the
numbers returned before and is now behind the window. -/
theorem Held.returns (h : Held F M log fl) {out : FrameOut} {p : PutFrame}
    (hp : firstAccepted log out.seq = some p) (hc : Carries F out p)
    (hnew : ∀ s ∈ normalSeqs log, s < out.seq) (hlt : out.seq < fl.origin) :
    Held F M (log ++ [.got .normal (some out)]) fl := by
  have hfirst : ∀ q, firstAccepted (log ++ [.got .normal (some out)]) q = firstAccepted log q := by
    intro q
    rw [firstAccepted_append]
    simp [JbufEvent.acceptedAs]
  have hseqs : normalSeqs (log ++ [.got .normal (some out)]) = normalSeqs log ++ [out.seq] := by
    simp [normalSeqs, JbufEvent.normalSeq]
  constructor
  · exact h.toWindow
  · exact h.beyond
  · intro i hi hnormal
    rcases h.normal i hi hnormal with ⟨p', hp', hs⟩
    exact ⟨p', (hfirst _).trans hp', hs.len, hs.bytes, hs.bitInfo, hs.ts⟩
  · intro q p' hq
    rw [hfirst] at hq
    exact h.accepted q p' hq
  · rw [hseqs]
    intro s hs
    rcases List.mem_append.mp hs with hs | hs
    · exact h.returned s hs
    · rw [List.mem_singleton.mp hs]
      exact hlt
  · constructor
    · intro out' hout
      rcases List.mem_append.mp hout with hout | hout
      · rcases h.delivered.carries out' hout with ⟨p', hp', hc'⟩
        exact ⟨p', (hfirst _).trans hp', hc'⟩
      · have heq := List.mem_singleton.mp hout
        simp only [JbufEvent.got.injEq, true_and, Option.some.injEq] at heq
        rw [heq]
        exact ⟨p, (hfirst _).trans hp, hc⟩
    · rw [hseqs, List.pairwise_append]
      refine ⟨h.delivered.increasing, List.pairwise_singleton _ _, ?_⟩
      intro s hs s' hs'
      rw [List.mem_singleton.mp hs']
      exact hnew s hs

/-- **A frame is stored** in a missing slot, at distance `d`, and its put is accepted. -/
theorem Held.stored (h : Held F M log fl) {d : Nat} {frame : List UInt8} {bitInfo ts : Nat}
    (hd : d < M) (hmiss : fl.frameType (fl.slot d) = .missing)
    (hn : min frame.length F ≤ fl.frameSize) (hfs : fl'.frameSize = fl.frameSize)
    (hmax : fl'.maxCount = fl.maxCount)
    (hhead : fl'.head = fl.head) (horigin : fl'.origin = fl.origin)
    (hsize : fl'.size = max fl.size (d + 1)) (htop : fl.origin + d + 1 ≤ 2147483647)
    (htype : fl'.frameType = setAt fl.frameType (fl.slot d) .normal)
    (hlen : fl'.contentLen = setAt fl.contentLen (fl.slot d) (min frame.length F))
    (hbit : fl'.bitInfo = setAt fl.bitInfo (fl.slot d) bitInfo)
    (hts : fl'.ts = setAt fl.ts (fl.slot d) ts)
    (hcontent : fl'.content = fl.copyIn (fl.slot d) frame (min frame.length F)) :
    Held F M (log ++ [.put frame bitInfo (fl.origin + d) ts false]) fl' := by
  obtain ⟨hM, hb, hroom, hlt, hle, hlo, hhi⟩ := h.toWindow
  have hslot : ∀ i, fl'.slot i = fl.slot i := by
    intro i
    simp only [JbFramelist.slot, hmax, hhead]
  have hinj : ∀ i, i < M → fl.slot i = fl.slot d → i = d := by
    intro i hi he
    exact slot_inj (m := fl.maxCount) (h := fl.head) (by omega) (by omega) he
  -- no put of this number was accepted before
  have hfresh : firstAccepted log (fl.origin + d) = none := by
    cases hf : firstAccepted log (fl.origin + d) with
    | none => rfl
    | some p =>
        rcases h.accepted _ p hf with hold | ⟨i, hi, hqi, hne⟩
        · omega
        · have hid : i = d := by omega
          rw [hid] at hne
          exact absurd hmiss hne
  have hfirst : ∀ q, firstAccepted (log ++ [.put frame bitInfo (fl.origin + d) ts false]) q =
      if fl.origin + d = q then some ⟨frame, bitInfo, ts⟩ else firstAccepted log q := by
    intro q
    rw [firstAccepted_append]
    by_cases hq : fl.origin + d = q
    · rw [← hq, hfresh]
      simp [JbufEvent.acceptedAs]
    · simp [JbufEvent.acceptedAs, hq]
  have hseqs : normalSeqs (log ++ [.put frame bitInfo (fl.origin + d) ts false]) =
      normalSeqs log := by
    simp [normalSeqs, JbufEvent.normalSeq]
  constructor
  · exact ⟨hmax.trans hM, hb, hfs ▸ hroom, hhead ▸ hlt, by omega, by omega, by omega⟩
  · intro j hj hjM
    rw [hslot, htype]
    unfold setAt
    rw [if_neg (fun he => by have := hinj j hjM he; omega)]
    exact h.beyond j (by omega) hjM
  · intro i hi hnormal
    rw [hslot] at hnormal ⊢
    rw [horigin, hfirst]
    by_cases hid : i = d
    · subst hid
      refine ⟨⟨frame, bitInfo, ts⟩, if_pos rfl, ?_, ?_, ?_, ?_⟩
      · simp [hlen, setAt]
      · simp only [hlen, setAt, if_pos]
        rw [frameAt_copyIn hfs hcontent hn (Nat.min_le_left _ _)]
        simp [List.take_eq_take_iff, Nat.min_comm]
      · simp [hbit, setAt]
      · simp [hts, setAt]
    · have hne : fl.slot i ≠ fl.slot d := fun he => hid (hinj i (by omega) he)
      rw [htype] at hnormal
      unfold setAt at hnormal
      rw [if_neg hne] at hnormal
      have hi' : i < fl.size := by
        by_contra hge
        rw [h.beyond i (by omega) (by omega)] at hnormal
        cases hnormal
      rcases h.normal i hi' hnormal with ⟨p, hp, hs⟩
      refine ⟨p, ?_, ?_, ?_, ?_, ?_⟩
      · rw [if_neg (by omega)]
        exact hp
      · simp [hlen, setAt, hne, hs.len]
      · have hpos : ∀ j, fl.slot j < fl.maxCount := fun j => Nat.mod_lt _ (by omega)
        rw [frameAt_copyIn_ne (hM ▸ h.room) hfs hcontent hn (hpos d) (hpos i) hne]
        simpa [hlen, setAt, hne] using hs.bytes
      · simp [hbit, setAt, hne, hs.bitInfo]
      · simp [hts, setAt, hne, hs.ts]
  · intro q p hq
    rw [hfirst] at hq
    by_cases hqd : fl.origin + d = q
    · right
      refine ⟨d, by omega, by omega, ?_⟩
      rw [hslot, htype]
      simp [setAt]
    · rw [if_neg hqd] at hq
      rcases h.accepted q p hq with hold | ⟨i, hi, hqi, hne⟩
      · left
        omega
      · right
        refine ⟨i, by omega, by omega, ?_⟩
        rw [hslot, htype]
        unfold setAt
        split
        · simp
        · exact hne
  · rw [hseqs, horigin]
    exact h.returned
  · constructor
    · intro out hout
      rcases List.mem_append.mp hout with hout | hout
      · rcases h.delivered.carries out hout with ⟨p, hp, hc⟩
        exact ⟨p, firstAccepted_mono hp _, hc⟩
      · cases List.mem_singleton.mp hout
    · rw [hseqs]
      exact h.delivered.increasing

end Jbuf
