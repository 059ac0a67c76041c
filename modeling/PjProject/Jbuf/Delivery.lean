import PjProject.Jbuf.Log
import PjProject.Library.Run

set_option autoImplicit false

/-! # What the jitter buffer delivers

A run of puts and gets in which every sequence number is fewer than `MAX_MISORDER` below the origin and
fewer than `max_count` above it restarts nothing and overflows nothing. Whatever is discarded on the
way, a frame that such a run returns as *normal* carries what was accepted first under its number, as
far as a slot holds it, and the numbers increase (`delivered_run`).

A put takes no more than `jb_frame_size` bytes of a frame, so a longer one comes out cut off
(`longFrame_cut`).
-/

namespace Jbuf

open MachineInt Circular Machine

variable {F M : Nat} {log : List JbufEvent} {fl fl' : JbFramelist}

/-! ## The frame list -/

/-- What removing leaves: the first slots are cleared, in one step or in two. -/
theorem removeHead_held (h : Held F M log fl) {count n : Nat}
    (hr : jbFramelistRemoveHead fl count = .ok (fl', n)) : Held F M log fl' := by
  obtain ⟨hM, hb, -, hh, hle, hge, hend⟩ := h.toWindow
  have hlt : fl.head < fl.maxCount := by omega
  have hcnt : (if fl.size < count then fl.size else count) = min count fl.size := by
    split
    · omega
    · omega
  unfold jbFramelistRemoveHead at hr
  simp only [hcnt] at hr
  have hk : min count fl.size ≤ fl.size := Nat.min_le_right _ _
  generalize min count fl.size = k at hk hr
  by_cases hk0 : k = 0
  · rw [if_pos hk0] at hr
    cases hr
    exact h
  rw [if_neg hk0, uint32_natCast (by omega)] at hr
  by_cases hw : fl.maxCount < fl.head + k
  -- The removed slots wrap around the end of the arrays.
  · simp only [if_pos hw] at hr
    split at hr
    · cases hr
    split at hr
    · cases hr
    cases hr
    refine h.dropped hk rfl rfl rfl rfl rfl (int32_of_range (by omega) (by omega)) ?_ ?_
    · intro i hi
      have hval := slot_cases (i := i) hlt (by omega)
      have hpos : fl.slot i < fl.maxCount := Nat.mod_lt _ (by omega)
      simp only [fill]
      by_cases hin : 0 ≤ fl.slot i ∧ fl.slot i < 0 + (n - (fl.maxCount - fl.head))
      · rw [if_pos hin]
      · rw [if_neg hin, if_pos (by omega)]
    · intro i hki hi
      have hval := slot_cases (i := i) hlt (by omega)
      have h1 : ¬ (0 ≤ fl.slot i ∧ fl.slot i < 0 + (n - (fl.maxCount - fl.head))) := by omega
      have h2 : ¬ (fl.head ≤ fl.slot i ∧ fl.slot i < fl.head + (fl.maxCount - fl.head)) := by omega
      simp only [fill, if_neg h1, if_neg h2, and_self]
  · simp only [if_neg hw, uncountDiscarded] at hr
    split at hr
    · cases hr
    cases hr
    refine h.dropped hk rfl rfl rfl rfl rfl (int32_of_range (by omega) (by omega)) ?_ ?_
    · intro i hi
      have hval : fl.slot i = fl.head + i := Nat.mod_eq_of_lt (by omega)
      simp only [fill, hval]
      rw [if_neg (by omega), if_pos (by omega)]
    · intro i hki hi
      have hval := slot_cases (i := i) hlt (by omega)
      have h1 : ¬ (0 ≤ fl.slot i ∧ fl.slot i < 0 + 0) := by omega
      have h2 : ¬ (fl.head ≤ fl.slot i ∧ fl.slot i < fl.head + n) := by omega
      simp only [fill, if_neg h1, if_neg h2, and_self]

theorem skipDiscarded_held : ∀ (fuel : Nat) {fl : JbFramelist} {prev : Bool} {r : JbFramelist × Bool},
    Held F M log fl → skipDiscarded fuel fl prev = .ok r → Held F M log r.1
  | 0, _, _, _, _, hr => by cases hr
  | fuel + 1, fl, prev, r, h, hr => by
      unfold skipDiscarded at hr
      split at hr
      · split at hr
        · cases hr
        next fl' n hrem => exact skipDiscarded_held fuel (removeHead_held h hrem) hr
      · cases hr
        exact h

/-- **The head frame is taken out**: it goes, and if it is returned as *normal* it carries what its
slot held. -/
theorem dropHead_held (h : Held F M log fl) (h0 : fl.size ≠ 0) (prev : Bool) :
    Held F M log (dropHead fl) ∧ (dropHead fl).origin = fl.origin + 1 ∧
      (headOut fl prev).seq = fl.origin ∧
      ((headOut fl prev).type = .normal →
        ∃ p, firstAccepted log fl.origin = some p ∧ Carries F (headOut fl prev) p) := by
  obtain ⟨hM, hb, -, hh, hle, hge, hend⟩ := h.toWindow
  have hslot0 : fl.slot 0 = fl.head := Nat.mod_eq_of_lt (by omega)
  have horigin : int32 (fl.origin + 1) = fl.origin + 1 := int32_of_range (by omega) (by omega)
  have hhead : uint32 (fl.head + 1 : Nat) % fl.maxCount = (fl.head + 1) % fl.maxCount := by
    rw [uint32_natCast (by omega)]
  refine ⟨?_, horigin, ?_, ?_⟩
  · refine h.dropped (k := 1) (by omega) rfl rfl rfl hhead rfl horigin ?_ ?_
    · intro i hi
      have hi0 : i = 0 := by omega
      rw [hi0, hslot0]
      simp [dropHead, setAt]
    · intro i hki hi
      have hne : fl.slot i ≠ fl.head := by
        intro he
        rw [← hslot0] at he
        have hi0 : i = 0 := slot_inj (m := fl.maxCount) (h := fl.head) (by omega) (by omega) he
        omega
      simp [dropHead, setAt, hne]
  · unfold headOut
    cases prev with
    | true => rfl
    | false => rfl
  · intro htype
    cases prev with
    | true => cases htype
    | false =>
        have htype' : fl.frameType (fl.slot 0) = .normal := by
          rw [hslot0]
          exact htype
        rcases h.normal 0 (by omega) htype' with ⟨p, hp, hs⟩
        rw [hslot0] at hs
        refine ⟨p, ?_, hs.len, hs.bytes, hs.bitInfo, hs.ts⟩
        rw [← hp]
        simp

/-- **A get**: what it returns as *normal* carries what was accepted first, under a number that is not
below those returned before. -/
theorem get_held (h : Held F M log fl) {fuel : Nat} {out : Option FrameOut}
    (hr : jbFramelistGet fuel fl = .ok (fl', out)) :
    Held F M log fl' ∧ ∀ o, out = some o → o.type = .normal →
      (∃ p, firstAccepted log o.seq = some p ∧ Carries F o p) ∧
        (∀ s ∈ normalSeqs log, s < o.seq) ∧ o.seq < fl'.origin := by
  unfold jbFramelistGet at hr
  split at hr
  · cases hr
    exact ⟨h, by simp⟩
  split at hr
  · cases hr
  next fl₁ prev hskip =>
    have h₁ := skipDiscarded_held fuel h hskip
    dsimp only at h₁
    split at hr
    · cases hr
      exact ⟨h₁, by simp⟩
    next h0 =>
      -- the head frame is copied out, or lies outside `content`
      unfold takeHead at hr
      split at hr
      · cases hr
      cases hr
      rcases dropHead_held h₁ h0 prev with ⟨hheld, horigin, hseq, hcarries⟩
      refine ⟨hheld, ?_⟩
      rintro o ho htype
      cases ho
      rw [hseq, horigin]
      exact ⟨hcarries htype, fun s hs => h₁.returned s hs, by omega⟩

theorem discard_held (h : Held F M log fl) (index : Int) :
    Held F M log (jbFramelistDiscard fl index).1 := by
  obtain ⟨hM, hb, -, hh, hle, hge, hend⟩ := h.toWindow
  unfold jbFramelistDiscard
  rw [int32_of_range (x := (fl.size : Int)) (by omega) (by omega),
    int32_of_range (x := fl.origin + fl.size) (by omega) (by omega)]
  by_cases hin : fl.origin ≤ index ∧ index < fl.origin + fl.size
  · rw [if_pos hin]
    rcases Int.eq_ofNat_of_zero_le (show 0 ≤ index - fl.origin by omega) with ⟨d, hd⟩
    have hpos : uint32 (fl.head + int32 (index - fl.origin)) % fl.maxCount = fl.slot d := by
      rw [hd, int32_of_range (by omega) (by omega),
        show (fl.head : Int) + (d : Int) = ((fl.head + d : Nat) : Int) by push_cast; ring,
        uint32_natCast (by omega)]
      rfl
    simp only [hpos]
    exact h.flagged (by omega)
  · rw [if_neg hin]
    exact h

/-! ## The jitter buffer -/

variable {jb jb' : PjmediaJbuf}

/-- What the discard algorithms and the other fields' updates leave. -/
structure JbHeld (F M : Nat) (log : List JbufEvent) (jb : PjmediaJbuf) : Prop where
  list : Held F M log jb.jbFramelist
  frameSize : jb.jbFrameSize = F

theorem JbHeld.of_eq (h : JbHeld F M log jb) (hl : jb'.jbFramelist = jb.jbFramelist)
    (hf : jb'.jbFrameSize = jb.jbFrameSize) : JbHeld F M log jb' :=
  ⟨hl ▸ h.list, hf.trans h.frameSize⟩

theorem discardProgressive_held (h : JbHeld F M log jb) : JbHeld F M log (jbufDiscardProgressive jb) := by
  unfold jbufDiscardProgressive
  split
  · exact h
  dsimp only
  split
  · exact h.of_eq rfl rfl
  split
  · exact ⟨discard_held h.list _, h.frameSize⟩
  · exact h.of_eq rfl rfl

theorem discardStatic_held (h : JbHeld F M log jb) (hr : jbufDiscardStatic jb = .ok jb') :
    JbHeld F M log jb' := by
  unfold jbufDiscardStatic at hr
  dsimp only at hr
  generalize (if jbFramelistOrigin jb.jbFramelist < jb.jbDiscardRef then
    jbFramelistOrigin jb.jbFramelist else jb.jbDiscardRef) = ref at hr
  split at hr
  · split at hr
    · split at hr
      · cases hr
      next fl removed hrem =>
        cases hr
        exact ⟨removeHead_held h.list hrem, h.frameSize⟩
    · cases hr
      exact h.of_eq rfl rfl
  · cases hr
    exact h

theorem callDiscardAlgo_held (h : JbHeld F M log jb) (hr : callDiscardAlgo jb = .ok jb') :
    JbHeld F M log jb' := by
  unfold callDiscardAlgo at hr
  split at hr
  · cases hr
    exact discardProgressive_held h
  · exact discardStatic_held h hr
  · cases hr
    exact h

theorem calculateJitter_list (jb : PjmediaJbuf) :
    (jbufCalculateJitter jb).jbFramelist = jb.jbFramelist ∧
      (jbufCalculateJitter jb).jbFrameSize = jb.jbFrameSize := by
  unfold jbufCalculateJitter
  dsimp only
  split
  · split
    · exact ⟨rfl, rfl⟩
    · exact ⟨rfl, rfl⟩
  · split
    · exact ⟨rfl, rfl⟩
    · exact ⟨rfl, rfl⟩

theorem update_held (h : JbHeld F M log jb) {oper : JbOp} (hr : jbufUpdate jb oper = .ok jb') :
    JbHeld F M log jb' := by
  unfold jbufUpdate at hr
  split at hr
  · exact callDiscardAlgo_held h hr
  dsimp only at hr
  split at hr
  · split at hr
    · refine callDiscardAlgo_held ?_ hr
      exact h.of_eq ((calculateJitter_list _).1.trans rfl) ((calculateJitter_list _).2.trans rfl)
    · cases hr
      exact h.of_eq rfl rfl
  · split at hr
    · refine callDiscardAlgo_held ?_ hr
      exact h.of_eq ((calculateJitter_list _).1.trans rfl) ((calculateJitter_list _).2.trans rfl)
    · refine callDiscardAlgo_held ?_ hr
      exact h.of_eq rfl rfl

/-! ## Putting -/

/-- The sequence number is fewer than `MAX_MISORDER` below the origin and, unless the buffer is
empty, fewer than `max_count` above it; and there is an `int` behind it. -/
def InWindow (jb : PjmediaJbuf) (frameSeq : Int) : Prop :=
  jb.jbFramelist.origin - maxMisorder < frameSeq ∧
    (jb.jbFramelist.size ≠ 0 → frameSeq < jb.jbFramelist.origin + jb.jbFramelist.maxCount) ∧
    frameSeq < 2147483647

instance (jb : PjmediaJbuf) (frameSeq : Int) : Decidable (InWindow jb frameSeq) :=
  inferInstanceAs (Decidable (_ ∧ (_ → _) ∧ _))

/-- **Storing**, at a number of the window: the frame is in, or there is one already. -/
theorem storeAt_held (h : Held F M log fl) {index : Int} (hlo : fl.origin ≤ index)
    (hhi : index - fl.origin < M) (htop : index < 2147483647) {frame : List UInt8}
    (hsz : min frame.length F ≤ fl.frameSize) {bitInfo ts : Nat} {r : JbFramelist × Status}
    (hr : storeAt fl index (index - fl.origin) frame (min frame.length F) bitInfo ts .normal = .ok r) :
    r.2 ≠ .etoomany ∧ (r.2 ≠ .success → Held F M log r.1) ∧
      (r.2 = .success → Held F M (log ++ [.put frame bitInfo index ts false]) r.1) := by
  obtain ⟨hM, hb, -, hh, hle, hge, hend⟩ := h.toWindow
  rcases Int.eq_ofNat_of_zero_le (show 0 ≤ index - fl.origin by omega) with ⟨d, hd⟩
  have hpos : uint32 (fl.head + (d : Int)) % fl.maxCount = fl.slot d := by
    rw [show (fl.head : Int) + (d : Int) = ((fl.head + d : Nat) : Int) by push_cast; ring,
      uint32_natCast (by omega)]
    rfl
  have hindex : index = fl.origin + d := by omega
  unfold storeAt at hr
  rw [hd] at hr
  simp only [hpos] at hr
  by_cases hmiss : fl.frameType (fl.slot d) = .missing
  · rw [if_neg (by simpa using hmiss)] at hr
    split at hr
    · cases hr
    cases hr
    refine ⟨by simp, by simp, fun _ => ?_⟩
    rw [hindex]
    refine h.stored (by omega) hmiss hsz rfl rfl rfl rfl ?_ (by omega) rfl rfl rfl rfl rfl
    dsimp only
    rw [int32_of_range (x := (fl.size : Int)) (by omega) (by omega),
      int32_of_range (x := fl.origin + fl.size) (by omega) (by omega)]
    have hdist : (uint32 ((d : Int) + 1) : Int) = d + 1 := uint32_of_range (by omega) (by omega)
    by_cases hin : fl.origin + (fl.size : Int) ≤ fl.origin + (d : Int)
    · rw [if_pos hin]
      omega
    · rw [if_neg hin]
      omega
  · rw [if_pos (by simpa using hmiss)] at hr
    cases hr
    exact ⟨by simp, fun _ => h, by simp⟩

/-- **A put in the window**: it is accepted, or what the log says is as before. -/
theorem putAt_held (h : Held F M log fl) {index : Int} (hlo : fl.origin - maxMisorder < index)
    (hhi : fl.size ≠ 0 → index < fl.origin + fl.maxCount) (htop : index < 2147483647)
    (frame : List UInt8) (bitInfo ts : Nat) {r : JbFramelist × Status}
    (hr : jbFramelistPutAt fl index frame (min frame.length F) bitInfo ts .normal = .ok r) :
    r.2 ≠ .etoomany ∧ (r.2 ≠ .success → Held F M log r.1) ∧
      (r.2 = .success → Held F M (log ++ [.put frame bitInfo index ts false]) r.1) := by
  obtain ⟨hM, hb, -, hh, hle, hge, hend⟩ := h.toWindow
  have hmis : maxMisorder = 100 := rfl
  unfold jbFramelistPutAt at hr
  by_cases hsz : fl.frameSize < min frame.length F
  · rw [if_pos hsz] at hr
    cases hr
    exact ⟨by simp, fun _ => h, by simp⟩
  rw [if_neg hsz] at hr
  by_cases hlate : index < fl.origin
  · rw [if_pos hlate, if_pos (by rw [int32_of_range (by omega) (by omega)]; omega)] at hr
    cases hr
    exact ⟨by simp, fun _ => h, by simp⟩
  rw [if_neg hlate] at hr
  unfold putOrdered at hr
  split at hr
  · cases hr
  dsimp only at hr
  by_cases h0 : fl.size = 0
  · -- the window of an empty buffer begins at the frame
    rw [if_pos h0] at hr
    have hmoved : Held F M log { fl with origin := index } := h.moved h0 (by omega) (by omega)
    have hz : int32 (index - index) = index - index := by
      rw [Int.sub_self]
      exact int32_of_range (by omega) (by omega)
    dsimp only at hr
    rw [hz, int32_of_range (x := (fl.maxCount : Int)) (by omega) (by omega),
      if_neg (by omega)] at hr
    exact storeAt_held hmoved (Int.le_refl _) (by dsimp only; omega) htop (not_lt.mp hsz) hr
  · rw [if_neg h0, int32_of_range (x := index - fl.origin) (by omega) (by have := hhi h0; omega),
      int32_of_range (x := (fl.maxCount : Int)) (by omega) (by omega),
      if_neg (by have := hhi h0; omega)] at hr
    exact storeAt_held h (by omega) (by have := hhi h0; omega) htop (not_lt.mp hsz) hr

/-- **One put.** -/
theorem putFrame3_held (h : JbHeld F M log jb) {fuel : Nat} {frame : List UInt8} {bitInfo ts : Nat}
    {frameSeq : Int} (hin : InWindow jb frameSeq) {discarded : Bool}
    (hr : pjmediaJbufPutFrame3 fuel jb frame bitInfo frameSeq ts = .ok (jb', discarded)) :
    JbHeld F M (log ++ [.put frame bitInfo frameSeq ts discarded]) jb' := by
  have hF := h.frameSize
  subst hF
  unfold pjmediaJbufPutFrame3 at hr
  dsimp only at hr
  split at hr
  · cases hr
  next r hput =>
    rcases putAt_held h.list hin.1 hin.2.1 hin.2.2 frame bitInfo ts hput with ⟨hfit, hrej, hacc⟩
    cases fuel with
    | zero => cases hr
    | succ fuel =>
        have hloop : putLoop jb frame (min frame.length jb.jbFrameSize) bitInfo frameSeq ts
            (fuel + 1) r 0 = .ok (r.1, r.2, 0) := by
          obtain ⟨fl₁, status⟩ := r
          unfold putLoop
          rw [if_neg hfit]
        rw [hloop] at hr
        dsimp only at hr
        by_cases hs : r.2 = .success
        · rw [if_pos hs] at hr
          split at hr
          · cases hr
          next jb₁ hup =>
            cases hr
            refine update_held ?_ hup
            exact ⟨hacc hs, rfl⟩
        · rw [if_neg hs] at hr
          cases hr
          refine ⟨(hrej hs).quiet ?_ rfl, rfl⟩
          intro q
          rfl

/-- **One get.** -/
theorem getFrame3_held (h : JbHeld F M log jb) {fuel : Nat} {type : JbFrameType}
    {out : Option FrameOut} (hr : pjmediaJbufGetFrame3 fuel jb = .ok (jb', type, out)) :
    JbHeld F M (log ++ [.got type out]) jb' := by
  unfold pjmediaJbufGetFrame3 at hr
  split at hr
  · cases hr
  next jb₁ type₁ out₁ hget =>
    split at hr
    · cases hr
    next jb₂ hup =>
      cases hr
      have hquiet : ∀ {fl : JbFramelist} {type : JbFrameType} {out : Option FrameOut},
          Held F M log fl → type ≠ .normal → Held F M (log ++ [.got type out]) fl := by
        intro fl type out hheld hne
        refine hheld.quiet (fun q => rfl) ?_
        cases type with
        | normal => exact absurd rfl hne
        | missing => rfl
        | zeroPrefetch => rfl
        | zeroEmpty => rfl
        | discarded => rfl
      suffices hget₁ : JbHeld F M (log ++ [.got type out]) jb₁ by
        refine update_held ?_ hup
        exact ⟨hget₁.list, hget₁.frameSize⟩
      unfold getFrame at hget
      split at hget
      · cases hget
        exact ⟨hquiet h.list (by simp), h.frameSize⟩
      split at hget
      · cases hget
      next fl o hlist =>
        rcases get_held h.list hlist with ⟨hheld, hout⟩
        split at hget
        next hnormal =>
          cases hget
          rcases hout o rfl hnormal with ⟨⟨p, hp, hc⟩, hnew, hlt⟩
          exact ⟨hheld.returns hp hc hnew hlt, h.frameSize⟩
        next =>
          cases hget
          exact ⟨hquiet hheld (by simp), h.frameSize⟩
      next fl hlist =>
        cases hget
        exact ⟨hquiet (get_held h.list hlist).1 (by simp), h.frameSize⟩

/-! ## Every run -/

/-- A put or a get. -/
inductive FrameCall where
  | put (frame : List UInt8) (bitInfo : Nat) (frameSeq : Int) (ts : Nat)
  | get
  deriving DecidableEq

/-- The jitter buffer and the log after a call. -/
def frameStep (fuel : Nat) (s : PjmediaJbuf × List JbufEvent) :
    FrameCall → Except Fault (PjmediaJbuf × List JbufEvent)
  | .put frame bitInfo frameSeq ts =>
      (pjmediaJbufPutFrame3 fuel s.1 frame bitInfo frameSeq ts).map fun (jb, discarded) =>
        (jb, s.2 ++ [.put frame bitInfo frameSeq ts discarded])
  | .get =>
      (pjmediaJbufGetFrame3 fuel s.1).map fun (jb, type, out) => (jb, s.2 ++ [.got type out])

/-- Every put is in the window. -/
def callInWindow (s : PjmediaJbuf × List JbufEvent) : FrameCall → Prop
  | .put _ _ frameSeq _ => InWindow s.1 frameSeq
  | .get => True

instance (s : PjmediaJbuf × List JbufEvent) : (call : FrameCall) → Decidable (callInWindow s call)
  | .put _ _ frameSeq _ => inferInstanceAs (Decidable (InWindow s.1 frameSeq))
  | .get => inferInstanceAs (Decidable True)

theorem frameStep_held {fuel : Nat} {s s' : PjmediaJbuf × List JbufEvent} {call : FrameCall}
    (h : JbHeld F M s.2 s.1) (hin : callInWindow s call) (hr : frameStep fuel s call = .ok s') :
    JbHeld F M s'.2 s'.1 := by
  cases call with
  | put frame bitInfo frameSeq ts =>
      simp only [frameStep] at hr
      cases hput : pjmediaJbufPutFrame3 fuel s.1 frame bitInfo frameSeq ts with
      | error e =>
          rw [hput] at hr
          cases hr
      | ok r =>
          rw [hput] at hr
          cases hr
          exact putFrame3_held h hin hput
  | get =>
      simp only [frameStep] at hr
      cases hget : pjmediaJbufGetFrame3 fuel s.1 with
      | error e =>
          rw [hget] at hr
          cases hr
      | ok r =>
          rw [hget] at hr
          cases hr
          exact getFrame3_held h hget

/-- A frame list as it was reset holds nothing of the empty log. -/
theorem held_reset (F : Nat) {fl : JbFramelist} (hM0 : 1 ≤ fl.maxCount)
    (hM : fl.maxCount < 2147483648) (hroom : fl.frameSize * fl.maxCount < 4294967296) :
    Held F fl.maxCount [] (jbFramelistReset fl) := by
  have horigin : (jbFramelistReset fl).origin = -9999 := rfl
  have hsize : (jbFramelistReset fl).size = 0 := rfl
  constructor
  · exact ⟨by simp [jbFramelistReset], hM, hroom, hM0, by simp [hsize], by rw [horigin]; omega,
      by rw [horigin, hsize]; omega⟩
  · intro j _ hj
    have hlt : (jbFramelistReset fl).slot j < fl.maxCount := Nat.mod_lt _ hM0
    simp only [jbFramelistReset, fill] at hlt ⊢
    rw [if_pos]
    exact ⟨Nat.zero_le _, by simpa using hlt⟩
  · intro i hi
    rw [hsize] at hi
    omega
  · intro q p hq
    simp [firstAccepted] at hq
  · intro s hs
    simp [normalSeqs] at hs
  · constructor
    · intro out hout
      simp at hout
    · exact List.Pairwise.nil

/-- **What a jitter buffer delivers.** However it is configured, from a reset frame list on whose frames
together have fewer than `2^32` bytes, in every run whose puts are in the window, a frame that is returned
as *normal* carries what was accepted first under its number, and the numbers increase. -/
theorem delivered_run {fuel : Nat} (jb : PjmediaJbuf) {fl : JbFramelist}
    (hlist : jb.jbFramelist = jbFramelistReset fl) (hM0 : 1 ≤ fl.maxCount)
    (hM : fl.maxCount < 2147483648) (hroom : fl.frameSize * fl.maxCount < 4294967296)
    (calls : List FrameCall)
    (hin : Meets (frameStep fuel) callInWindow (jb, []) calls) :
    Always (frameStep fuel) (fun s => Delivered jb.jbFrameSize s.2) (jb, []) calls := by
  have hinit : JbHeld jb.jbFrameSize fl.maxCount [] jb := ⟨hlist ▸ held_reset _ hM0 hM hroom, rfl⟩
  have hkeep : ∀ (s : PjmediaJbuf × List JbufEvent) (call : FrameCall)
      (s' : PjmediaJbuf × List JbufEvent), JbHeld jb.jbFrameSize fl.maxCount s.2 s.1 →
      callInWindow s call → frameStep fuel s call = .ok s' →
      JbHeld jb.jbFrameSize fl.maxCount s'.2 s'.1 := by
    intro s call s' h hok hs
    exact frameStep_held h hok hs
  refine always_of_meets ?_ hkeep calls _ hinit hin
  intro s h
  exact h.list.delivered

/-- The window of the buffer, with nothing about the end of `int`. -/
def putNearOrigin (s : PjmediaJbuf × List JbufEvent) : FrameCall → Bool
  | .put _ _ frameSeq _ =>
      decide (s.1.jbFramelist.origin - maxMisorder < frameSeq ∧
        frameSeq < s.1.jbFramelist.origin + s.1.jbFramelist.maxCount)
  | .get => true

/-- A buffer of `maxCount` slots of two bytes that waits for no frames. -/
def unbuffered (maxCount : Nat) : PjmediaJbuf :=
  (pjmediaJbufSetFixed (pjmediaJbufCreate 2 20 maxCount) 0).1

theorem delivered_run_sample :
    Always (frameStep 8) (fun s => Delivered (unbuffered 4).jbFrameSize s.2) (unbuffered 4, [])
      [.put [7, 8] 1 (-9998) 160, .put [5, 6] 0 (-9999) 0, .put [9] 0 (-9998) 160, .get, .get] := by
  have hlist : (unbuffered 4).jbFramelist = jbFramelistReset (jbFramelistInit 2 4) := rfl
  refine delivered_run (unbuffered 4) hlist (by decide) (by decide) (by decide) _ ?_
  have hcheck : checkRun (frameStep 8) (fun s call => decide (callInWindow s call)) (fun _ => true)
      (unbuffered 4, []) [.put [7, 8] 1 (-9998) 160, .put [5, 6] 0 (-9999) 0, .put [9] 0 (-9998) 160,
        .get, .get] = true := by
    decide +kernel
  exact (checkRun_sound _ _ _ _ _ hcheck).1.mono (fun s call h => of_decide_eq_true h)

/-- A frame of three bytes comes out of slots of two bytes with two; and behind the last `int` the
numbers begin at the first one again. -/
theorem longFrame_cut :
    (Meets (frameStep 8) (fun s call => putNearOrigin s call = true) (unbuffered 4, [])
        [.put [1, 2, 3] 0 (-9999) 0, .get] ∧
      ∃ s, run (frameStep 8) (unbuffered 4, []) [.put [1, 2, 3] 0 (-9999) 0, .get] = .ok s ∧
        s.2 = [.put [1, 2, 3] 0 (-9999) 0 false,
          .got .normal (some ⟨[1, 2], .normal, 2, 0, 0, -9999⟩)]) ∧
    (Meets (frameStep 8) (fun s call => putNearOrigin s call = true) (unbuffered 1073741824, [])
        [.put [1] 0 1073731824 0, .get, .put [2] 0 2147473647 0, .get, .put [3] 0 2147483647 0, .get,
          .put [4] 0 (-2147483648) 0, .get] ∧
      ∃ s, run (frameStep 8) (unbuffered 1073741824, [])
          [.put [1] 0 1073731824 0, .get, .put [2] 0 2147473647 0, .get, .put [3] 0 2147483647 0,
            .get, .put [4] 0 (-2147483648) 0, .get] = .ok s ∧
        normalSeqs s.2 = [1073731824, 2147473647, 2147483647, -2147483648]) := by
  constructor
  · have hcheck : checkRun (frameStep 8) putNearOrigin
        (fun s => decide (s.2 = [.put [1, 2, 3] 0 (-9999) 0 false,
          .got .normal (some ⟨[1, 2], .normal, 2, 0, 0, -9999⟩)]))
        (unbuffered 4, []) [.put [1, 2, 3] 0 (-9999) 0, .get] = true := by
      decide +kernel
    rcases checkRun_sound _ _ _ _ _ hcheck with ⟨hmeets, s, hrun, hs⟩
    exact ⟨hmeets, s, hrun, of_decide_eq_true hs⟩
  · have hcheck : checkRun (frameStep 8) putNearOrigin
        (fun s => decide (normalSeqs s.2 = [1073731824, 2147473647, 2147483647, -2147483648]))
        (unbuffered 1073741824, [])
        [.put [1] 0 1073731824 0, .get, .put [2] 0 2147473647 0, .get, .put [3] 0 2147483647 0, .get,
          .put [4] 0 (-2147483648) 0, .get] = true := by
      decide +kernel
    rcases checkRun_sound _ _ _ _ _ hcheck with ⟨hmeets, s, hrun, hs⟩
    exact ⟨hmeets, s, hrun, of_decide_eq_true hs⟩

end Jbuf
