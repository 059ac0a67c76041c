import PjProject.Jbuf.Window

set_option autoImplicit false

/-! # Putting a frame and discarding one

`jb_framelist_put_at` keeps the frame list sound for every sequence number that C's `int` can
tell apart from the window (`putAt_spec`), and answers *too many* only for a frame that removing
old frames makes room for. `jb_framelist_discard` keeps it sound when the frame is not flagged
already (`discard_kept`): flagging a frame twice would count it twice.
-/

namespace Jbuf

open MachineInt Circular

/-! ## Storing -/

/-- Storing at distance `d` computes the slot `d` of the window. -/
theorem store_pos {M : Nat} {fl : JbFramelist} (hs : Sound M fl) {d : Nat} (hd : d < M) :
    uint32 (fl.head + (d : Int)) % fl.maxCount = fl.slot d := by
  have hh := hs.inv.head_lt
  have hM := hs.bounded
  have hmc := hs.maxCount
  rw [show (fl.head : Int) + d = ((fl.head + d : Nat) : Int) by push_cast; ring,
    uint32_natCast (by omega)]
  rfl

/-- A frame list that differs from `fl` in one slot, missing before and not flagged now, and
whose window reaches at least to that slot. -/
theorem Kept.of_stored {M d : Nat} {fl fl' : JbFramelist} (hs : Sound M fl) (hd : d < M)
    (hmiss : fl.frameType (fl.slot d) = .missing) (hfs : fl'.frameSize = fl.frameSize)
    (hmax : fl'.maxCount = fl.maxCount) (hhead : fl'.head = fl.head)
    (hnum : fl'.discardedNum = fl.discardedNum) (horigin : fl'.origin = fl.origin)
    (htype : ∀ p, fl'.frameType p = if p = fl.slot d then .normal else fl.frameType p)
    (hsize : fl'.size = max fl.size (d + 1)) (htop : fl.origin + d ≤ topSeq) :
    Kept M fl fl' := by
  have hmc := hs.maxCount
  have hle := hs.inv.size_le
  have hend := hs.end_le
  have hold : window fl'.frameType fl.maxCount fl.head fl.size = fl.types.set d .normal :=
    window_set hle (by omega) htype
  -- the window grows by slots that were beyond it: none of them is flagged
  have htypes : fl'.types = fl.types.set d .normal ++
      window fl'.frameType fl.maxCount ((fl.head + fl.size) % fl.maxCount)
        (max fl.size (d + 1) - fl.size) := by
    rw [← hold, ← window_append, JbFramelist.types, hmax, hhead, hsize]
    congr 1
    omega
  have hnew : ∀ t ∈ window fl'.frameType fl.maxCount ((fl.head + fl.size) % fl.maxCount)
      (max fl.size (d + 1) - fl.size), t ≠ .discarded := by
    intro t ht
    obtain ⟨i, hi, rfl⟩ := List.mem_map.mp ht
    have hi' := List.mem_range.mp hi
    rw [htype]
    split
    · simp
    · rw [Nat.mod_add_mod, Nat.add_assoc]
      have := hs.inv.beyond (j := fl.size + i) (by omega) (by omega)
      unfold JbFramelist.slot at this
      rw [this]
      simp
  have hflag : ∀ i : Nat, fl'.types[i]? = some .discarded → fl.types[i]? = some .discarded := by
    intro i hi
    rw [htypes, List.getElem?_append] at hi
    split at hi
    · rw [List.getElem?_set] at hi
      split at hi
      · split at hi <;> simp at hi
      · exact hi
    · exact absurd rfl (hnew _ (List.mem_of_getElem? hi))
  have hcount : fl'.types.count .discarded = fl.types.count .discarded := by
    rw [htypes, List.count_append, List.count_eq_zero_of_not_mem
      (fun hmem => hnew _ hmem rfl), Nat.add_zero]
    by_cases hdl : d < fl.size
    · have hdl' : d < fl.types.length := by rw [types_length]; exact hdl
      have hget : fl.types[d] = .missing := by
        have := types_getElem? fl hdl
        rw [List.getElem?_eq_getElem hdl', hmiss] at this
        exact Option.some.inj this
      rw [List.count_set hdl', hget]
      simp
    · rw [List.set_eq_of_length_le (by rw [types_length]; omega)]
  refine ⟨⟨⟨?_, ?_, ?_, ?_⟩, hmax.trans hmc, hs.bounded, hfs ▸ hs.room, ?_, ?_⟩, ?_⟩
  · rw [hhead, hmax]; exact hs.inv.head_lt
  · rw [hsize, hmax]; omega
  · rw [hnum, hcount]; exact hs.inv.discarded_eq
  · intro p hp hout
    rw [hmax] at hp
    obtain ⟨j, hj, rfl⟩ := exists_slot hs.inv.head_lt hp
    have hslot : ∀ i, fl'.slot i = fl.slot i := by
      intro i; simp only [JbFramelist.slot, hmax, hhead]
    have hjs : fl'.size ≤ j := by
      by_contra hlt
      exact hout j (by omega) (hslot j).symm
    rw [htype, if_neg]
    · exact hs.inv.beyond (by omega) hj
    · intro he
      have := slot_inj (m := fl.maxCount) (h := fl.head) hj (by omega) he
      omega
  · rw [horigin]; exact hs.origin_ge
  · rw [horigin, hsize]; omega
  · intro ref hf i hi
    rw [horigin]
    exact hf i (hflag i hi)

theorem storeAt_kept {M : Nat} {fl : JbFramelist} (hs : Sound M fl) (index : Int)
    (hlo : 0 ≤ index - fl.origin) (hhi : index - fl.origin < M) (htop : index ≤ topSeq)
    (frame : List UInt8) {frameSize : Nat} (hsz : frameSize ≤ fl.frameSize) (bitInfo ts : Nat) :
    ∃ r, storeAt fl index (index - fl.origin) frame frameSize bitInfo ts .normal = .ok r ∧
      Kept M fl r.1 ∧ r.2 ≠ .etoomany := by
  obtain ⟨d, hd⟩ := Int.eq_ofNat_of_zero_le hlo
  have hdM : d < M := by omega
  have hM := hs.bounded
  have hmc := hs.maxCount
  have hle := hs.inv.size_le
  have hge := hs.origin_ge
  have hend := hs.end_le
  have hroom : fl.frameSize * fl.maxCount < 4294967296 := hmc ▸ hs.room
  have hin := inContent_of_room hroom (Nat.mod_lt (fl.head + d) (show 0 < fl.maxCount by omega)) hsz
  unfold storeAt
  rw [hd]
  simp only [store_pos hs hdM]
  by_cases hm : fl.frameType (fl.slot d) = .missing
  · have hin : fl.inContent (fl.slot d) frameSize = true := hin
    rw [if_neg (by simpa using hm), if_neg (by simp [hin])]
    refine ⟨_, rfl, Kept.of_stored hs hdM hm rfl rfl rfl rfl rfl (fun p => rfl) ?_ (by omega), by simp⟩
    unfold topSeq at htop hend
    simp only
    rw [int32_of_range (x := (fl.size : Int)) (by omega) (by omega),
      int32_of_range (by omega) (by omega)]
    by_cases hin : fl.origin + (fl.size : Int) ≤ index
    · rw [if_pos hin]
      have : (uint32 ((d : Int) + 1) : Int) = d + 1 := uint32_of_range (by omega) (by omega)
      omega
    · rw [if_neg hin]
      omega
  · rw [if_pos (by simpa using hm)]
    exact ⟨_, rfl, Kept.refl hs, by simp⟩

/-! ## Putting -/

/-- What a put leaves: a sound frame list, and *too many* only when the frame lies beyond the
capacity of a buffer that is not empty, by at most `MAX_DROPOUT`. -/
structure PutResult (M : Nat) (fl : JbFramelist) (index : Int) (r : JbFramelist × Status) :
    Prop where
  kept : Kept M fl r.1
  tooMany : r.2 = .etoomany → r.1.size ≠ 0 ∧ (M : Int) ≤ index - r.1.origin ∧
    index - r.1.origin ≤ maxDropout

theorem withOrigin_sound {M : Nat} {fl : JbFramelist} (hs : Sound M fl) {o : Int}
    (hlo : -2147483648 ≤ o) (hhi : o + fl.size ≤ topSeq + 1) : Sound M { fl with origin := o } :=
  ⟨⟨hs.inv.head_lt, hs.inv.size_le, hs.inv.discarded_eq, hs.inv.outside_missing⟩,
    hs.maxCount, hs.bounded, hs.room, hlo, hhi⟩

theorem putOrdered_spec {M : Nat} {fl : JbFramelist} {index : Int} (hs : Sound M fl)
    (hlo : -2147483648 ≤ index) (htop : index ≤ topSeq)
    (hdist : fl.size = 0 ∨ (0 ≤ index - fl.origin ∧ index - fl.origin ≤ 2147483647))
    (frame : List UInt8) {frameSize : Nat} (hsz : frameSize ≤ fl.frameSize) (bitInfo ts : Nat) :
    ∃ r, putOrdered fl index frame frameSize bitInfo ts .normal = .ok r ∧
      PutResult M fl index r ∧
      ((fl.size = 0 ∨ index - fl.origin < M) → r.2 ≠ .etoomany) := by
  have hM := hs.bounded
  have hmc := hs.maxCount
  have hh := hs.inv.head_lt
  have hdn := hs.inv.discarded_le
  unfold putOrdered
  rw [if_neg (by rintro ⟨h0, hn⟩; omega)]
  by_cases h0 : fl.size = 0
  · -- an empty buffer takes the frame at distance 0
    have hs0 : Sound M { fl with origin := index } :=
      withOrigin_sound hs hlo (by unfold topSeq at *; omega)
    dsimp only
    rw [if_pos h0]
    have hz : int32 (index - index) = index - index := by
      rw [Int.sub_self]; exact int32_of_range (by omega) (by omega)
    dsimp only
    rw [hz, int32_of_range (x := (fl.maxCount : Int)) (by omega) (by omega),
      if_neg (by omega)]
    rcases storeAt_kept hs0 index (by simp) (by simp; omega) htop frame hsz bitInfo ts with
      ⟨r, hr, hkept, hfit⟩
    refine ⟨r, hr, ⟨⟨hkept.sound, fun ref _ => hkept.flags ref ?_⟩, fun h => absurd h hfit⟩,
      fun _ => hfit⟩
    exact FlagsBelow.of_size_zero (show JbFramelist.size { fl with origin := index } = 0 from h0) ref
  · obtain ⟨hd0, hd1⟩ : 0 ≤ index - fl.origin ∧ index - fl.origin ≤ 2147483647 := by
      rcases hdist with h | h
      · exact absurd h h0
      · exact h
    dsimp only
    rw [if_neg h0, int32_of_range (x := index - fl.origin) (by omega) hd1,
      int32_of_range (x := (fl.maxCount : Int)) (by omega) (by omega)]
    by_cases hfar : (fl.maxCount : Int) ≤ index - fl.origin
    · rw [if_pos hfar]
      by_cases hdrop : maxDropout < index - fl.origin
      · -- jumped too far: the buffer restarts empty at this frame
        rw [if_pos hdrop]
        have hsr : Sound M { jbFramelistReset fl with origin := index } := by
          have hinv := reset_inv fl (by omega)
          refine ⟨⟨hinv.head_lt, hinv.size_le, hinv.discarded_eq, hinv.outside_missing⟩,
            hmc, hM, hs.room, hlo, ?_⟩
          show index + ((0 : Nat) : Int) ≤ topSeq + 1
          omega
        have hsz : frameSize ≤ { jbFramelistReset fl with origin := index }.frameSize := hsz
        have hst := storeAt_kept hsr index (by simp) (by simp; omega) htop frame hsz bitInfo ts
        rw [show index - JbFramelist.origin { jbFramelistReset fl with origin := index } = 0 by
          simp] at hst
        rcases hst with ⟨r, hr, hkept, hfit⟩
        refine ⟨r, hr, ⟨⟨hkept.sound, fun ref _ => hkept.flags ref ?_⟩,
          fun h => absurd h hfit⟩, fun _ => hfit⟩
        exact FlagsBelow.of_size_zero rfl ref
      · rw [if_neg hdrop]
        refine ⟨(fl, .etoomany), rfl, ⟨Kept.refl hs, fun _ => ⟨h0, hmc ▸ hfar, not_lt.mp hdrop⟩⟩, ?_⟩
        rintro (h | h)
        · exact absurd h h0
        · omega
    · rw [if_neg hfar]
      rcases storeAt_kept hs index hd0 (by omega) htop frame hsz bitInfo ts with ⟨r, hr, hkept, hfit⟩
      exact ⟨r, hr, ⟨hkept, fun h => absurd h hfit⟩, fun _ => hfit⟩

/-- **`jb_framelist_put_at` keeps the frame list sound.** The frame's number must leave room for
the window below it, and must not be so far ahead of a non-empty window that the distance
overflows C's `int`. -/
theorem putAt_spec {M : Nat} {fl : JbFramelist} {index : Int} (hs : Sound M fl)
    (hlo : -2147483648 + (M : Int) ≤ index) (htop : index ≤ topSeq)
    (hdist : fl.size ≠ 0 → index - fl.origin ≤ 2147483647)
    (frame : List UInt8) (frameSize bitInfo ts : Nat) :
    ∃ r, jbFramelistPutAt fl index frame frameSize bitInfo ts .normal = .ok r ∧
      PutResult M fl index r ∧
      ((fl.size = 0 ∨ (0 ≤ index - fl.origin ∧ index - fl.origin < M)) →
        r.2 ≠ .etoomany) := by
  have hle := hs.inv.size_le
  have hmc := hs.maxCount
  unfold jbFramelistPutAt
  by_cases hsz : fl.frameSize < frameSize
  · exact ⟨(fl, .einval), by rw [if_pos hsz], ⟨Kept.refl hs, by simp⟩, by simp⟩
  rw [if_neg hsz]
  by_cases hlate : index < fl.origin
  · rw [if_pos hlate]
    by_cases hmis : int32 (fl.origin - index) < maxMisorder
    · exact ⟨(fl, .etoosmall), by rw [if_pos hmis], ⟨Kept.refl hs, by simp⟩, by simp⟩
    · -- sequence restart: the renumbered frames are all older than they were
      rw [if_neg hmis, int32_of_range (by omega) (by unfold topSeq at htop; omega)]
      have hs' : Sound M { fl with origin := index - fl.size } :=
        withOrigin_sound hs (by omega) (by omega)
      obtain ⟨r, hr, hres, hfit⟩ := putOrdered_spec hs' (by omega) htop
        (Or.inr ⟨by simp, by simp; have := hs.bounded; omega⟩) frame
        (show frameSize ≤ fl.frameSize by omega) bitInfo ts
      refine ⟨r, hr, ⟨⟨hres.kept.sound, fun ref hf => hres.kept.flags ref ?_⟩, hres.tooMany⟩, ?_⟩
      · intro i hi
        have := hf i hi
        show index - (fl.size : Int) + i ≤ ref
        omega
      · rintro (h | h)
        · exact hfit (Or.inl h)
        · omega
  · rw [if_neg hlate]
    obtain ⟨r, hr, hres, hfit⟩ := putOrdered_spec hs (by omega) htop
      (by by_cases h0 : fl.size = 0
          · exact Or.inl h0
          · exact Or.inr ⟨by omega, hdist h0⟩) frame
      (show frameSize ≤ fl.frameSize by omega) bitInfo ts
    refine ⟨r, hr, hres, ?_⟩
    rintro (h | h)
    · exact hfit (Or.inl h)
    · exact hfit (Or.inr h.2)

/-! ## Discarding -/

/-- Flagging a frame of the window that is not flagged yet keeps the frame list sound. -/
theorem discard_kept {M : Nat} {fl : JbFramelist} {index : Int} (hs : Sound M fl)
    (hlo : fl.origin ≤ index) (hhi : index < fl.origin + fl.size)
    (hfree : ∀ i : Nat, fl.origin + i = index → fl.types[i]? ≠ some .discarded) :
    Sound M (jbFramelistDiscard fl index).1 ∧
      ∀ ref, FlagsBelow fl ref → index ≤ ref → FlagsBelow (jbFramelistDiscard fl index).1 ref := by
  obtain ⟨d, hd⟩ := Int.eq_ofNat_of_zero_le (show 0 ≤ index - fl.origin by omega)
  have hM := hs.bounded
  have hmc := hs.maxCount
  have hle := hs.inv.size_le
  have hge := hs.origin_ge
  have hend := hs.end_le
  have hdn := hs.inv.discarded_le
  have hds : d < fl.size := by omega
  have hdm : d < fl.maxCount := by omega
  have hdl : d < fl.types.length := by rw [types_length]; exact hds
  unfold topSeq at hend
  unfold jbFramelistDiscard
  rw [int32_of_range (x := (fl.size : Int)) (by omega) (by omega),
    int32_of_range (by omega) (by omega), if_pos ⟨hlo, hhi⟩, hd,
    int32_of_range (by omega) (by omega)]
  simp only [store_pos hs (show d < M by omega)]
  rw [uint32_natCast (by omega)]
  generalize hfl : ({ fl with
    frameType := setAt fl.frameType (fl.slot d) .discarded
    discardedNum := fl.discardedNum + 1 } : JbFramelist) = fl'
  have htypes : fl'.types = fl.types.set d .discarded := by
    subst hfl
    exact window_set hle hdm (fun p => rfl)
  have hnot : (fl.types[d] == JbFrameType.discarded) = false := by
    have := hfree d (by omega)
    rw [List.getElem?_eq_getElem hdl] at this
    simpa using this
  have hcount : fl'.types.count .discarded = fl.types.count .discarded + 1 := by
    rw [htypes, List.count_set hdl, hnot]
    simp
  have hinv := hs.inv
  refine ⟨⟨⟨?_, ?_, ?_, ?_⟩, ?_, hM, ?_, ?_, ?_⟩, ?_⟩
  · subst hfl; exact hinv.head_lt
  · subst hfl; exact hinv.size_le
  · rw [hcount, ← hinv.discarded_eq]; subst hfl; rfl
  · subst hfl
    intro p hp hout
    show setAt fl.frameType (fl.slot d) .discarded p = .missing
    have hne : p ≠ fl.slot d := hout d hds
    rw [setAt, if_neg hne]
    exact hinv.outside_missing p hp hout
  · subst hfl; exact hmc
  · subst hfl; exact hs.room
  · subst hfl; exact hge
  · subst hfl; unfold topSeq; exact hend
  · intro ref hf hir i hi
    rw [htypes, List.getElem?_set] at hi
    have ho : fl'.origin = fl.origin := by subst hfl; rfl
    rw [ho]
    split at hi
    · rename_i he
      subst he
      omega
    · exact hf i hi

end Jbuf
