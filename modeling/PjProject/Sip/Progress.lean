import PjProject.Sip.StreamFraming

set_option autoImplicit false

/-! # Progress on a stream

`framing_progress`: the size of a message is that of its header section at least and that of the
buffer at most, unless the Content-Length counts back from the end of the section (`CountsBack`): a
number from `2^31` on becomes a negative `int`. Where no buffer of a packet has such a number, the
loop over the packet takes bytes in every turn and stays inside the packet. A number that counts back
to the beginning of the message makes the loop endless (`framing_endless`).
-/

namespace Sip

open MachineInt Scan Outcome
open Sdp (pjStrtoul)

variable {buf pkt : List UInt8}

/-! ## The size of a message -/

/-- The size that is found is that of the header section at least and of the buffer at most. -/
def SizeOk (buf : List UInt8) : Prop :=
  ∀ size, pjsipFindMsg buf false = .ok (.success size) →
    ∃ pos, endHdrPos buf = some pos ∧ pos + 3 ≤ size ∧ size ≤ buf.length

/-- The low 32 bits of the number of a line. -/
def lowBits (digits : List UInt8) : Nat := pjStrtoul digits % 4294967296

/-- The first Content-Length header, those whose number is `-1` as an `int` left aside, is negative as
an `int` and takes less away than the header section has. -/
def CountsBack (buf : List UInt8) : Prop :=
  ∃ pos line digits, endHdrPos buf = some pos ∧ LineStart buf pos 0 line ∧
    lengthField (buf.drop line) = some digits ∧
    (∀ j, LineStart buf pos 0 j → j < line → ∀ d, lengthField (buf.drop j) = some d →
      lowBits d = 4294967295) ∧
    2147483648 ≤ lowBits digits ∧ lowBits digits ≠ 4294967295 ∧
    4294967296 ≤ pos + 3 + lowBits digits

theorem int32_natCast (n : Nat) : int32 n = if n % 4294967296 < 2147483648 then
    ((n % 4294967296 : Nat) : Int) else ((n % 4294967296 : Nat) : Int) - 4294967296 := by
  unfold int32
  split_ifs
  · omega
  · omega

theorem int32_eq_neg_one (digits : List UInt8) :
    int32 (pjStrtoul digits) = -1 ↔ lowBits digits = 4294967295 := by
  have hlt := Nat.mod_lt (pjStrtoul digits) (show 0 < 4294967296 by decide)
  unfold lowBits
  rw [int32_natCast]
  generalize pjStrtoul digits % 4294967296 = low at hlt ⊢
  by_cases hlow : low < 2147483648
  · rw [if_pos hlow]
    constructor
    · intro h
      omega
    · intro h
      omega
  · rw [if_neg hlow]
    constructor
    · intro h
      omega
    · intro h
      omega

theorem clenAt_some {line : Nat} {digits : List UInt8}
    (h : lengthField (buf.drop line) = some digits) :
    clenAt buf line = int32 (pjStrtoul digits) := by
  unfold clenAt
  rw [h]

theorem lengthField_of_clenAt {line : Nat} (h : clenAt buf line ≠ -1) :
    ∃ digits, lengthField (buf.drop line) = some digits := by
  unfold clenAt at h
  cases hfield : lengthField (buf.drop line) with
  | none =>
      rw [hfield] at h
      exact absurd rfl h
  | some digits => exact ⟨digits, rfl⟩

/-- The number is an `int`. -/
theorem FirstLength.ge {pos : Nat} {clen : Int} (h : FirstLength buf pos clen) :
    -2147483648 ≤ clen := by
  cases h with
  | missing _ => decide
  | found line _ hval hne _ =>
      rcases lengthField_of_clenAt (by rw [hval]; exact hne) with ⟨digits, hfield⟩
      rw [← hval, clenAt_some hfield, int32_natCast]
      split_ifs
      · omega
      · omega

/-- A header counts back exactly when the first length is negative and leaves a size. -/
theorem countsBack_iff {pos : Nat} {clen : Int} (hpos : endHdrPos buf = some pos)
    (hfirst : FirstLength buf pos clen) :
    CountsBack buf ↔ clen < -1 ∧ 0 ≤ (pos + 3 : Nat) + clen := by
  constructor
  · rintro ⟨pos', line, digits, hpos', hline, hfield, hearlier, hhigh, hone, hback⟩
    rw [hpos] at hpos'
    cases hpos'
    have hval : int32 (pjStrtoul digits) = (lowBits digits : Int) - 4294967296 := by
      rw [int32_natCast]
      exact if_neg (Nat.not_lt.mpr hhigh)
    have hlt := Nat.mod_lt (pjStrtoul digits) (show 0 < 4294967296 by decide)
    have hfound : FirstLength buf pos (int32 (pjStrtoul digits)) := by
      refine FirstLength.found line hline (clenAt_some hfield)
        (fun h => hone ((int32_eq_neg_one digits).mp h)) fun j hj hjlt => ?_
      by_contra hne
      rcases lengthField_of_clenAt hne with ⟨d, hd⟩
      rw [clenAt_some hd] at hne
      exact hne ((int32_eq_neg_one d).mpr (hearlier j hj hjlt d hd))
    rw [hfirst.unique hfound, hval]
    unfold lowBits at *
    omega
  · rintro ⟨hneg, hback⟩
    cases hfirst with
    | missing _ => omega
    | found line hline hval hne hearlier =>
        rcases lengthField_of_clenAt (by rw [hval]; exact hne) with ⟨digits, hfield⟩
        have hint := (clenAt_some hfield).symm.trans hval
        rw [int32_natCast] at hint
        refine ⟨pos, line, digits, hpos, hline, hfield, fun j hj hjlt d hd => ?_, ?_⟩
        · exact (int32_eq_neg_one d).mp ((clenAt_some hd).symm.trans (hearlier j hj hjlt))
        · have hlt := Nat.mod_lt (pjStrtoul digits) (show 0 < 4294967296 by decide)
          unfold lowBits
          split_ifs at hint
          · omega
          · omega

theorem sizeOk_iff (buf : List UInt8) : SizeOk buf ↔ ¬ CountsBack buf := by
  cases hpos : endHdrPos buf with
  | none =>
      constructor
      · rintro _ ⟨pos, _, _, hsome, _⟩
        rw [hpos] at hsome
        cases hsome
      · intro _ size hfind
        rw [findMsg_none hpos] at hfind
        cases hfind
  | some pos =>
      have hlen : pos + 3 ≤ buf.length := by
        rcases endHdrPos_eq_some hpos with ⟨pre, rest, hbuf, hpre⟩
        rw [hbuf, List.length_append]
        simp only [List.length_cons]
        omega
      rcases findMsg_eq hpos with ⟨clen, hfirst, hfind⟩
      have hint := hfirst.ge
      rw [countsBack_iff hpos hfirst]
      unfold SizeOk
      rw [hfind]
      constructor
      · rintro hok ⟨hneg, hback⟩
        have hsize : toSize ((pos + 3 : Nat) + clen) = ((pos + 3 : Nat) + clen).toNat := if_pos hback
        rw [if_neg (by omega), hsize, if_pos (by omega)] at hok
        rcases hok _ rfl with ⟨pos', hpos', hle, _⟩
        rw [hpos] at hpos'
        cases hpos'
        omega
      · intro hnot size hsize
        by_cases hm : clen = -1
        · rw [if_pos hm] at hsize
          cases hsize
        · rw [if_neg hm] at hsize
          by_cases hle : toSize ((pos + 3 : Nat) + clen) ≤ buf.length
          · rw [if_pos hle] at hsize
            cases hsize
            refine ⟨pos, hpos, ?_, hle⟩
            unfold toSize
            by_cases hpositive : 0 ≤ ((pos + 3 : Nat) : Int) + clen
            · rw [if_pos hpositive]
              omega
            · rw [if_neg hpositive]
              omega
          · rw [if_neg hle] at hsize
            cases hsize

/-! ## The loop over a packet -/

/-- The buffers in which the loop over a packet looks for a message. -/
inductive Looks (pkt : List UInt8) : List UInt8 → Prop where
  | start : pkt.dropWhile isNewline ≠ [] → Looks pkt (pkt.dropWhile isNewline)
  | next {buf : List UInt8} {size : Nat} : Looks pkt buf →
      pjsipFindMsg buf false = .ok (.success size) → (buf.drop size).dropWhile isNewline ≠ [] →
      Looks pkt ((buf.drop size).dropWhile isNewline)

theorem Looks.behind {size : Nat} (hp : pkt.dropWhile isNewline ≠ [])
    (hfind : pjsipFindMsg (pkt.dropWhile isNewline) false = .ok (.success size))
    (h : Looks ((pkt.dropWhile isNewline).drop size) buf) : Looks pkt buf := by
  induction h with
  | start hne => exact Looks.next (Looks.start hp) hfind hne
  | next _ hnext hne ih => exact Looks.next ih hnext hne

/-- What the loop has done so far in a packet of `len` bytes, with `rest` bytes to go. -/
structure Inside (len rest : Nat) (r : Received) : Prop where
  total : r.total + rest ≤ len
  taken : ∀ f ∈ r.fragments, f ≠ []
  nuls : ∀ i ∈ r.nuls, i ≤ len

/-- The loop ends, takes bytes in every turn, and stays inside the packet. -/
def LoopOk (pkt : List UInt8) : Prop :=
  ∃ r, pjsipTpmgrReceivePacket false pkt = .ok r ∧ r.total ≤ pkt.length ∧
    (∀ f ∈ r.fragments, f ≠ []) ∧ ∀ i ∈ r.nuls, i ≤ pkt.length

/-- The result of `pjsip_find_msg`; no scan goes wrong. -/
theorem findMsg_ok (buf : List UInt8) : ∃ status, pjsipFindMsg buf false = .ok status := by
  cases hpos : endHdrPos buf with
  | none => exact ⟨_, findMsg_none hpos⟩
  | some pos =>
      rcases findMsg_eq hpos with ⟨_, _, hfind⟩
      exact ⟨_, hfind⟩

theorem receiveLoop_inside {len : Nat} : ∀ (fuel : Nat) (cur : List UInt8) (r : Received),
    cur.length < fuel → (∀ buf, Looks cur buf → SizeOk buf) → Inside len cur.length r →
    ∃ r', receiveLoop false len fuel cur r = .ok r' ∧ Inside len 0 r' := by
  intro fuel
  induction fuel with
  | zero =>
      intro cur r hfuel _ _
      omega
  | succ fuel ih =>
      intro cur r hfuel hok hin
      have hle : (cur.dropWhile isNewline).length ≤ cur.length :=
        (List.dropWhile_suffix isNewline).length_le
      have hskip : Inside len (cur.dropWhile isNewline).length
          { r with total := r.total + (cur.length - (cur.dropWhile isNewline).length) } := by
        have htotal := hin.total
        exact ⟨by dsimp only; omega, hin.taken, hin.nuls⟩
      have hdone : ∀ {n : Nat} {r : Received}, Inside len n r → Inside len 0 r :=
        fun h => ⟨(Nat.add_le_add_left (Nat.zero_le _) _).trans h.total, h.taken, h.nuls⟩
      rw [receiveLoop]
      by_cases hcur : cur = []
      · rw [if_pos hcur]
        exact ⟨r, rfl, hdone hin⟩
      · rw [if_neg hcur]
        dsimp only
        by_cases hp : cur.dropWhile isNewline = []
        · rw [if_pos hp]
          exact ⟨_, rfl, hdone hskip⟩
        · rw [if_neg hp, if_neg Bool.false_ne_true]
          rcases findMsg_ok (cur.dropWhile isNewline) with ⟨status, hfind⟩
          have hstop : ∃ r', (if (cur.dropWhile isNewline).length = maxPktLen then
                (return { r with total := len, overflow := true } : Except Stop Received)
              else return { r with
                total := r.total + (cur.length - (cur.dropWhile isNewline).length) }) = .ok r' ∧
              Inside len 0 r' := by
            split_ifs
            · exact ⟨_, rfl, Nat.le_refl len, hin.taken, hin.nuls⟩
            · exact ⟨_, rfl, hdone hskip⟩
          rw [hfind, ok_bind]
          cases status with
          | epartialmsg => exact hstop
          | emissinghdr => exact hstop
          | success size =>
              rcases hok _ (Looks.start hp) size hfind with ⟨pos, _, hsize, hlen⟩
              have hlendrop : ((cur.dropWhile isNewline).drop size).length =
                  (cur.dropWhile isNewline).length - size := List.length_drop
              refine ih _ _ (by omega) (fun buf hbuf => hok buf (hbuf.behind hp hfind)) ?_
              have htotal := hskip.total
              dsimp only at htotal
              refine ⟨?_, fun f hf => ?_, fun i hi => ?_⟩
              · dsimp only
                omega
              · rcases List.mem_append.mp hf with hf | hf
                · exact hin.taken f hf
                · rw [List.mem_singleton.mp hf]
                  intro hnil
                  rcases List.take_eq_nil_iff.mp hnil with hz | hz
                  · omega
                  · exact hp hz
              · rcases List.mem_append.mp hi with hi | hi
                · exact hin.nuls i hi
                · rw [List.mem_singleton.mp hi]
                  omega

theorem loopOk_of_sizeOk (hne : pkt ≠ []) (hok : ∀ buf, Looks pkt buf → SizeOk buf) :
    LoopOk pkt := by
  have hstart : Inside pkt.length pkt.length ⟨0, [], [pkt.length], false⟩ := by
    refine ⟨Nat.le_of_eq (Nat.zero_add _), nofun, fun i hi => ?_⟩
    rw [List.mem_singleton.mp hi]
  rcases receiveLoop_inside (pkt.length + 1) pkt _ (Nat.lt_succ_self _) hok hstart with
    ⟨r, hr, hin⟩
  refine ⟨r, ?_, hin.total, hin.taken, hin.nuls⟩
  unfold pjsipTpmgrReceivePacket
  rw [if_neg hne]
  exact hr

/-- **Progress of the framing.** The size that `pjsip_find_msg` finds in a buffer is right unless the
Content-Length counts back, and the loop over a packet is as it should be, with every buffer that it
looks at, unless one of these counts back. -/
theorem framing_progress (pkt : List UInt8) (hne : pkt ≠ []) :
    (∀ buf, SizeOk buf ↔ ¬ CountsBack buf) ∧
    (((∀ buf, Looks pkt buf → SizeOk buf) ∧ LoopOk pkt) ↔
      ∀ buf, Looks pkt buf → ¬ CountsBack buf) := by
  refine ⟨sizeOk_iff, ?_⟩
  constructor
  · rintro ⟨hok, _⟩ buf hbuf
    exact (sizeOk_iff buf).mp (hok buf hbuf)
  · intro hback
    have hok : ∀ buf, Looks pkt buf → SizeOk buf :=
      fun buf hbuf => (sizeOk_iff buf).mpr (hback buf hbuf)
    exact ⟨hok, loopOk_of_sizeOk hne hok⟩

/-- A packet that is one message without a body. -/
def emptyBody : List UInt8 := Sdp.str "A\r\nl: 0\r\n\r\n".toList

theorem emptyBody_progress :
    emptyBody ≠ [] ∧ (((∀ buf, Looks emptyBody buf → SizeOk buf) ∧ LoopOk emptyBody) ↔
      ∀ buf, Looks emptyBody buf → ¬ CountsBack buf) := by
  have hne : emptyBody ≠ [] := by decide
  exact ⟨hne, (framing_progress emptyBody hne).2⟩

/-- A message whose Content-Length counts back to its beginning. -/
def endlessMsg : List UInt8 := Sdp.str "A\r\nl: 4294967276\r\n\r\nabc".toList

/-- The size that is found can be zero, and then the loop does not end. -/
theorem framing_endless :
    pjsipFindMsg endlessMsg false = .ok (.success 0) ∧
      ∀ (fuel : Nat) (r : Received),
        receiveLoop false endlessMsg.length fuel endlessMsg r = .error .diverges := by
  have hfind : pjsipFindMsg endlessMsg false = .ok (.success 0) := by
    decide +kernel
  refine ⟨hfind, fun fuel => ?_⟩
  induction fuel with
  | zero => exact fun _ => rfl
  | succ fuel ih =>
      intro r
      have hp : endlessMsg.dropWhile isNewline = endlessMsg := by decide
      have hne : endlessMsg ≠ [] := by decide
      rw [receiveLoop, if_neg hne]
      dsimp only
      rw [hp, if_neg hne, if_neg Bool.false_ne_true, hfind, ok_bind]
      exact ih _

end Sip
