import Mathlib.Tactic

set_option autoImplicit false

/-! # Sequence numbers of RTP packets

`pjmedia_rtp_seq_init` and `pjmedia_rtp_seq_update` of `pjmedia/src/pjmedia/rtp.c` extend the 16-bit
sequence number of a packet by a count of its cycles. The packets of a stream have numbers of their
own, without bound, of which a packet carries the residue; `Follows` says that the session keeps up
with them.

Behind the two packets of the probation one step decides everything (`follows_settled`). In it, a
packet is compared as an `int` with the last number and one, which is never 65536.
-/

namespace Rtp

/-- `pjmedia_rtp_seq_session`: `max_seq` is a `pj_uint16_t`, the other fields are `pj_uint32_t`. -/
structure SeqSession where
  maxSeq : Nat
  cycles : Nat
  baseSeq : Nat
  badSeq : Nat
  probation : Nat
  deriving DecidableEq

/-- The part of a `pjmedia_rtp_status` that is about the sequence number. -/
structure SeqStatus where
  bad : Bool
  dup : Bool
  outorder : Bool
  probation : Bool
  restart : Bool
  diff : Nat
  deriving DecidableEq

/-- No flag, no difference. -/
def SeqStatus.zero : SeqStatus := ⟨false, false, false, false, false, 0⟩

def rtpSeqMod : Nat := 65536
def maxDropout : Nat := 3000
def maxMisorder : Nat := 100
def minSequential : Nat := 2

/-- `pjmedia_rtp_seq_restart`. -/
def seqRestart (sess : SeqSession) (seq : Nat) : SeqSession :=
  { sess with baseSeq := seq, maxSeq := seq, badSeq := rtpSeqMod + 1, cycles := 0 }

/-- `pjmedia_rtp_seq_init`. -/
def seqInit (sess : SeqSession) (seq : Nat) : SeqSession :=
  { seqRestart sess seq with maxSeq := (seq + 65535) % 65536, probation := minSequential }

/-- The part of `pjmedia_rtp_seq_update` under probation. The comparison is one of `int`. -/
def updateProbation (sess : SeqSession) (seq : Nat) : SeqSession × SeqStatus :=
  if seq = sess.maxSeq + 1 then
    ({ sess with probation := sess.probation - 1, maxSeq := seq },
      { SeqStatus.zero with diff := 1, probation := sess.probation - 1 != 0 })
  else
    ({ sess with probation := minSequential - 1, maxSeq := seq },
      { SeqStatus.zero with bad := true, probation := true, dup := seq == sess.maxSeq,
                            outorder := seq != sess.maxSeq })

/-- The part of `pjmedia_rtp_seq_update` behind the probation. -/
def updateValid (sess : SeqSession) (seq : Nat) : SeqSession × SeqStatus :=
  let udelta := (seq + 65536 - sess.maxSeq) % 65536
  if udelta = 0 then (sess, { SeqStatus.zero with dup := true })
  else if udelta < maxDropout then
    let cycles := if seq < sess.maxSeq then (sess.cycles + rtpSeqMod) % 4294967296 else sess.cycles
    ({ sess with cycles := cycles, maxSeq := seq }, { SeqStatus.zero with diff := udelta })
  else if udelta ≤ rtpSeqMod - maxMisorder then
    if seq = sess.badSeq then
      (seqRestart sess seq, { SeqStatus.zero with restart := true, probation := true, diff := 1 })
    else
      ({ sess with badSeq := (seq + 1) % 65536 }, { SeqStatus.zero with bad := true, outorder := true })
  else (sess, { SeqStatus.zero with outorder := true })

/-- `pjmedia_rtp_seq_update`. -/
def seqUpdate (sess : SeqSession) (seq : Nat) : SeqSession × SeqStatus :=
  if sess.probation ≠ 0 then updateProbation sess seq else updateValid sess seq

/-! ## Streams -/

/-- The sequence number that the packet `e` of a stream carries. -/
def seqOf (e : Int) : Nat := (e % 65536).toNat

/-- The packets of the list are less than `MAX_MISORDER` behind and less than `MAX_DROPOUT` ahead of
the last one so far. -/
def Tracks : Int → List Int → Prop
  | _, [] => True
  | m, e :: l => -(maxMisorder : Int) < e - m ∧ e - m < maxDropout ∧ Tracks (max m e) l

/-- What becomes of the packet `e` behind the number `m`: it is not taken for a bad one or for that of
another stream, what it goes ahead is counted, and the session holds the larger number. -/
structure KeepsUp (r : SeqSession × SeqStatus) (m e : Int) : Prop where
  good : r.2.bad = false
  same : r.2.restart = false
  diff : m < e → (r.2.diff : Int) = e - m
  extended : ((r.1.cycles + r.1.maxSeq : Nat) : Int) = max m e

/-- The session keeps up with all packets of the list. -/
def Follows : SeqSession → Int → List Int → Prop
  | _, _, [] => True
  | sess, m, e :: l => KeepsUp (seqUpdate sess (seqOf e)) m e ∧
      Follows (seqUpdate sess (seqOf e)).1 (max m e) l

variable {sess : SeqSession} {m e : Int} {l : List Int} {seq : Nat}

/-- The session is valid and holds the number `m`. -/
structure Settled (sess : SeqSession) (m : Int) : Prop where
  valid : sess.probation = 0
  maxSeq_lt : sess.maxSeq < 65536
  cycles_mod : sess.cycles % 65536 = 0
  extended : ((sess.cycles + sess.maxSeq : Nat) : Int) = m
  lt : m < 4294967296

theorem seqOf_lt (e : Int) : seqOf e < 65536 := by
  unfold seqOf
  omega

/-- A packet that does not go ahead changes nothing. -/
theorem update_behind (h : Settled sess m) (hlow : -100 < e - m) (hle : e ≤ m) :
    KeepsUp (seqUpdate sess (seqOf e)) m e ∧ (seqUpdate sess (seqOf e)).1 = sess := by
  have hseq := seqOf_lt e
  have hres : (seqOf e : Int) = e % 65536 := by
    unfold seqOf
    omega
  rcases h with ⟨hvalid, hmax, hmod, hext, -⟩
  rw [seqUpdate, if_neg (by omega)]
  simp only [updateValid, maxDropout, maxMisorder, rtpSeqMod]
  have hkeep : ((sess.cycles + sess.maxSeq : Nat) : Int) = max m e := by
    rw [hext, max_eq_left hle]
  rcases hle.lt_or_eq with hlt | heq
  · -- a late packet
    have hdelta : ((seqOf e + 65536 - sess.maxSeq) % 65536 : Nat) = (e - m + 65536 : Int) := by omega
    rw [if_neg (by omega), if_neg (by omega), if_neg (by omega)]
    exact ⟨⟨rfl, rfl, fun h => by omega, hkeep⟩, rfl⟩
  · -- the last one again
    rw [if_pos (by omega)]
    exact ⟨⟨rfl, rfl, fun h => by omega, hkeep⟩, rfl⟩

/-- A packet that goes ahead, maybe into the next cycle. The cycles are counted in 32 bits. -/
theorem update_ahead (h : Settled sess m) (hlt : m < e) (hhigh : e - m < 3000) :
    (e < 4294967296 → KeepsUp (seqUpdate sess (seqOf e)) m e ∧
        Settled (seqUpdate sess (seqOf e)).1 e) ∧
      (4294967296 ≤ e → ¬ KeepsUp (seqUpdate sess (seqOf e)) m e) := by
  have hseq := seqOf_lt e
  have hres : (seqOf e : Int) = e % 65536 := by
    unfold seqOf
    omega
  rcases h with ⟨hvalid, hmax, hmod, hext, hm⟩
  have hdelta : ((seqOf e + 65536 - sess.maxSeq) % 65536 : Nat) = (e - m : Int) := by omega
  rw [seqUpdate, if_neg (by omega)]
  simp only [updateValid, maxDropout, maxMisorder, rtpSeqMod]
  rw [if_neg (by omega), if_pos (by omega)]
  constructor
  · intro hfit
    have hsettled : Settled
        { sess with
          cycles := if seqOf e < sess.maxSeq then (sess.cycles + 65536) % 4294967296 else sess.cycles
          maxSeq := seqOf e } e := by
      split
      · exact ⟨hvalid, hseq, by dsimp only; omega, by dsimp only; omega, hfit⟩
      · exact ⟨hvalid, hseq, hmod, by dsimp only; omega, hfit⟩
    refine ⟨⟨rfl, rfl, fun _ => hdelta, ?_⟩, hsettled⟩
    rw [hsettled.extended, max_eq_right hlt.le]
  · rintro hover ⟨-, -, -, hextended⟩
    rw [max_eq_right hlt.le] at hextended
    split at hextended
    · dsimp only at hextended
      omega
    · dsimp only at hextended
      omega

/-- A valid session follows a stream as long as its numbers have 32 bits. -/
theorem follows_settled (l : List Int) (h : Settled sess m) (ht : Tracks m l) :
    Follows sess m l ↔ ∀ e ∈ l, e < 4294967296 := by
  induction l generalizing sess m with
  | nil => simp [Follows]
  | cons e l ih =>
      rcases ht with ⟨hlow, hhigh, ht⟩
      simp only [maxDropout, maxMisorder] at hlow hhigh
      have hlt := h.lt
      simp only [Follows, List.forall_mem_cons]
      rcases le_or_gt e m with hle | hgt
      · rcases update_behind h hlow hle with ⟨hkeep, hsame⟩
        rw [max_eq_left hle] at ht ⊢
        rw [hsame, ih h ht]
        exact ⟨fun hl => ⟨by omega, hl.2⟩, fun hl => ⟨hkeep, hl.2⟩⟩
      · rcases update_ahead h hgt hhigh with ⟨hfit, hover⟩
        rw [max_eq_right hgt.le] at ht ⊢
        constructor
        · rintro ⟨hkeep, hrest⟩
          have he : e < 4294967296 := by
            by_contra hge
            exact hover (by omega) hkeep
          exact ⟨he, (ih (hfit he).2 ht).mp hrest⟩
        · rintro ⟨he, hl⟩
          exact ⟨(hfit he).1, (ih (hfit he).2 ht).mpr hl⟩

/-! ## The probation -/

/-- The next packet in sequence ends in the expected state unless its number is 0. -/
theorem update_probation {s : Nat} (hp : sess.probation ≠ 0) (hnext : sess.maxSeq + 1 = s)
    (hcycles : sess.cycles = 0) (hs : s < 65536) :
    KeepsUp (seqUpdate sess (seqOf s)) (s - 1) s ∧ (seqUpdate sess (seqOf s)).1 =
      { sess with probation := sess.probation - 1, maxSeq := s } := by
  have hseq : seqOf (s : Int) = s := by
    unfold seqOf
    omega
  rw [hseq, seqUpdate, if_pos hp, updateProbation, if_pos hnext.symm]
  refine ⟨⟨rfl, rfl, fun _ => by simp, ?_⟩, rfl⟩
  rw [max_eq_right (by omega)]
  simp [hcycles]

/-- The two packets of the probation. -/
theorem init_settles (sess : SeqSession) {s : Nat} (h0 : s ≠ 0) (hs : s < 65535) :
    KeepsUp (seqUpdate (seqInit sess s) (seqOf s)) (s - 1) s ∧
      KeepsUp (seqUpdate (seqUpdate (seqInit sess s) (seqOf s)).1 (seqOf (s + 1))) s (s + 1) ∧
      Settled (seqUpdate (seqUpdate (seqInit sess s) (seqOf s)).1 (seqOf (s + 1))).1 (s + 1) := by
  have hmax : (seqInit sess s).maxSeq + 1 = s := by
    simp only [seqInit]
    omega
  rcases @update_probation (seqInit sess s) s (by simp [seqInit, minSequential]) hmax rfl
    (by omega) with ⟨hfirst, heq⟩
  have hsecond := @update_probation
    { seqInit sess s with probation := minSequential - 1, maxSeq := s } (s + 1)
    (by simp [minSequential]) rfl rfl (by omega)
  push_cast at hsecond
  rw [add_sub_cancel_right] at hsecond
  refine ⟨hfirst, ?_, ?_⟩
  · rw [heq]
    exact hsecond.1
  · rw [heq]
    simp only [seqInit] at hsecond ⊢
    rw [hsecond.2]
    refine ⟨rfl, by dsimp only; omega, rfl, ?_, by omega⟩
    simp [seqRestart]

/-- **When the extended sequence number is right.** -/
theorem follows_iff (sess : SeqSession) (s : Nat) (hs : s < 65536) (l : List Int)
    (ht : Tracks (s + 1) l) :
    Follows (seqInit sess s) (s - 1) ((s : Int) :: (s + 1) :: l) ↔
      s ≠ 0 ∧ s ≠ 65535 ∧ ∀ e ∈ l, e < 4294967296 := by
  have hmax : max ((s : Int) - 1) s = s := max_eq_right (by omega)
  have hmax' : max (s : Int) (s + 1) = s + 1 := max_eq_right (by omega)
  simp only [Follows, hmax, hmax']
  constructor
  · rintro ⟨hfirst, hsecond, hrest⟩
    -- at the beginning of a cycle, the probation compares 65536 with 0
    have hs0 : s ≠ 0 := by
      rintro rfl
      have hbad := hfirst.good
      simp [seqOf, seqUpdate, seqInit, updateProbation, minSequential] at hbad
    have hsmax : s ≠ 65535 := by
      rintro rfl
      have hbad := hsecond.good
      simp [seqOf, seqUpdate, seqInit, updateProbation, minSequential] at hbad
    rcases init_settles sess hs0 (by omega) with ⟨-, -, hsettled⟩
    exact ⟨hs0, hsmax, (follows_settled l hsettled ht).mp hrest⟩
  · rintro ⟨hs0, hsmax, hl⟩
    rcases init_settles sess hs0 (by omega) with ⟨hfirst, hsecond, hsettled⟩
    exact ⟨hfirst, hsecond, (follows_settled l hsettled ht).mpr hl⟩

/-- A session before its first packet. -/
def someSession : SeqSession := ⟨0, 0, 0, 0, 0⟩

/-- A stream that goes into its second cycle, with a late packet. -/
theorem follows_sample :
    Follows (seqInit someSession 65534) ((65534 : Nat) - 1)
        (((65534 : Nat) : Int) :: (((65534 : Nat) : Int) + 1) :: [65537, 65536]) ↔
      65534 ≠ 0 ∧ 65534 ≠ 65535 ∧ ∀ e ∈ ([65537, 65536] : List Int), e < 4294967296 :=
  follows_iff someSession 65534 (by decide) [65537, 65536] (by simp [Tracks, maxMisorder, maxDropout])

/-- A stream that begins with the last number of a cycle. -/
theorem lastOfCycle_bad : ¬ Follows (seqInit someSession 65535) 65534 [65535, 65536] := by
  rintro ⟨-, hsecond, -⟩
  have hbad := hsecond.good
  simp [seqOf, seqUpdate, seqInit, updateProbation, minSequential] at hbad

end Rtp
