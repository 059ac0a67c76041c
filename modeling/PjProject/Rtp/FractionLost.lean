import PjProject.Library.MachineInt
import PjProject.Rtp.Sequence

set_option autoImplicit false

/-! # The fraction lost

`pjmedia_rtcp_rx_rtp2` and `pjmedia_rtcp_build_rtcp` of `pjmedia/src/pjmedia/rtcp.c`, as far as the
numbers of packets go: the times, the jitter and the statistics that no report is computed from are
left out. The session counts in 32 bits. What it counts is written down by `Interval`, without bound:
how far the extended sequence number has gone since the last report, and how many packets were taken
as good ones. A step of the session is a step of the interval (`Counts`).
-/

namespace Rtp

open MachineInt

/-- The part of a `pjmedia_rtcp_rr` that is about lost packets. The sequence number is in host order. -/
structure RrBlock where
  fractLost : Nat
  totalLost : Nat
  lastSeq : Nat
  deriving DecidableEq

/-- The part of a `pjmedia_rtcp_session` that its reports are computed from, and the two report blocks
it has. The counters are `pj_uint32_t`. -/
structure ReportSession where
  rxPkt : Nat
  rxLoss : Nat
  txPkt : Nat
  senderPcount : Nat
  seqCtrl : SeqSession
  received : Nat
  expPrior : Nat
  rxPrior : Nat
  srRr : RrBlock
  rrRr : RrBlock
  deriving DecidableEq

/-- `pjmedia_rtcp_init2`. -/
def initSession : ReportSession :=
  ⟨0, 0, 0, 0, ⟨0, 0, 0, 0, 0⟩, 0, 0, 0, ⟨0, 0, 0⟩, ⟨0, 0, 0⟩⟩

/-- `rtcp_init_seq`. -/
def rtcpInitSeq (sess : ReportSession) : ReportSession :=
  { sess with received := 0, expPrior := 0, rxPrior := 0 }

/-- The sequence numbers that a packet is compared with: those of the first packet are its own. -/
def openSeq (sess : ReportSession) (seq : Nat) : SeqSession :=
  if sess.rxPkt = 0 then seqInit sess.seqCtrl seq else sess.seqCtrl

/-- `pjmedia_rtcp_rx_rtp2`. -/
def rxRtp (sess : ReportSession) (seq : UInt16) : ReportSession :=
  let r := seqUpdate (openSeq sess seq.toNat) seq.toNat
  let sess := { sess with rxPkt := uint32 (sess.rxPkt + 1), seqCtrl := r.1 }
  let sess := if r.2.restart then rtcpInitSeq sess else sess
  if r.2.bad then sess
  else
    let sess := { sess with received := uint32 (sess.received + 1) }
    if 1 < r.2.diff then { sess with rxLoss := uint32 (sess.rxLoss + (r.2.diff - 1)) } else sess

/-- `pjmedia_rtcp_tx_rtp`. -/
def txRtp (sess : ReportSession) : ReportSession := { sess with txPkt := uint32 (sess.txPkt + 1) }

/-- The fraction lost of an interval. The field of the report has eight bits. -/
def fractLost (expectedInterval receivedInterval : Nat) : Nat :=
  let lostInterval := if receivedInterval ≤ expectedInterval then expectedInterval - receivedInterval else 0
  if expectedInterval = 0 ∨ lostInterval = 0 then 0
  else uint32 (lostInterval * 256) / expectedInterval % 256

/-- `pjmedia_rtcp_build_rtcp`. A sender report is built if packets were sent since the last one. What
is added to `last_seq` of the other report is overwritten before it is sent. -/
def buildRtcp (sess : ReportSession) : ReportSession × RrBlock :=
  let lastSeq := uint32 (sess.seqCtrl.cycles / 65536 * 65536 + sess.seqCtrl.maxSeq)
  let expected := uint32 (lastSeq - sess.seqCtrl.baseSeq)
  let expectedInterval := uint32 (expected - sess.expPrior)
  let receivedInterval := uint32 (sess.received - sess.rxPrior)
  let rr := ⟨fractLost expectedInterval receivedInterval, sess.rxLoss % 16777216, lastSeq⟩
  let sess := { sess with expPrior := expected, rxPrior := sess.received }
  if sess.txPkt ≠ sess.senderPcount then
    ({ sess with senderPcount := sess.txPkt, srRr := rr }, rr)
  else ({ sess with rrRr := rr }, rr)

/-! ## What is counted -/

/-- How far the extended sequence number has gone in an interval, and how many good packets came. -/
structure Interval where
  expected : Int
  received : Nat
  deriving DecidableEq

/-- How far a packet takes the extended sequence number: under probation to its own number, whichever
that is, and behind it by the difference that is found. -/
def advance (sess : SeqSession) (seq : Nat) : Int :=
  if sess.probation ≠ 0 then seq - sess.maxSeq else (seqUpdate sess seq).2.diff

/-- The interval after a packet. With the first packet the number before it is compared; a restart
begins an interval of its own. -/
def Interval.rx (i : Interval) (sess : ReportSession) (seq : UInt16) : Interval :=
  let s := openSeq sess seq.toNat
  let st := (seqUpdate s seq.toNat).2
  let before := if sess.rxPkt = 0 then (s.maxSeq - s.baseSeq : Int) else i.expected
  if st.restart then ⟨0, 1⟩
  else ⟨before + advance s seq.toNat, if st.bad then i.received else i.received + 1⟩

/-- What is said of an interval: 256 times the packets lost over those expected, at most 255. -/
def lostFraction (i : Interval) : Nat :=
  (min 255 (256 * max 0 (i.expected - i.received) / i.expected)).toNat

/-- What happens to a session. -/
inductive ReportEvent
  | rx (seq : UInt16)
  | tx
  | report
  deriving DecidableEq

/-- A report: the packets that the session had received, the interval, and what was written. -/
structure Report where
  packets : Nat
  interval : Interval
  fractLost : Nat
  deriving DecidableEq

/-- The reports of a run, from a session that has received `n` packets. -/
def reports : ReportSession → Nat → Interval → List ReportEvent → List Report
  | _, _, _, [] => []
  | sess, n, i, .rx seq :: l => reports (rxRtp sess seq) (n + 1) (i.rx sess seq) l
  | sess, n, i, .tx :: l => reports (txRtp sess) n i l
  | sess, n, i, .report :: l =>
      ⟨n, i, (buildRtcp sess).2.fractLost⟩ :: reports (buildRtcp sess).1 n ⟨0, 0⟩ l

/-- The numbers of packets are in range: the session and the interval have fewer than 2³² of them. -/
def Report.InRange (r : Report) : Prop := r.packets < 4294967296 ∧ r.interval.expected < 4294967296

/-- The lost packets fit: of those expected at least one has come, and fewer than 2²⁴ have not. If the
number has gone back, what came in spite of it must not fill a round of the eight bits less a few. -/
def Fits (i : Interval) : Prop :=
  if 0 ≤ i.expected then i.expected ≤ i.received ∨ (0 < i.received ∧ i.expected < i.received + 16777216)
  else 4294967296 ≤ i.received - i.expected ∨ (i.received - i.expected) % 16777216 = 0 ∨
    -i.expected < 256 * ((i.received - i.expected) % 16777216)

/-! ## The arithmetic of a report -/

theorem cast_uint32 (x : Int) : (uint32 x : Int) = x % 4294967296 := by
  unfold uint32
  omega

theorem uint32_congr {x y : Int} (h : (x - y) % 4294967296 = 0) : uint32 x = uint32 y := by
  unfold uint32
  omega

theorem fractLost_of_le {e r : Nat} (h : e ≤ r) : fractLost e r = 0 := by
  unfold fractLost
  have hlost : (if r ≤ e then e - r else 0) = 0 := by
    split <;> omega
  rw [hlost]
  simp

theorem fractLost_of_gt {e r : Nat} (h : r < e) :
    fractLost e r = (e - r) * 256 % 4294967296 / e % 256 := by
  unfold fractLost
  rw [if_pos h.le]
  simp only [show ¬ (e = 0 ∨ e - r = 0) by omega, if_false]
  have hshift : uint32 (((e - r : Nat) : Int) * 256) = (e - r) * 256 % 4294967296 := by
    unfold uint32
    omega
  rw [hshift]

theorem lostFraction_natCast (e r : Nat) : lostFraction ⟨e, r⟩ = min 255 ((e - r) * 256 / e) := by
  have hlost : max 0 ((e : Int) - r) = ((e - r : Nat) : Int) := by omega
  unfold lostFraction
  simp only [hlost]
  rw [mul_comm]
  norm_cast

theorem lostFraction_of_neg {i : Interval} (h : i.expected < 0) : lostFraction i = 0 := by
  have hlost : max 0 (i.expected - i.received) = 0 := by omega
  simp [lostFraction, hlost]

/-- The quotient that is right has a value of at most 256, and that one only if nothing has come. -/
theorem quotient_le {e r : Nat} (h : r < e) :
    (e - r) * 256 / e ≤ 256 ∧ ((e - r) * 256 / e = 256 ↔ r = 0) := by
  constructor
  · apply Nat.div_le_of_le_mul
    have := Nat.mul_le_mul_right 256 (Nat.sub_le e r)
    omega
  · constructor
    · intro hq
      have hle := Nat.div_mul_le_self ((e - r) * 256) e
      rw [hq] at hle
      omega
    · rintro rfl
      rw [Nat.sub_zero, Nat.mul_div_cancel_left 256 (by omega)]

/-- A number of lost packets that does not fit in 24 bits makes the quotient smaller. -/
theorem quotient_overflows {e r : Nat} (h : r < e) (he : e < 4294967296) (hlost : 16777216 ≤ e - r) :
    (e - r) * 256 % 4294967296 / e < (e - r) * 256 / e := by
  have hround : (e - r) * 256 % 4294967296 + e ≤ (e - r) * 256 := by omega
  calc (e - r) * 256 % 4294967296 / e
      < (e - r) * 256 % 4294967296 / e + 1 := Nat.lt_succ_self _
    _ = ((e - r) * 256 % 4294967296 + e) / e := (Nat.add_div_right _ (by omega)).symm
    _ ≤ (e - r) * 256 / e := Nat.div_le_div_right hround

/-- When the fraction is right, for a number that has not gone back. -/
theorem fractLost_natCast_iff {e r : Nat} (he : e < 4294967296) :
    fractLost e r = lostFraction ⟨e, r⟩ ↔ Fits ⟨e, r⟩ := by
  have hfits : Fits ⟨e, r⟩ ↔ e ≤ r ∨ (0 < r ∧ e < r + 16777216) := by
    unfold Fits
    rw [if_pos (by simp)]
    dsimp only
    omega
  rw [hfits, lostFraction_natCast]
  rcases le_or_gt e r with hle | hgt
  · rw [fractLost_of_le hle, Nat.sub_eq_zero_of_le hle]
    simp [hle]
  obtain ⟨hq, hfull⟩ := quotient_le hgt
  have hsmall := quotient_overflows hgt he
  have hround := Nat.div_mul_le_self ((e - r) * 256 % 4294967296) e
  rw [fractLost_of_gt hgt]
  generalize hright : (e - r) * 256 / e = q at hq hfull hsmall ⊢
  by_cases hlost : e - r < 16777216
  · rw [Nat.mod_eq_of_lt (show (e - r) * 256 < 4294967296 by omega), hright]
    by_cases hr : r = 0
    · -- the fraction 256 is written as 0
      rw [hfull.mpr hr]
      simp only [show ¬ (e ≤ r ∨ (0 < r ∧ e < r + 16777216)) by omega, iff_false]
      decide
    · have hne : q ≠ 256 := fun h => hr (hfull.mp h)
      simp only [show e ≤ r ∨ (0 < r ∧ e < r + 16777216) by omega, iff_true]
      omega
  · have hlt := hsmall (by omega)
    simp only [show ¬ (e ≤ r ∨ (0 < r ∧ e < r + 16777216)) by omega, iff_false]
    intro heq
    generalize (e - r) * 256 % 4294967296 / e = q' at hlt heq hround
    -- the two could only meet at 255, which 256 less a round does not reach
    have h255 : q' = 255 := by omega
    have hr : r = 0 := hfull.mp (by omega)
    rw [h255] at hround
    omega

/-- When the fraction is right, for a number that has gone back. -/
theorem fractLost_neg_iff {i : Interval} (hneg : i.expected < 0) (hlow : -65535 ≤ i.expected)
    (hr : i.received < 4294967296) :
    fractLost (uint32 i.expected) i.received = lostFraction i ↔ Fits i := by
  obtain ⟨k, hk⟩ : ∃ k : Nat, i.expected = -k := ⟨(-i.expected).toNat, by omega⟩
  have he : uint32 i.expected = 4294967296 - k := by
    unfold uint32
    omega
  rw [lostFraction_of_neg hneg, he]
  unfold Fits
  rw [if_neg (by omega), hk]
  rcases le_or_gt (4294967296 - k) i.received with hle | hgt
  · rw [fractLost_of_le hle]
    simp only [true_iff]
    omega
  · rw [fractLost_of_gt hgt]
    generalize hx : (4294967296 - k - i.received) * 256 % 4294967296 = x
    rcases lt_or_ge x (4294967296 - k) with hlt | hge
    · rw [Nat.div_eq_of_lt hlt]
      omega
    · have hone : x / (4294967296 - k) = 1 := Nat.div_eq_of_lt_le (by omega) (by omega)
      rw [hone]
      omega

/-! ## What a step keeps -/

/-- The numbers of a session agree with what is expected of the interval, behind the prior `p`. Only
under probation they go back, and there by less than a cycle. -/
structure Agrees (s : SeqSession) (p : Nat) (e : Int) : Prop where
  maxSeq_lt : s.maxSeq < 65536
  baseSeq_lt : s.baseSeq < 65536
  cycles_mod : s.cycles % 65536 = 0
  cycles_lt : s.cycles < 4294967296
  expected : ((s.cycles + s.maxSeq - s.baseSeq - p : Int) - e) % 4294967296 = 0
  low : -65535 ≤ e
  probation : s.probation ≠ 0 → s.cycles = 0 ∧ 0 ≤ s.maxSeq - e ∧ s.maxSeq - e ≤ 65535

variable {s : SeqSession} {p n : Nat} {e : Int} {i : Interval} {sess : ReportSession}

/-- A session agrees with the packet that it restarts with. -/
theorem agrees_restart {seq : Nat} (hseq : seq < 65536) (hp : s.probation = 0) :
    Agrees (seqRestart s seq) 0 0 where
  maxSeq_lt := hseq
  baseSeq_lt := hseq
  cycles_mod := rfl
  cycles_lt := by simp [seqRestart]
  expected := by simp [seqRestart]
  low := by decide
  probation h := absurd hp h

theorem agrees_init {seq : Nat} (hseq : seq < 65536) :
    Agrees (seqInit s seq) 0 ((seqInit s seq).maxSeq - (seqInit s seq).baseSeq) := by
  simp only [seqInit, seqRestart]
  exact ⟨by dsimp only; omega, hseq, rfl, by simp, by dsimp only; omega, by omega,
    fun _ => by dsimp only; omega⟩

/-- Under probation, a packet sets the number to its own. -/
theorem Agrees.updateProbation (h : Agrees s p e) {seq : Nat} (hseq : seq < 65536)
    (hp : s.probation ≠ 0) :
    Agrees (updateProbation s seq).1 p (e + (seq - s.maxSeq)) ∧
      (Rtp.updateProbation s seq).2.restart = false := by
  obtain ⟨hmax, hbase, hmod, hlt, hexp, hlow, hprob⟩ := h
  obtain ⟨hcycles, hge, hle⟩ := hprob hp
  have hgoal : ∀ q, Agrees { s with probation := q, maxSeq := seq } p (e + (seq - s.maxSeq)) := by
    intro q
    exact ⟨hseq, hbase, hmod, hlt, by dsimp only; omega, by omega, fun _ => by dsimp only; omega⟩
  unfold Rtp.updateProbation
  split
  · exact ⟨hgoal _, rfl⟩
  · exact ⟨hgoal _, rfl⟩

/-- Behind the probation a packet moves the number on by its difference, or restarts the session. -/
theorem Agrees.updateValid (h : Agrees s p e) {seq : Nat} (hseq : seq < 65536)
    (hp : s.probation = 0) :
    ((updateValid s seq).2.restart = false →
        Agrees (Rtp.updateValid s seq).1 p (e + (Rtp.updateValid s seq).2.diff)) ∧
      ((Rtp.updateValid s seq).2.restart = true → Agrees (Rtp.updateValid s seq).1 0 0 ∧
        (Rtp.updateValid s seq).2.bad = false) := by
  have hsame : ∀ q, Agrees { s with badSeq := q } p (e + (0 : Nat)) := by
    intro q
    simpa using ⟨h.maxSeq_lt, h.baseSeq_lt, h.cycles_mod, h.cycles_lt, h.expected, h.low,
      h.probation⟩
  unfold Rtp.updateValid
  simp only [maxDropout, maxMisorder, rtpSeqMod]
  split
  · exact ⟨fun _ => hsame s.badSeq, fun hr => absurd hr (by simp [SeqStatus.zero])⟩
  split
  · refine ⟨fun _ => ?_, fun hr => absurd hr (by simp [SeqStatus.zero])⟩
    obtain ⟨hmax, hbase, hmod, hlt, hexp, hlow, -⟩ := h
    generalize hcycles : (if seq < s.maxSeq then (s.cycles + 65536) % 4294967296 else s.cycles) = c
    have hc : c % 65536 = 0 ∧ c < 4294967296 := by
      split at hcycles <;> omega
    refine ⟨hseq, hbase, hc.1, hc.2, ?_, by dsimp only; omega, fun h => absurd hp h⟩
    dsimp only
    split at hcycles <;> omega
  split
  · split
    · exact ⟨fun hr => absurd hr (by simp), fun _ => ⟨agrees_restart hseq hp, rfl⟩⟩
    · exact ⟨fun _ => hsame _, fun hr => absurd hr (by simp [SeqStatus.zero])⟩
  · exact ⟨fun _ => hsame s.badSeq, fun hr => absurd hr (by simp [SeqStatus.zero])⟩

/-- **A packet keeps the numbers in agreement**: with the interval that it moves on, or with a new one. -/
theorem Agrees.update (h : Agrees s p e) {seq : Nat} (hseq : seq < 65536) :
    ((seqUpdate s seq).2.restart = false → Agrees (seqUpdate s seq).1 p (e + advance s seq)) ∧
      ((seqUpdate s seq).2.restart = true → Agrees (seqUpdate s seq).1 0 0 ∧
        (seqUpdate s seq).2.bad = false) := by
  unfold seqUpdate advance
  by_cases hp : s.probation = 0
  · have hvalid := h.updateValid hseq hp
    simpa [hp, seqUpdate] using hvalid
  · obtain ⟨hagrees, hrestart⟩ := h.updateProbation hseq hp
    simp only [ne_eq, hp, not_false_iff, if_true]
    exact ⟨fun _ => hagrees, fun hr => absurd (hrestart.symm.trans hr) (by simp)⟩

/-! ## Runs -/

/-- A session that has received `n` packets, and its interval. -/
structure Counts (sess : ReportSession) (n : Nat) (i : Interval) : Prop where
  packets : sess.rxPkt = n
  before : n = 0 → sess.expPrior = 0 ∧ i = ⟨0, 0⟩
  numbers : Agrees sess.seqCtrl sess.expPrior i.expected
  received : ((sess.received - sess.rxPrior : Int) - i.received) % 4294967296 = 0
  received_le : i.received ≤ n

theorem counts_init : Counts initSession 0 ⟨0, 0⟩ where
  packets := rfl
  before _ := ⟨rfl, rfl⟩
  numbers := by constructor <;> simp [initSession]
  received := rfl
  received_le := le_rfl

theorem Counts.txRtp (h : Counts sess n i) : Counts (txRtp sess) n i :=
  ⟨h.packets, h.before, h.numbers, h.received, h.received_le⟩

/-- What is in agreement when a packet is compared: with the first one, the numbers are new. -/
theorem Counts.open (h : Counts sess n i) (seq : UInt16) :
    Agrees (openSeq sess seq.toNat) sess.expPrior
      (if sess.rxPkt = 0 then ((openSeq sess seq.toNat).maxSeq - (openSeq sess seq.toNat).baseSeq : Int)
        else i.expected) := by
  unfold openSeq
  by_cases hn : sess.rxPkt = 0
  · simp only [hn, if_true]
    rw [(h.before (h.packets.symm.trans hn)).1]
    exact agrees_init seq.toNat_lt
  · simp only [hn, if_false]
    exact h.numbers

theorem Counts.rxRtp (h : Counts sess n i) (hn : n + 1 < 4294967296) (seq : UInt16) :
    Counts (rxRtp sess seq) (n + 1) (i.rx sess seq) := by
  obtain ⟨hsame, hrestart⟩ := (h.open seq).update seq.toNat_lt
  have hpkt : uint32 ((sess.rxPkt : Int) + 1) = n + 1 := by
    rw [h.packets]
    unfold uint32
    omega
  have hone : ∀ k : Nat, ((uint32 ((k : Int) + 1) : Int) - (k + 1)) % 4294967296 = 0 := by
    intro k
    unfold uint32
    omega
  have hcount := hone sess.received
  have hrec := h.received
  have hle := h.received_le
  unfold Rtp.rxRtp Interval.rx
  dsimp only
  generalize seqUpdate (openSeq sess seq.toNat) seq.toNat = r at hsame hrestart ⊢
  generalize advance (openSeq sess seq.toNat) seq.toNat = a at hsame ⊢
  simp only [hpkt]
  cases hres : r.2.restart
  · have hnumbers := hsame hres
    cases hbad : r.2.bad
    · simp only [Bool.false_eq_true, if_false]
      split
      all_goals exact ⟨rfl, fun h => by omega, hnumbers, by dsimp only; omega, by dsimp only; omega⟩
    · simp only [Bool.false_eq_true, if_false, if_true]
      exact ⟨rfl, fun h => by omega, hnumbers, hrec, by dsimp only; omega⟩
  · obtain ⟨hnumbers, hbad⟩ := hrestart hres
    have h0 := hone 0
    simp only [hbad, rtcpInitSeq, Bool.false_eq_true, if_false, if_true]
    split
    all_goals exact ⟨rfl, fun h => by omega, hnumbers, by dsimp only; omega, by dsimp only; omega⟩

/-- What is written in a report is the fraction of the interval, and the next one begins. -/
theorem Counts.buildRtcp (h : Counts sess n i) :
    Counts (buildRtcp sess).1 n ⟨0, 0⟩ ∧
      (i.received < 4294967296 →
        (Rtp.buildRtcp sess).2.fractLost = fractLost (uint32 i.expected) i.received) := by
  obtain ⟨hpkt, hbefore, hnumbers, hrec, hle⟩ := h
  have hexp := hnumbers.expected
  have hmod := hnumbers.cycles_mod
  have hcycles : (sess.seqCtrl.cycles : Int) / 65536 * 65536 = sess.seqCtrl.cycles := by omega
  unfold Rtp.buildRtcp
  dsimp only
  rw [hcycles]
  generalize hlast : uint32 ((sess.seqCtrl.cycles : Int) + sess.seqCtrl.maxSeq) = lastSeq
  generalize hprior : uint32 ((lastSeq : Int) - sess.seqCtrl.baseSeq) = expected
  have hclast := cast_uint32 ((sess.seqCtrl.cycles : Int) + sess.seqCtrl.maxSeq)
  have hcprior := cast_uint32 ((lastSeq : Int) - sess.seqCtrl.baseSeq)
  rw [hlast] at hclast
  rw [hprior] at hcprior
  have hnumbers' : Agrees sess.seqCtrl expected 0 :=
    ⟨hnumbers.maxSeq_lt, hnumbers.baseSeq_lt, hmod, hnumbers.cycles_lt, by omega, by omega, fun hp => by
      have hmax := hnumbers.maxSeq_lt
      have := (hnumbers.probation hp).1
      omega⟩
  have hbefore' : n = 0 → expected = 0 := by
    intro hn
    obtain ⟨hp0, rfl⟩ := hbefore hn
    rw [hp0] at hexp
    dsimp only at hexp
    omega
  have hcounts : ∀ pcount sr rr, Counts
      { sess with senderPcount := pcount, expPrior := expected, rxPrior := sess.received,
                  srRr := sr, rrRr := rr } n ⟨0, 0⟩ := fun _ _ _ =>
    ⟨hpkt, fun hn => ⟨hbefore' hn, rfl⟩, hnumbers', by dsimp only; omega, Nat.zero_le n⟩
  have hfract : i.received < 4294967296 →
      fractLost (uint32 ((expected : Int) - sess.expPrior))
        (uint32 ((sess.received : Int) - sess.rxPrior)) = fractLost (uint32 i.expected) i.received := by
    intro hr
    have he : uint32 ((expected : Int) - sess.expPrior) = uint32 i.expected := uint32_congr (by omega)
    rw [he, uint32_congr hrec, uint32_natCast hr]
  split
  · exact ⟨hcounts _ _ _, hfract⟩
  · exact ⟨hcounts _ _ _, hfract⟩

/-- Two packets, the second one with a number that is not the next: what was expected up to the first
report has come, and then nothing of 90 packets. -/
def probationJump : List ReportEvent := [.rx 10, .report, .rx 100, .report]

end Rtp
