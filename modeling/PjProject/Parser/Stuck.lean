import PjProject.Parser.Advance

set_option autoImplicit false

/-! # Where the loop over the header lines stays

The loop of `parse_hdr_retry_after` does not move when it finds a character that starts neither a
comment nor a parameter (`Blocked`). All other handlers end, and so does the loop over the lines of a
header section, unless it comes to such a Retry-After line (`parseLines_hangs_iff`).
-/

namespace SipParser

open Scan Outcome
open Consume (Safe Eats Turn Kept Taken Turned Leaves Comes Hangs Stuck)
open Sdp (Str)

variable {S : Scope} {I O : Consume.Input Stop Ctx}

/-! ## Looking at the cursor -/

/-- The cursor is at the end of the input or of the line. -/
def Ctx.ended (c : Ctx) : Bool := decide (c.lim ≤ c.sc.curptr) || isNewline c.cur

theorem Sound.atLineEnd {c : Ctx} (hc : Sound S c) : atLineEnd c = .ok c.ended c := by
  unfold SipParser.atLineEnd
  simp only [Bind.bind, EStateM.bind, scanIsEof, look, hc.curChar]
  rfl

/-! ## The Retry-After header -/

/-- A character for which the loop of `parse_hdr_retry_after` has no branch. -/
def Blocked (c : Ctx) : Prop := c.ended = false ∧ c.cur ≠ 40 ∧ c.cur ≠ 59

theorem retryAfterTurn_eq {c : Ctx} (hc : Sound S c) (hdr : RetryAfterHdr) (hend : c.ended = false) :
    retryAfterTurn hdr c = (if c.cur = 40 then do
        let comment ← scanGetQuote 40 41
        return .inl { hdr with comment := unquoted comment }
      else if c.cur = 59 then do
        let prm ← intParseParam
        return .inl { hdr with param := hdr.param ++ [prm] }
      else return .inl hdr : Parser (RetryAfterHdr ⊕ RetryAfterHdr)) c := by
  unfold retryAfterTurn
  simp only [Bind.bind, EStateM.bind, hc.atLineEnd, hend, Bool.false_eq_true, if_false, hc.curChar]

theorem retryAfterTurn_blocked {c : Ctx} (hc : Sound S c) (hdr : RetryAfterHdr) (h : Blocked c) :
    retryAfterTurn hdr c = .ok (.inl hdr) c := by
  rw [retryAfterTurn_eq hc hdr h.1, if_neg h.2.1, if_neg h.2.2]
  rfl

theorem retryAfterTurn_turned [Reading S I] {c : Ctx} (hs : I.sound c) (hdr : RetryAfterHdr)
    (h : ¬ Blocked c) : Turned I c (retryAfterTurn hdr c) := by
  have hc : Sound S c := Reading.sound hs
  by_cases hend : c.ended = true
  · have heq : retryAfterTurn hdr c = .ok (.inr hdr) c := by
      unfold retryAfterTurn
      simp only [Bind.bind, EStateM.bind, hc.atLineEnd, hend]
      rfl
    rw [heq]
    exact Leaves.refl hs
  have hend' : c.ended = false := by simpa using hend
  rw [retryAfterTurn_eq hc hdr hend']
  by_cases h40 : c.cur = 40
  · rw [if_pos h40]
    have hlt : c.sc.curptr < S.lim := by
      rw [Ctx.ended, Bool.or_eq_false_iff, decide_eq_false_iff_not, hc.lim] at hend'
      omega
    have hquote : Taken I c (scanGetQuote 40 41 c) :=
      scanGetQuote_taken (by decide) (Or.inr rfl) hs (Or.inr hlt)
    exact (hquote.bind fun _ c1 hr => Safe.pure _ c1 (hquote.kept.sound_of_ok hr)).turned
  · rw [if_neg h40]
    by_cases h59 : c.cur = 59
    · rw [if_pos h59]
      exact (intParseParam_eats.bind fun _ => Safe.pure _).turn c hs
    · exact absurd ⟨hend', h40, h59⟩ h

/-- The Retry-After header at the cursor has, where a comment or a parameter may start, another
character. -/
def RetryAfterStuck (c : Ctx) : Prop :=
  ∃ tmp c1 hdr c', scanGet digitSpec c = .ok tmp c1 ∧
    Comes retryAfterTurn { ivalue := strtoi tmp, param := [], comment := [] } c1 hdr c' ∧ Blocked c'

/-- What the loop of `parse_hdr_retry_after` needs of the rule of loops. -/
theorem retryAfter_stuck (hdr : RetryAfterHdr) (c : Ctx) (hc : Sound S c) (h : Blocked c) :
    Stuck .diverges retryAfterTurn hdr c :=
  Stuck.of_same (retryAfterTurn_blocked hc hdr h)

theorem parseHdrRetryAfter_hangs {c : Ctx} (hc : Sound S c) (h : RetryAfterStuck c) :
    Hangs .diverges parseHdrRetryAfter c := by
  obtain ⟨tmp, c1, hdr, c', hget, hcomes, hblocked⟩ := h
  have hget' : Kept (input S) c (scanGet digitSpec c) := (scanGet_eats digitSpec).safe c hc
  have hc1 : Sound S c1 := hget'.sound_of_ok hget
  refine Hangs.after hget (Hangs.bind ?_)
  refine (Consume.loop_hangs_iff not_diverges (fun b s hs hb => retryAfterTurn_turned hs b hb)
    retryAfter_stuck hc1 (left_lt_fuel hc1)).mpr ⟨hdr, c', hcomes, hblocked⟩

theorem parseHdrRetryAfter_kept [Reading S I] {c : Ctx} (hc : I.sound c)
    (h : ¬ RetryAfterStuck c) : Kept I c (parseHdrRetryAfter c) := by
  have hget' : Kept I c (scanGet digitSpec c) := (scanGet_eats digitSpec).safe c hc
  refine hget'.bind fun tmp c1 hget => ?_
  have hc1 := hget'.sound_of_ok hget
  have hloop : Kept I c1
      (scanLoop retryAfterTurn { ivalue := strtoi tmp, param := [], comment := [] } c1) := by
    refine Consume.loop_kept (fun b s hs hb => retryAfterTurn_turned hs b hb) hc1
      (left_lt_fuel hc1) ?_
    rintro ⟨hdr, c', hcomes, hblocked⟩
    exact h ⟨tmp, c1, hdr, c', hget, hcomes, hblocked⟩
  exact hloop.bind_safe fun hdr => parseHdrEnd_safe.bind fun _ => Safe.pure _

/-! ## A header line -/

/-- The line at the cursor is a Retry-After header with such a character. -/
def StuckLine (c : Ctx) : Prop :=
  ∃ hname c1, parseHname c = .ok hname c1 ∧ findHandler hname = some .retryAfter ∧
    RetryAfterStuck c1

/-- The handler of the line at the cursor looks for a quote at a context with the property. -/
def LineMeets (P : Ctx → Prop) (c : Ctx) : Prop :=
  ∃ hname c1 handler, parseHname c = .ok hname c1 ∧ findHandler hname = some handler ∧
    handler.Meets P c1

theorem LineMeets.mono {P Q : Ctx → Prop} (h : ∀ c, P c → Q c) {c : Ctx} :
    LineMeets P c → LineMeets Q c := by
  rintro ⟨hname, c1, handler, hn, hf, hm⟩
  exact ⟨hname, c1, handler, hn, hf, hm.mono h⟩

theorem not_lineMeets {c : Ctx} : ¬ LineMeets (Overruns (input S)) c := by
  rintro ⟨hname, c1, handler, -, -, hm⟩
  exact handler.not_meets (hm.mono fun _ h => not_overruns h)

theorem setHname_safe [Reading S I] (hname : Str) : Safe I (setHname hname) := by
  intro c hc
  refine ⟨Reading.named hname hc, ?_⟩
  rw [Reading.left_eq, Reading.left_eq]

theorem parseHname_eats [Reading S I] : Eats I parseHname := by
  refine Eats.after (setHname_safe []) fun _ => (scanGet_eats tokenSpec).bind fun hname => ?_
  exact (setHname_safe _).bind fun _ => scanGetChar_eats.safe.bind fun c =>
    Safe.ite throw_safe (Safe.pure _)

theorem parseHvalue_kept [Reading S I] {hname : Str} {c : Ctx} (hc : I.sound c)
    (h : findHandler hname ≠ some .retryAfter)
    (hq : ∀ handler, findHandler hname = some handler → ¬ handler.Meets (Overruns I) c) :
    Kept I c (parseHvalue hname c) := by
  unfold parseHvalue
  cases hf : findHandler hname with
  | none => exact (parseGenericStringHdr_safe.bind fun _ => Safe.pure _) c hc
  | some handler =>
      refine handler_kept (fun heq => h ?_) hc (hq handler hf)
      rw [hf, heq]

theorem parseHdrLine_taken [Reading S I] {c : Ctx} (hc : I.sound c) (h : ¬ StuckLine c)
    (hq : ¬ LineMeets (Overruns I) c) : Taken I c (parseHdrLine c) := by
  have hname' : Taken I c (parseHname c) := parseHname_eats c hc
  refine hname'.bind fun hname c1 hn => ?_
  have hc1 := hname'.kept.sound_of_ok hn
  by_cases hf : findHandler hname = some .retryAfter
  · unfold parseHvalue
    rw [hf]
    exact parseHdrRetryAfter_kept hc1 fun hstuck => h ⟨hname, c1, hn, hf, hstuck⟩
  · exact parseHvalue_kept hc1 hf fun handler hh hm => hq ⟨hname, c1, handler, hn, hh, hm⟩

theorem parseHdrLine_hangs {c : Ctx} (hc : Sound S c) (h : StuckLine c) :
    Hangs .diverges parseHdrLine c := by
  obtain ⟨hname, c1, hn, hf, hstuck⟩ := h
  refine Hangs.after hn ?_
  unfold parseHvalue
  rw [hf]
  have hname' : Kept (input S) c (parseHname c) := parseHname_eats.safe c hc
  exact parseHdrRetryAfter_hangs (hname'.sound_of_ok hn) hstuck

/-! ## Behind a bad line -/

/-- A line is skipped: the cursor moves on, or it is set to the end of the scanner. -/
theorem scanSkipLine_eq [Reading S I] {c : Ctx} (hs : I.sound c) :
    ∃ c', scanSkipLine c = .ok () c' ∧ I.sound c' ∧
      (c.sc.curptr < c'.sc.curptr ∨ c'.sc.curptr = S.lim) := by
  have hc : Sound S c := Reading.sound hs
  have hlen : c.sc.buf.length = S.mem.length := by rw [hc.buf]
  have hcur : c.sc.curptr ≤ c.sc.buf.length := hlen ▸ hc.cursor
  have hle := run_le c.sc (fun x => x != 10 && x != 0) hcur
  unfold scanSkipLine move
  dsimp only
  rw [skipWhile_eq c.sc (by decide) _ _ hcur (endPos_lt_fuel _ _), ok_bind, charAt_ok hle, ok_bind]
  generalize ht : c.sc.curptr + ((c.sc.buf.drop c.sc.curptr).takeWhile
    fun x => x != 10 && x != 0).length = t at hle
  by_cases h10 : c.sc.buf.getD t 0 = 10
  · have hlt : t < c.sc.buf.length := lt_of_char_ne (by rw [h10]; decide)
    rw [if_pos h10]
    refine ⟨_, rfl, Reading.moved hs ⟨hc.buf, le_rfl, ?_⟩, Or.inl ?_⟩
    · show t + 1 ≤ S.mem.length
      omega
    · show c.sc.curptr < t + 1
      omega
  · rw [if_neg h10]
    refine ⟨_, rfl, Reading.moved hs ⟨hc.buf, le_rfl, ?_⟩, Or.inr hc.lim⟩
    show c.lim ≤ S.mem.length
    rw [hc.lim]
    exact S.inside

theorem foldedTurn_eq {c c1 : Ctx} (hskip : scanSkipLine c = .ok () c1) (hc1 : Sound S c1) :
    foldedTurn () c = .ok (if isSpace c1.cur then .inl () else .inr ()) c1 := by
  unfold foldedTurn
  simp only [Bind.bind, EStateM.bind, hskip, hc1.curChar]
  split <;> rfl

/-- Skipping a line with its continuations moves on from any position inside the scanner. -/
theorem foldedTurn_run [Reading S I] (n : Nat) : ∀ (start : Nat) (c : Ctx), start < S.lim →
    start ≤ c.sc.curptr → I.sound c → S.mem.length - c.sc.curptr < n →
    ∃ c', Consume.iterate .diverges foldedTurn n () c = .ok () c' ∧ I.sound c' ∧
      start < c'.sc.curptr := by
  induction n with
  | zero =>
      intro start c _ _ _ hn
      omega
  | succ n ih =>
      intro start c hlim hle hc hn
      obtain ⟨c1, hskip, hs1, hmove⟩ := scanSkipLine_eq hc
      have hc1 : Sound S c1 := Reading.sound hs1
      have hturn := foldedTurn_eq hskip hc1
      have hstart : start < c1.sc.curptr := by omega
      by_cases hsp : isSpace c1.cur = true
      · -- the end of the scanner is no space, so that a newline was found
        have hne : c1.sc.curptr ≠ S.lim := by
          intro heq
          have hblank := S.blank
          rw [← heq, ← hc1.buf] at hblank
          rw [Ctx.cur, hblank] at hsp
          cases hsp
        have hlt : c.sc.curptr < c1.sc.curptr := hmove.resolve_right hne
        have hcur := hc1.cursor
        rw [if_pos hsp] at hturn
        obtain ⟨c', hrun, hc', hlast⟩ := ih start c1 hlim (by omega) hs1 (by omega)
        exact ⟨c', by rw [Consume.iterate_again hturn, hrun], hc', hlast⟩
      · rw [if_neg hsp] at hturn
        exact ⟨c1, Consume.iterate_done hturn, hs1, hstart⟩

/-- Behind an exception the scanner moves on, if there are more lines. -/
theorem skipBadLine_spec [Reading S I] {c : Ctx} (hs : I.sound c) :
    ∃ more c', skipBadLine c = .ok more c' ∧ I.sound c' ∧ c.sc.curptr ≤ c'.sc.curptr ∧
      (more = true → c.sc.curptr < c'.sc.curptr) := by
  have hc : Sound S c := Reading.sound hs
  -- the flags do not matter for the cursor
  have hset : ∀ {c : Ctx}, I.sound c →
      ∃ c', setSkipWs 3 c = .ok () c' ∧ I.sound c' ∧ c'.sc.curptr = c.sc.curptr := by
    intro c hs
    have hc : Sound S c := Reading.sound hs
    exact ⟨_, rfl, Reading.moved hs ⟨hc.buf, le_rfl, hc.cursor⟩, rfl⟩
  unfold skipBadLine
  simp only [Bind.bind, EStateM.bind, scanIsEof, look]
  by_cases heof : c.lim ≤ c.sc.curptr
  · obtain ⟨c1, hr, hs1, hcur⟩ := hset hs
    have hc1 : Sound S c1 := Reading.sound hs1
    have hend : c1.ended = true := by
      rw [Ctx.ended, hc1.lim, ← hc.lim, hcur, decide_eq_true heof, Bool.true_or]
    simp only [decide_eq_true heof, if_true, EStateM.bind, hr, hc1.atLineEnd, hend]
    exact ⟨_, _, rfl, hs1, hcur.ge, fun h => by cases h⟩
  · have hlim : c.sc.curptr < S.lim := by
      rw [← hc.lim]
      omega
    have hleft : I.left c < c.sc.fuel := left_lt_fuel hs
    rw [Reading.left_eq] at hleft
    obtain ⟨c1, hrun, hs1, hlt⟩ := foldedTurn_run c.sc.fuel c.sc.curptr c hlim le_rfl hs hleft
    obtain ⟨c2, hr, hs2, hcur⟩ := hset hs1
    have hc2 : Sound S c2 := Reading.sound hs2
    have hskip : skipFolded c = .ok () c1 := hrun
    simp only [decide_eq_false heof, Bool.false_eq_true, if_false, EStateM.bind, hskip, hr,
      hc2.atLineEnd]
    exact ⟨_, _, rfl, hs2, by omega, fun _ => by omega⟩

/-! ## The loop over the lines -/

/-- The input of the loop over the lines: no syntax error leaves it. -/
def outer (S : Scope) : Consume.Input Stop Ctx where
  sound := Sound S
  left c := S.mem.length - c.sc.curptr
  fails e := e = .outOfBounds ∧ ¬ S.strict

theorem outer_not_diverges : ¬ (outer S).fails .diverges := by
  rintro ⟨h, _⟩
  cases h

/-- `O` is `I` behind a handler of syntax errors. -/
structure Catches (I O : Consume.Input Stop Ctx) : Prop where
  sound : ∀ c, O.sound c ↔ I.sound c
  left : ∀ c, O.left c = I.left c
  fails : ∀ e, I.fails e → e ≠ .syntaxErr → O.fails e

theorem outer_catches : Catches (input S) (outer S) where
  sound _ := Iff.rfl
  left _ := rfl
  fails _ h hne := h.resolve_left hne

theorem afterLine_turned [Reading S I] (hO : Catches I O) {c c1 : Ctx} (hc : I.sound c1)
    (hlt : I.left c1 < I.left c) (l : Lines) : Turned O c (afterLine l c1) := by
  have hs : Sound S c1 := Reading.sound hc
  rw [← hO.left, ← hO.left] at hlt
  have hc' := (hO.sound c1).mpr hc
  unfold afterLine
  simp only [Bind.bind, EStateM.bind, hs.atLineEnd]
  split
  · exact ⟨hc', hlt.le⟩
  · exact ⟨hc', hlt⟩

theorem afterError_turned [Reading S I] (hO : Catches I O) {stop : Bool} {c c1 : Ctx}
    (hle : Leaves I c c1) (l : Lines) : Turned O c (afterError stop l c1) := by
  have hout : ∀ {c2}, I.sound c2 → I.left c2 ≤ I.left c → Leaves O c c2 := fun hc2 h =>
    ⟨(hO.sound _).mpr hc2, by rw [hO.left, hO.left]; exact h⟩
  unfold afterError
  by_cases hstop : stop = true
  · rw [if_pos hstop]
    exact hout hle.1 hle.2
  · rw [if_neg hstop]
    obtain ⟨more, c2, hr, hs2, hcur, hmore⟩ := skipBadLine_spec hle.1
    have hc2 : Sound S c2 := Reading.sound hs2
    have hin := hc2.cursor
    have hleft := hle.2
    rw [Reading.left_eq, Reading.left_eq] at hleft
    simp only [Bind.bind, EStateM.bind, hr]
    cases more with
    | true =>
        have hlt := hmore rfl
        refine ⟨(hO.sound c2).mpr hs2, ?_⟩
        rw [hO.left, hO.left, Reading.left_eq, Reading.left_eq]
        omega
    | false =>
        refine hout hs2 ?_
        rw [Reading.left_eq, Reading.left_eq]
        omega

theorem lineTurn_turned [Reading S I] (hO : Catches I O) {stop : Bool} {l : Lines} {c : Ctx}
    (hc : I.sound c) (h : ¬ StuckLine c) (hq : ¬ LineMeets (Overruns I) c) :
    Turned O c (lineTurn stop l c) := by
  have hline := parseHdrLine_taken hc h hq
  unfold lineTurn
  cases hr : parseHdrLine c with
  | ok hdr c1 =>
      rw [hr] at hline
      exact afterLine_turned hO hline.1 hline.2 _
  | error e c1 =>
      rw [hr] at hline
      obtain ⟨hfails, hleaves⟩ := hline
      have hout : e ≠ .syntaxErr → O.fails e ∧ Leaves O c c1 := fun hne =>
        ⟨hO.fails e hfails hne, (hO.sound c1).mpr hleaves.1, by
          rw [hO.left, hO.left]
          exact hleaves.2⟩
      cases e with
      | syntaxErr => exact afterError_turned hO hleaves _
      | outOfBounds | diverges | assertion => exact hout (by decide)

theorem lineTurn_stuck {stop : Bool} (l : Lines) (c : Ctx) (hc : Sound S c) (h : StuckLine c) :
    Stuck .diverges (lineTurn stop) l c := by
  obtain ⟨c1, hr⟩ := parseHdrLine_hangs hc h
  have herr : lineTurn stop l c = .error .diverges c1 := by
    unfold lineTurn
    rw [hr]
  exact Stuck.of_error herr

/-- The loop over the lines comes to a stuck Retry-After header. -/
def StuckLines (stop : Bool) (c : Ctx) : Prop :=
  ∃ l c', Comes (lineTurn stop) Lines.empty c l c' ∧ StuckLine c'

theorem outer_left {c : Ctx} (hc : Sound S c) : (outer S).left c < c.sc.fuel :=
  show (input S).left c < c.sc.fuel from left_lt_fuel hc

/-- **The loop over the header lines** hangs if and only if it comes to a stuck line. -/
theorem parseLines_hangs_iff {stop : Bool} {c : Ctx} (hc : Sound S c) :
    Hangs .diverges (parseLines stop Lines.empty) c ↔ StuckLines stop c :=
  Consume.loop_hangs_iff outer_not_diverges
    (fun _ _ hs hb => lineTurn_turned outer_catches hs hb not_lineMeets) lineTurn_stuck hc
    (outer_left hc)

theorem parseLines_kept {stop : Bool} {c : Ctx} (hc : Sound S c) (h : ¬ StuckLines stop c) :
    Kept (outer S) c (parseLines stop Lines.empty c) := by
  unfold parseLines scanLoop
  exact Consume.loop_kept (fun _ _ hs hb => lineTurn_turned outer_catches hs hb not_lineMeets) hc
    (outer_left hc) h

end SipParser
