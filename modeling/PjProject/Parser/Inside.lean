import PjProject.Parser.Termination

set_option autoImplicit false

/-! # When the header section of a part is read inside the memory

The scanner of such a section ends at a newline, in front of the memory's end, and most operations do
not look at that end. A parameter value or a host in brackets that is not closed leads behind it, and
there the next display name of a Contact or a Route header may start with a quote that nothing closes
(`OpenQuote`): the search for its end has passed the end of the scanner, and leaves the memory.
This is the only way out of the memory (`pjsipParseHeadersIn_inside`).
-/

namespace SipParser

open Scan Outcome
open Consume (Safe Eats Turn Turned Kept Taken Leaves Comes Hangs)
open Sdp (Str)

variable {S : Scope} {α : Type} {c : Ctx}

/-- The call leaves the memory. -/
abbrev Overreads (x : Parser α) (c : Ctx) : Prop := Hangs .outOfBounds x c

/-! ## The way out -/

theorem curChar_bind_overreads {f : UInt8 → Parser α} (hc : Sound S c)
    (h : Overreads (f c.cur) c) : Overreads (curChar >>= f) c := Hangs.after hc.curChar h

theorem quote_overreads (hc : Sound S c) (h : OpenQuote c) : Overreads (scanGetQuote 34 34) c :=
  ⟨c, scanGetQuote_open (hc.buf ▸ hc.cursor) h⟩

theorem intParseNameAddr_overreads (hc : Sound S c) (h : OpenQuote c) :
    Overreads intParseNameAddr c := by
  refine Hangs.bind (curChar_bind_overreads hc ?_)
  rw [if_pos h.2.1]
  exact (quote_overreads hc h).bind

theorem intParseUriOrNameAddr_overreads (opt : UriOption) (hc : Sound S c)
    (h : BehindWs OpenQuote c) : Overreads (intParseUriOrNameAddr opt) c := by
  obtain ⟨c1, hws, hopen⟩ := h
  have hkept : Kept (input S) c (scanSkipWhitespace c) := scanSkipWhitespace_safe c hc
  have hc1 : Sound S c1 := hkept.sound_of_ok hws
  refine Hangs.after hws (curChar_bind_overreads hc1 ?_)
  rw [if_pos (Or.inl hopen.2.1)]
  exact (intParseNameAddr_overreads hc1 hopen).bind

/-- A list leaves the memory if the loop comes to an element that does. -/
theorem commaList_overreads {elem : Parser α} {P : Ctx → Prop} (hsafe : Safe (input S) elem)
    (helem : ∀ c', Sound S c' → P c' → Overreads elem c') (hc : Sound S c) (h : ElemAt elem P c) :
    Overreads (commaList elem) c := by
  obtain ⟨l, c', hcomes, hp⟩ := h
  have hbody : ∀ l c1 l' c2, Sound S c1 → commaTurn elem l c1 = .ok (.inl l') c2 →
      Sound S c2 ∧ (input S).left c2 < (input S).left c1 := by
    intro l c1 l' c2 hc1 hr
    have hturn : Turned (input S) c1 (commaTurn elem l c1) := commaTurn_turned (hsafe c1 hc1)
    rw [hr] at hturn
    exact hturn
  have hc' : Sound S c' := Consume.sound_of_comes (I := input S) hbody hc hcomes
  obtain ⟨c2, hr⟩ := helem c' hc' hp
  refine ⟨c2, ?_⟩
  show Consume.loop (fun c => c.sc.fuel) .diverges (commaTurn elem) [] c = _
  refine Consume.loop_error_of_comes (I := input S) hbody hc (left_lt_fuel hc) hcomes ?_
  simp only [commaTurn, Bind.bind, EStateM.bind, hr]

theorem parseContact_safe : Safe (input S) parseContact := fun _ hc =>
  parseContact_kept hc fun ⟨_, _, _, hover⟩ => not_overruns hover

theorem parseHdrRrRoute_safe : Safe (input S) parseHdrRrRoute := fun _ hc =>
  (intParseNameAddr_kept hc not_overruns).bind_safe fun _ => paramList_safe.bind fun _ => Safe.pure _

theorem parseContact_overreads (hc : Sound S c) (h : c.cur ≠ 42 ∧ BehindWs OpenQuote c) :
    Overreads parseContact c := by
  refine curChar_bind_overreads hc ?_
  rw [if_neg h.1]
  exact (intParseUriOrNameAddr_overreads _ hc h.2).bind

theorem parseHdrFromto_overreads (hc : Sound S c) (h : BehindWs OpenQuote c) :
    Overreads parseHdrFromto c := (intParseUriOrNameAddr_overreads _ hc h).bind

theorem routes_overreads (hc : Sound S c) (h : ElemAt parseHdrRrRoute OpenQuote c) :
    Overreads (commaList parseHdrRrRoute) c :=
  commaList_overreads parseHdrRrRoute_safe
    (fun _ hc' hopen => (intParseNameAddr_overreads hc' hopen).bind) hc h

theorem parseHdrAuth_overreads {η : Type} (removeQuote : Bool) (add : η → Param → η) (zero : η)
    (hdr : Str → η → Hdr) (hc : Sound S c) (h : OpenQuote c) :
    Overreads (parseHdrAuth removeQuote add zero hdr) c := by
  refine Hangs.bind (curChar_bind_overreads hc ?_)
  rw [if_pos h.2.1]
  exact (quote_overreads hc h).bind

theorem handler_overreads (handler : Handler) (hc : Sound S c) (h : handler.Meets OpenQuote c) :
    Overreads handler.parse c := by
  cases handler with
  | contact =>
      exact Hangs.bind (commaList_overreads parseContact_safe
        (fun _ hc' hstart => parseContact_overreads hc' hstart) hc h)
  | hfrom | hto => exact (parseHdrFromto_overreads hc h).bind
  | rr | route => exact (routes_overreads hc h).bind
  | authorization | proxyAuthorization | wwwAuthenticate | proxyAuthenticate =>
      exact parseHdrAuth_overreads _ _ _ _ hc h
  | _ => exact h.elim

/-- The loop over the lines comes to a line whose handler comes to an open quote. -/
def OpenLines (stop : Bool) (c : Ctx) : Prop :=
  ∃ l c', Comes (lineTurn stop) Lines.empty c l c' ∧ LineMeets OpenQuote c'

theorem lineTurn_overreads {stop : Bool} (l : Lines) (hc : Sound S c) (h : LineMeets OpenQuote c) :
    ∃ c1, lineTurn stop l c = .error .outOfBounds c1 := by
  obtain ⟨hname, c1, handler, hn, hf, hm⟩ := h
  have hname' : Kept (input S) c (parseHname c) := parseHname_eats.safe c hc
  have hvalue : Overreads (parseHvalue hname) c1 := by
    unfold parseHvalue
    rw [hf]
    exact handler_overreads handler (hname'.sound_of_ok hn) hm
  obtain ⟨c2, hr⟩ : Overreads parseHdrLine c := Hangs.after hn hvalue
  refine ⟨c2, ?_⟩
  unfold lineTurn
  rw [hr]

theorem lineTurn_goesOn {stop : Bool} {l l' : Lines} {c1 : Ctx} (hc : Sound S c)
    (h : lineTurn stop l c = .ok (.inl l') c1) :
    Sound S c1 ∧ (outer S).left c1 < (outer S).left c := by
  -- the line is no stuck one, since the turn ends
  have hstuck : ¬ StuckLine c := by
    intro hs
    obtain ⟨c2, hr⟩ := parseHdrLine_hangs hc hs
    rw [lineTurn, hr] at h
    cases h
  have hturn := @lineTurn_turned S (input S) (outer S) _ outer_catches stop l c hc hstuck not_lineMeets
  rw [h] at hturn
  exact hturn

theorem parseLines_overreads {stop : Bool} (hc : Sound S c) (h : OpenLines stop c) :
    Overreads (parseLines stop Lines.empty) c := by
  obtain ⟨l, c', hcomes, hopen⟩ := h
  have hbody : ∀ l c1 l' c2, (outer S).sound c1 → lineTurn stop l c1 = .ok (.inl l') c2 →
      (outer S).sound c2 ∧ (outer S).left c2 < (outer S).left c1 :=
    fun l c1 l' c2 hc1 hr => lineTurn_goesOn hc1 hr
  have hc' : Sound S c' := Consume.sound_of_comes (I := outer S) hbody hc hcomes
  obtain ⟨c2, hr⟩ := lineTurn_overreads l hc' hopen
  refine ⟨c2, ?_⟩
  show Consume.loop (fun c => c.sc.fuel) .diverges (lineTurn stop) Lines.empty c = _
  exact Consume.loop_error_of_comes (I := outer S) hbody hc (outer_left hc) hcomes hr

/-! ## No other way -/

/-- The input of a header section, where no access outside the memory is allowed. -/
def inside (S : Scope) : Consume.Input Stop Ctx where
  sound c := Sound S c ∧ c.rdata = none
  left c := S.mem.length - c.sc.curptr
  fails e := e = .syntaxErr

/-- The same behind the handler of syntax errors. -/
def insideLines (S : Scope) : Consume.Input Stop Ctx where
  sound c := Sound S c ∧ c.rdata = none
  left c := S.mem.length - c.sc.curptr
  fails _ := False

theorem insideLines_catches : Catches (inside S) (insideLines S) where
  sound _ := Iff.rfl
  left _ := rfl
  fails _ h hne := hne h

theorem inside_reading (h : S.mem.getD S.lim 0 ≠ 34 ∧ S.mem.getD S.lim 0 ≠ 41) :
    Reading S (inside S) where
  sound hc := hc.1
  moved hc hm := ⟨hc.1.moved hm, hc.2⟩
  informed f hc := by
    have hnone : Option.map f _ = none := (congrArg (Option.map f) hc.2).trans rfl
    exact ⟨⟨hc.1.buf, hc.1.lim, hc.1.cursor, fun _ => hnone⟩, hnone⟩
  named _ hc := ⟨⟨hc.1.buf, hc.1.lim, hc.1.cursor, hc.1.alone⟩, hc.2⟩
  left_eq _ := rfl
  fails_syntaxErr := rfl
  alone hc := Or.inr hc.2
  border := Or.inr h

theorem parseLines_inside (hborder : S.mem.getD S.lim 0 ≠ 34 ∧ S.mem.getD S.lim 0 ≠ 41)
    {stop : Bool} (hc : (inside S).sound c) (hstuck : ¬ StuckLines stop c)
    (hopen : ¬ OpenLines stop c) : Kept (insideLines S) c (parseLines stop Lines.empty c) := by
  have hreading := inside_reading hborder
  have hleft : (inside S).left c < c.sc.fuel := left_lt_fuel hc
  have hbody : ∀ l c1, (insideLines S).sound c1 → ¬ (StuckLine c1 ∨ LineMeets OpenQuote c1) →
      Turned (insideLines S) c1 (lineTurn stop l c1) := by
    intro l c1 hc1 hb
    rw [not_or] at hb
    exact lineTurn_turned insideLines_catches hc1 hb.1 fun hm => hb.2 (hm.mono fun _ h => h.2.2)
  show Kept (insideLines S) c
    (Consume.loop (fun c => c.sc.fuel) .diverges (lineTurn stop) Lines.empty c)
  refine Consume.loop_kept hbody hc hleft ?_
  rintro ⟨l, c', hcomes, hs | ho⟩
  · exact hstuck ⟨l, c', hcomes, hs⟩
  · exact hopen ⟨l, c', hcomes, ho⟩

/-! ## A header section -/

/-- The header section comes to an open quote. -/
def OpenHeaders (mem : Str) (size : Nat) (stop : Bool) : Prop :=
  ∃ c, initCtx mem size none = .ok c ∧ OpenLines stop c

theorem pjsipParseHeadersIn_overreads (S : Scope) {stop : Bool} (h : OpenHeaders S.mem S.lim stop) :
    pjsipParseHeadersIn S.mem S.lim stop = .error .outOfBounds := by
  obtain ⟨c, hinit, hopen⟩ := h
  obtain ⟨c', hinit', hbuf, hlim, hcur, hrdata⟩ := initCtx_eq S.mem S.lim none
  rw [hinit] at hinit'
  cases hinit'
  have hc : Sound S c := ⟨hbuf, hlim, hcur, fun _ => hrdata⟩
  obtain ⟨c1, hr⟩ := parseLines_overreads hc hopen
  unfold pjsipParseHeadersIn
  rw [hinit, ok_bind, hr]

/-- **Header sections are read inside the memory**, and to their end, where the loop over the lines
comes neither to a stuck line nor to an open quote. -/
theorem pjsipParseHeadersIn_inside (S : Scope)
    (hborder : S.mem.getD S.lim 0 ≠ 34 ∧ S.mem.getD S.lim 0 ≠ 41) {stop : Bool}
    (hstuck : ¬ StuckHeaders S.mem S.lim stop) (hopen : ¬ OpenHeaders S.mem S.lim stop) :
    ∃ r, pjsipParseHeadersIn S.mem S.lim stop = .ok r := by
  obtain ⟨c, hinit, hbuf, hlim, hcur, hrdata⟩ := initCtx_eq S.mem S.lim none
  have hreading := inside_reading hborder
  have hc : (inside S).sound c := ⟨⟨hbuf, hlim, hcur, fun _ => hrdata⟩, hrdata⟩
  have hlines := parseLines_inside hborder hc (fun h => hstuck ⟨c, hinit, h⟩)
    fun h => hopen ⟨c, hinit, h⟩
  unfold pjsipParseHeadersIn
  rw [hinit, ok_bind]
  cases hr : parseLines stop Lines.empty c with
  | error e c1 =>
      rw [hr] at hlines
      exact hlines.1.elim
  | ok r c1 =>
      rw [hr] at hlines
      cases r with
      | thrown l => exact ⟨_, rfl⟩
      | «section» l =>
          -- the empty line at the end is no error either
          have hempty : Kept (inside S) c1 (eatEmptyLine c1) := eatEmptyLine_safe c1 hlines.1
          dsimp only
          unfold attempt
          cases he : eatEmptyLine c1 with
          | ok u c2 => exact ⟨_, rfl⟩
          | error e c2 =>
              rw [he] at hempty
              obtain rfl : e = .syntaxErr := hempty.1
              exact ⟨_, rfl⟩

end SipParser
