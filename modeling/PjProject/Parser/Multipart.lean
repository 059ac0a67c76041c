import PjProject.Parser.Inside

set_option autoImplicit false

/-! # Multipart bodies stay inside their memory

`pjsip_multipart_parse` finds its way through the body by looking a character or two back and forth.
It does so safely except where the boundary is to be guessed and no line starts with dashes, where a
delimiter stands directly at the start of a part (the newline in front of it is taken for the end of the
part, whose length is negative), and where the header section of a part is not
(`multipartSafe_iff`).
-/

namespace SipParser

open Scan Outcome
open Consume (Kept Turned Leaves Comes)
open Sdp (Str str)

variable {mem delim : Str} {ctype : MediaType}

/-! ## The boundary -/

/-- A line starts with two dashes. -/
def DashesAt (mem : Str) (p : Nat) : Prop :=
  mem.getD p 0 = 45 ∧ mem.getD (p + 1) 0 = 45 ∧ (p = 0 ∨ mem.getD (p - 1) 0 = 10)

/-- The Content-Type header gives the boundary, or the body has a line to guess it from. -/
def HasBoundary (mem : Str) (ctype : MediaType) : Prop :=
  ctypeBoundary ctype ≠ [] ∨ ∃ p, DashesAt mem p

theorem DashesAt.lt {p : Nat} (h : DashesAt mem p) : p + 1 < mem.length :=
  lt_of_char_ne (by rw [h.2.1]; decide)

/-- The search finds the first such line, or leaves the body. -/
theorem findDashes_spec (fuel : Nat) : ∀ p, p ≤ mem.length + 1 → mem.length + 1 < fuel + p →
    (findDashes mem fuel p = .error .outOfBounds ∧ ∀ t, p ≤ t → ¬ DashesAt mem t) ∨
      ∃ t, p ≤ t ∧ DashesAt mem t ∧ findDashes mem fuel p = .ok (t + 2) := by
  induction fuel with
  | zero =>
      intro p hp hf
      omega
  | succ fuel ih =>
      intro p hp hf
      have hrun := runTo_spec (q := fun c => c != 45) (le_refl mem.length) (bodyFuel mem) p hp
        (by unfold bodyFuel; omega)
      rw [findDashes]
      cases hr : runTo mem mem.length (fun c => c != 45) (bodyFuel mem) p with
      | error e =>
          rw [hr] at hrun
          obtain ⟨rfl, hlt⟩ : e = .outOfBounds ∧ mem.length < p := hrun
          exact Or.inl ⟨rfl, fun t ht h => by have := h.lt; omega⟩
      | ok t =>
          rw [hr] at hrun
          obtain ⟨hpt, htle, -, -, hpass⟩ := hrun
          -- no dashes stand where the search has passed
          have hnone : ∀ u, p ≤ u → u < t → ¬ DashesAt mem u := by
            intro u hu hut h
            have hne := hpass u hu hut
            rw [h.1] at hne
            cases hne
          have hnext : ∀ {x : Except Stop Nat}, ¬ DashesAt mem t →
              ((x = .error .outOfBounds ∧ ∀ u, t + 1 ≤ u → ¬ DashesAt mem u) ∨
                ∃ u, t + 1 ≤ u ∧ DashesAt mem u ∧ x = .ok (u + 2)) →
              (x = .error .outOfBounds ∧ ∀ u, p ≤ u → ¬ DashesAt mem u) ∨
                ∃ u, p ≤ u ∧ DashesAt mem u ∧ x = .ok (u + 2) := by
            rintro x ht (⟨hx, hall⟩ | ⟨u, hu, h⟩)
            · refine Or.inl ⟨hx, fun u hu => ?_⟩
              rcases Nat.lt_trichotomy u t with hlt | rfl | hgt
              · exact hnone u hu hlt
              · exact ht
              · exact hall u hgt
            · exact Or.inr ⟨u, by omega, h⟩
          rw [ok_bind]
          by_cases hend : t = mem.length
          · rw [if_pos hend]
            exact hnext (fun h => by have := h.lt; omega) (ih (t + 1) (by omega) (by omega))
          rw [if_neg hend, byteAt_ok (show t + 1 ≤ mem.length by omega), ok_bind]
          have h45 : mem.getD t 0 = 45 := by
            have h := (runTo_inside (q := fun c => c != 45) (le_refl mem.length)
              (show p ≤ mem.length by omega)).and (Holds.of_eq hr rfl : Holds (· = t) Never _)
            rw [hr] at h
            simpa using h.1.2.2 hend
          split
          · rename_i hdash
            exact Or.inr ⟨t, hpt, ⟨h45, hdash.1, hdash.2⟩, rfl⟩
          · rename_i hdash
            exact hnext (fun h => hdash ⟨h.2.1, h.2.2⟩) (ih (t + 1) (by omega) (by omega))

/-- The boundary is found inside the body if there is one. -/
theorem findBoundary_ok_iff :
    (∃ boundary, findBoundary mem ctype = .ok boundary) ↔ HasBoundary mem ctype := by
  unfold findBoundary HasBoundary
  by_cases hct : ctypeBoundary ctype ≠ []
  · rw [if_pos hct]
    exact iff_of_true ⟨_, rfl⟩ (Or.inl hct)
  rw [if_neg hct, or_iff_right hct]
  have hfound := @findDashes_spec mem (bodyFuel mem) 0 (by omega) (by unfold bodyFuel; omega)
  rcases hfound with ⟨hr, hnone⟩ | ⟨t, -, ht, hr⟩
  · rw [hr]
    refine iff_of_false ?_ ?_
    · rintro ⟨b, h⟩
      cases h
    · rintro ⟨p, hp⟩
      exact hnone p (Nat.zero_le p) hp
  · rw [hr, ok_bind]
    refine iff_of_true ?_ ⟨t, ht⟩
    have hlt := ht.lt
    by_cases hend : t + 2 = mem.length
    · rw [if_pos hend]
      exact ⟨_, rfl⟩
    · rw [if_neg hend]
      have hrun := runTo_inside (q := fun c => !isSpaceC c) (le_refl mem.length)
        (show t + 2 ≤ mem.length by omega)
      cases hq : runTo mem mem.length (fun c => !isSpaceC c) (bodyFuel mem) (t + 2) with
      | error e =>
          rw [hq] at hrun
          exact hrun.elim
      | ok q => exact ⟨_, rfl⟩

/-! ## A part -/

theorem headerArea_inside {start stop : Nat} (hle : stop ≤ mem.length) (fuel : Nat) :
    ∀ (endHdr : Option Nat) (p : Nat), p ≤ stop → mem.length + 1 < fuel + p →
      Holds (fun _ => True) Never (headerArea mem start stop fuel endHdr p) := by
  induction fuel with
  | zero =>
      intro endHdr p hp hf
      omega
  | succ fuel ih =>
      intro endHdr p hp hf
      rw [headerArea]
      refine Holds.bind (runTo_inside hle hp) fun t ht => ?_
      refine Holds.ite (fun _ => trivial) fun hne => Holds.ite (fun _ => trivial) fun _ =>
        Holds.ite (fun _ => ?_) fun _ => Holds.ite (fun _ => trivial) fun _ => ?_
      · exact ih (some stop) (t + 1) (by omega) (by omega)
      · exact ih endHdr (t + 1) (by omega) (by omega)

/-- No quote ends a header section. -/
def NoQuote (mem : Str) (start e : Nat) : Prop :=
  e ≤ start ∨ e ≤ mem.length ∧ mem.getD e 0 ≠ 34 ∧ mem.getD e 0 ≠ 41

/-- A part stops at a newline or at a dash. -/
theorem noQuote_trim {boundary : Str} {p next : Nat} (start : Nat)
    (hdelim : delim = [45, 45] ++ boundary) (h : strstrFrom mem delim p = some next) :
    NoQuote mem start (trimByte mem 13 (trimByte mem 10 next)) := by
  obtain ⟨hle, hbyte⟩ := stopByte_trim hdelim h
  refine Or.inr ⟨hle, ?_⟩
  rcases hbyte with hb | hb | hb <;> rw [hb] <;> decide

/-- The header section of the part from `start` to `stop` comes to an open quote. -/
def OpenPart (mem : Str) (start stop : Nat) : Prop :=
  ∃ e b, headerArea mem start stop (bodyFuel mem) none start = .ok (some e, b) ∧ start < e ∧
    OpenHeaders (mem.drop start) (e - start) false

theorem noQuote_area {start stop e b : Nat} (hstop : NoQuote mem start stop)
    (hstart : start ≤ mem.length) (hle : stop ≤ mem.length)
    (h : headerArea mem start stop (bodyFuel mem) none start = .ok (some e, b)) :
    NoQuote mem start e := by
  have hends := headerArea_ends (P := NoQuote mem start) (Or.inl le_rfl) hstop (fun t ht hnl => ?_)
    hle (bodyFuel mem) none start (by omega) (by unfold bodyFuel; omega) fun e he => by cases he
  · rw [h] at hends
    exact hends e rfl
  · refine Or.inr ⟨ht, ?_⟩
    rcases hnl with h | h <;> rw [h] <;> decide

theorem parseMultipartPart_overreads {start stop : Nat} (hends : EndsHeaders mem start stop)
    (hstart : start ≤ mem.length) (hle : stop ≤ mem.length) (h : OpenPart mem start stop) :
    parseMultipartPart mem start stop ctype = .error .outOfBounds := by
  obtain ⟨e, b, harea, hlt, hopen⟩ := h
  have hin := headerArea_holds hends hle hstart
  rw [harea] at hin
  rcases hin e rfl with hge | ⟨hin, hblank⟩
  · omega
  let S : Scope := ⟨mem.drop start, e - start, False, by rw [List.length_drop]; omega,
    by rw [getD_drop hlt.le]; exact hblank, False.elim⟩
  have hheaders := pjsipParseHeadersIn_overreads S hopen
  unfold parseMultipartPart partHeaders
  rw [harea, ok_bind]
  dsimp only
  rw [if_pos hlt, hheaders]
  rfl

/-- A part whose length is not negative is read inside the body. -/
theorem parseMultipartPart_ok {start stop : Nat} (hends : EndsHeaders mem start stop)
    (hquote : NoQuote mem start stop) (hpos : start ≤ stop) (hle : stop ≤ mem.length)
    (hstuck : ¬ StuckPart mem start stop) (hopen : ¬ OpenPart mem start stop) :
    ∃ part, parseMultipartPart mem start stop ctype = .ok part := by
  have hstart : start ≤ mem.length := by omega
  have harea : Holds (fun _ => True) Never
      (headerArea mem start stop (bodyFuel mem) none start) :=
    headerArea_inside hle (bodyFuel mem) none start hpos (by unfold bodyFuel; omega)
  have hin := headerArea_holds hends hle hstart
  unfold parseMultipartPart
  cases hr : headerArea mem start stop (bodyFuel mem) none start with
  | error e =>
      rw [hr] at harea
      exact harea.elim
  | ok area =>
      obtain ⟨endHdr, b⟩ := area
      rw [hr] at hin
      rw [ok_bind]
      unfold partHeaders
      cases endHdr with
      | none => exact ⟨_, rfl⟩
      | some e =>
          dsimp only
          by_cases hlt : start < e
          · rw [if_pos hlt]
            rcases hin e rfl with hge | ⟨hein, hblank⟩
            · omega
            rcases noQuote_area hquote hstart hle hr with hge | ⟨-, hborder⟩
            · omega
            let S : Scope := ⟨mem.drop start, e - start, False, by rw [List.length_drop]; omega,
              by rw [getD_drop hlt.le]; exact hblank, False.elim⟩
            have hborder' : S.mem.getD S.lim 0 ≠ 34 ∧ S.mem.getD S.lim 0 ≠ 41 := by
              show (mem.drop start).getD (e - start) 0 ≠ 34 ∧ (mem.drop start).getD (e - start) 0 ≠ 41
              rw [getD_drop hlt.le]
              exact hborder
            obtain ⟨r, hheaders⟩ := pjsipParseHeadersIn_inside S hborder'
              (fun h => hstuck ⟨e, b, hr, hlt, h⟩) fun h => hopen ⟨e, b, hr, hlt, h⟩
            have hheaders' : pjsipParseHeadersIn (mem.drop start) (e - start) false = .ok r := hheaders
            rw [hheaders']
            exact ⟨_, rfl⟩
          · rw [if_neg hlt]
            exact ⟨_, rfl⟩

/-- The length of a part is negative if and only if the delimiter behind it is where it starts. -/
theorem start_le_trim_iff {start next : Nat} (hpos : 0 < start) (hle : start ≤ next)
    (hnl : mem.getD (start - 1) 0 = 10) :
    start ≤ trimByte mem 13 (trimByte mem 10 next) ↔ next ≠ start := by
  have hdec : ∀ c e, trimByte mem c e ≤ e := by
    intro c e
    unfold trimByte
    split <;> omega
  constructor
  · rintro hstop rfl
    have h10 : trimByte mem 10 next = next - 1 := by
      rw [trimByte, if_pos hnl]
    have h13 := hdec 13 (trimByte mem 10 next)
    omega
  · intro hne
    have h10 : start ≤ trimByte mem 10 next := by
      unfold trimByte
      split <;> omega
    generalize trimByte mem 10 next = e at h10 ⊢
    unfold trimByte
    split
    · rename_i h13
      -- the byte in front of the part is no carriage return
      by_contra hlt
      obtain rfl : e = start := by omega
      rw [hnl] at h13
      cases h13
    · exact h10

/-! ## The delimiters that the loop comes to -/

/-- The loop over the parts comes to the delimiter at `p`. -/
def ReachesDelim (mem : Str) (ctype : MediaType) (delim : Str) (p : Nat) : Prop :=
  ∃ boundary curptr l, findBoundary mem ctype = .ok (some boundary) ∧
    delim = [45, 45] ++ boundary ∧ strstrFrom mem delim 0 = some curptr ∧
    Comes (partTurn mem delim ctype) [] curptr l p

/-- Behind the delimiter at `p` there is a part that starts at `start`, and `next` is the delimiter
behind it. -/
def PartAt (mem delim : Str) (p start next : Nat) : Prop :=
  afterDelim mem (p + delim.length) = .ok (.part start) ∧ strstrFrom mem delim start = some next

/-- `parse_multipart_part` is called for the part from `start` to `stop`. -/
def FormsPart (mem : Str) (ctype : MediaType) (start stop : Nat) : Prop :=
  ∃ delim p next, ReachesDelim mem ctype delim p ∧ PartAt mem delim p start next ∧
    stop = trimByte mem 13 (trimByte mem 10 next)

/-- The part behind the delimiter at `p` is no obstacle: it does not start with a delimiter, and its
header section has neither a stuck line nor an open quote. -/
def PartClear (mem delim : Str) (p : Nat) : Prop :=
  ∀ start next, PartAt mem delim p start next →
    next ≠ start ∧ ¬ StuckPart mem start (trimByte mem 13 (trimByte mem 10 next)) ∧
      ¬ OpenPart mem start (trimByte mem 13 (trimByte mem 10 next))

/-- The positions of delimiters in the body, where nothing may fail. -/
def partsInside (mem delim : Str) : Consume.Input Stop Nat where
  sound p := p + delim.length ≤ mem.length
  left p := mem.length - p
  fails _ := False

/-- What the parser is to do with the body: it ends, reads inside the body, and forms no part of a
negative length. The length of a body is formed only if it is positive. -/
structure MultipartSafe (mem : Str) (ctype : MediaType) : Prop where
  terminates : Terminates (pjsipMultipartParse mem ctype)
  inside : pjsipMultipartParse mem ctype ≠ .error .outOfBounds
  lengths : ∀ start stop, FormsPart mem ctype start stop → start ≤ stop

/-- A turn at a part that is no obstacle stays inside the body. -/
theorem partTurn_inside {boundary : Str} {l : List BodyPart} {p : Nat}
    (hdelim : delim = [45, 45] ++ boundary) (hp : p + delim.length ≤ mem.length)
    (h : PartClear mem delim p) : Turned (partsInside mem delim) p (partTurn mem delim ctype l p) := by
  have hafter := afterDelim_holds hp
  have hkeep : Leaves (partsInside mem delim) p p := Leaves.refl hp
  unfold partTurn
  cases hr : afterDelim mem (p + delim.length) with
  | error e =>
      rw [hr] at hafter
      exact hafter.elim
  | ok d =>
      rw [hr] at hafter
      cases d with
      | closing => exact hkeep
      | bad => exact hkeep
      | part start =>
          obtain ⟨hlt, hstart, hnl⟩ := hafter start rfl
          dsimp only
          cases hs : strstrFrom mem delim start with
          | none => exact hkeep
          | some next =>
              obtain ⟨hends, hle⟩ := endsHeaders_trim start hdelim hs
              obtain ⟨hge, hlen, -⟩ := strstrFrom_spec hs
              obtain ⟨hne, hstuck, hopen⟩ := h start next ⟨hr, hs⟩
              have hpos := (start_le_trim_iff (by omega) hge hnl).mpr hne
              obtain ⟨part, hm⟩ : ∃ part, parseMultipartPart mem start
                  (trimByte mem 13 (trimByte mem 10 next)) ctype = .ok part :=
                parseMultipartPart_ok hends (noQuote_trim start hdelim hs) hpos hle hstuck hopen
              dsimp only
              rw [hm]
              exact ⟨hlen, show mem.length - next < mem.length - p by omega⟩

/-- The turn at a delimiter with a part behind it that is not parsed. -/
theorem partTurn_error {l : List BodyPart} {p start next : Nat} {e : Stop}
    (h : PartAt mem delim p start next)
    (hm : parseMultipartPart mem start (trimByte mem 13 (trimByte mem 10 next)) ctype = .error e) :
    partTurn mem delim ctype l p = .error e p := by
  simp only [partTurn, h.1, h.2, hm]

/-- The loop goes on only behind a part. -/
theorem partAt_of_goesOn {l l' : List BodyPart} {p p' : Nat}
    (h : partTurn mem delim ctype l p = .ok (.inl l') p') :
    ∃ start, PartAt mem delim p start p' := by
  unfold partTurn at h
  cases hr : afterDelim mem (p + delim.length) with
  | error e =>
      rw [hr] at h
      cases h
  | ok d =>
      rw [hr] at h
      cases d with
      | closing => cases h
      | bad => cases h
      | part start =>
          dsimp only at h
          cases hs : strstrFrom mem delim start with
          | none =>
              rw [hs] at h
              cases h
          | some next =>
              rw [hs] at h
              dsimp only at h
              cases hm : parseMultipartPart mem start
                  (trimByte mem 13 (trimByte mem 10 next)) ctype with
              | error e =>
                  rw [hm] at h
                  cases h
              | ok part =>
                  rw [hm] at h
                  cases h
                  exact ⟨start, hr, hs⟩

theorem partTurn_goesOn {l l' : List BodyPart} {p p' : Nat} (hp : (parts mem delim).sound p)
    (h : partTurn mem delim ctype l p = .ok (.inl l') p') :
    (parts mem delim).sound p' ∧ (parts mem delim).left p' < (parts mem delim).left p := by
  obtain ⟨start, hafter, hs⟩ := partAt_of_goesOn h
  have hlt := afterDelim_holds hp
  rw [hafter] at hlt
  obtain ⟨hlt, -, -⟩ := hlt start rfl
  obtain ⟨hge, hlen, -⟩ := strstrFrom_spec hs
  have hp' : p + delim.length ≤ mem.length := hp
  exact ⟨hlen, show mem.length - p' < mem.length - p by omega⟩

/-- A delimiter that the loop comes to is inside the body. -/
theorem ReachesDelim.inside {p : Nat} (h : ReachesDelim mem ctype delim p) :
    p + delim.length ≤ mem.length := by
  obtain ⟨boundary, curptr, l, -, -, hs, hcomes⟩ := h
  have hcur : (parts mem delim).sound curptr := (strstrFrom_spec hs).2.1
  exact Consume.sound_of_comes (I := parts mem delim) (fun _ _ _ _ => partTurn_goesOn) hcur hcomes

/-- The start of a part that is reached. -/
theorem ReachesDelim.start {p start next : Nat} (h : ReachesDelim mem ctype delim p)
    (hpart : PartAt mem delim p start next) :
    0 < start ∧ start ≤ next ∧ mem.getD (start - 1) 0 = 10 := by
  have hlt := afterDelim_holds h.inside
  rw [hpart.1] at hlt
  obtain ⟨hlt, -, hnl⟩ := hlt start rfl
  exact ⟨by omega, (strstrFrom_spec hpart.2).1, hnl⟩

theorem stuckBody_iff :
    StuckBody mem ctype ↔ ∃ delim p, ReachesDelim mem ctype delim p ∧ StuckPartAt mem delim p := by
  constructor
  · rintro ⟨boundary, curptr, l, p, hb, hs, hcomes, hstuck⟩
    exact ⟨_, p, ⟨boundary, curptr, l, hb, rfl, hs, hcomes⟩, hstuck⟩
  · rintro ⟨delim, p, ⟨boundary, curptr, l, hb, rfl, hs, hcomes⟩, hstuck⟩
    exact ⟨boundary, curptr, l, p, hb, hs, hcomes, hstuck⟩

/-! ## The whole body -/

/-- Without a boundary the search for one leaves the body. -/
theorem parse_of_no_boundary (hmem : mem ≠ []) (h : ¬ HasBoundary mem ctype) :
    pjsipMultipartParse mem ctype = .error .outOfBounds := by
  have hholds := @findBoundary_holds mem ctype
  unfold pjsipMultipartParse
  rw [if_neg hmem]
  cases hr : findBoundary mem ctype with
  | ok boundary => exact absurd (findBoundary_ok_iff.mp ⟨boundary, hr⟩) h
  | error e =>
      rw [hr] at hholds
      obtain rfl : e = .outOfBounds := hholds
      rfl

/-- An open quote in the header section of a part leads out of the body. -/
theorem parse_of_open {p start next : Nat} (hmem : mem ≠ [])
    (h : ReachesDelim mem ctype delim p) (hpart : PartAt mem delim p start next)
    (hopen : OpenPart mem start (trimByte mem 13 (trimByte mem 10 next))) :
    pjsipMultipartParse mem ctype = .error .outOfBounds := by
  have hin := afterDelim_holds h.inside
  rw [hpart.1] at hin
  obtain ⟨-, hstart, -⟩ := hin start rfl
  obtain ⟨boundary, curptr, l, hb, hdelim, hs, hcomes⟩ := h
  obtain ⟨hends, hle⟩ := endsHeaders_trim start hdelim hpart.2
  have hturn : partTurn mem delim ctype l p = .error .outOfBounds p :=
    partTurn_error hpart (parseMultipartPart_overreads hends hstart hle hopen)
  have hcur : (parts mem delim).sound curptr := (strstrFrom_spec hs).2.1
  have hloop : parseParts mem delim ctype [] curptr = .error .outOfBounds p :=
    Consume.loop_error_of_comes (I := parts mem delim) (fun _ _ _ _ => partTurn_goesOn) hcur
      (show mem.length - curptr < mem.length + 2 by omega) hcomes hturn
  subst hdelim
  unfold pjsipMultipartParse
  rw [if_neg hmem, hb, ok_bind]
  dsimp only
  rw [hs]
  dsimp only
  rw [hloop]

/-- Without an obstacle the body is parsed. -/
theorem parse_of_clear (hmem : mem ≠ []) (hboundary : HasBoundary mem ctype)
    (h : ∀ delim p, ReachesDelim mem ctype delim p → PartClear mem delim p) :
    ∃ body, pjsipMultipartParse mem ctype = .ok body := by
  obtain ⟨found, hb⟩ := findBoundary_ok_iff.mpr hboundary
  unfold pjsipMultipartParse
  rw [if_neg hmem, hb, ok_bind]
  cases found with
  | none => exact ⟨none, rfl⟩
  | some boundary =>
      dsimp only
      cases hs : strstrFrom mem ([45, 45] ++ boundary) 0 with
      | none => exact ⟨none, rfl⟩
      | some curptr =>
          have hcur : (partsInside mem ([45, 45] ++ boundary)).sound curptr :=
            (strstrFrom_spec hs).2.1
          have hkept : Kept (partsInside mem ([45, 45] ++ boundary)) curptr
              (parseParts mem ([45, 45] ++ boundary) ctype [] curptr) := by
            have hturn : ∀ l p, (partsInside mem ([45, 45] ++ boundary)).sound p →
                ¬ ¬ PartClear mem ([45, 45] ++ boundary) p →
                Turned (partsInside mem ([45, 45] ++ boundary)) p
                  (partTurn mem ([45, 45] ++ boundary) ctype l p) :=
              fun l p hp hclear => partTurn_inside rfl hp (not_not.mp hclear)
            refine Consume.loop_kept hturn hcur
              (show mem.length - curptr < mem.length + 2 by omega) ?_
            rintro ⟨l, p, hcomes, hbad⟩
            exact hbad (h _ p ⟨boundary, curptr, l, hb, rfl, hs, hcomes⟩)
          dsimp only
          cases hr : parseParts mem ([45, 45] ++ boundary) ctype [] curptr with
          | ok l p => exact ⟨_, rfl⟩
          | error e p =>
              rw [hr] at hkept
              exact hkept.1.elim

/-- **Multipart parsing is safe** exactly if there is a boundary and, behind every delimiter that the
loop comes to, the part does not start with the next one and has a header section without a stuck line
or an open quote. -/
theorem multipartSafe_iff (mem : Str) (ctype : MediaType) :
    MultipartSafe mem ctype ↔ mem = [] ∨ HasBoundary mem ctype ∧
      ∀ delim p, ReachesDelim mem ctype delim p → PartClear mem delim p := by
  constructor
  · intro hsafe
    refine or_iff_not_imp_left.mpr fun hmem => ⟨?_, fun delim p hreach start next hpart => ?_⟩
    · by_contra hnone
      exact hsafe.inside (parse_of_no_boundary hmem hnone)
    · obtain ⟨hpos, hle, hnl⟩ := hreach.start hpart
      refine ⟨?_, fun hstuck => ?_, fun hopen => ?_⟩
      · exact (start_le_trim_iff hpos hle hnl).mp
          (hsafe.lengths start _ ⟨delim, p, next, hreach, hpart, rfl⟩)
      · refine (pjsipMultipartParse_terminates_iff hmem ctype).mp hsafe.terminates ?_
        exact stuckBody_iff.mpr ⟨delim, p, hreach, start, next, hpart.1, hpart.2, hstuck⟩
      · exact hsafe.inside (parse_of_open hmem hreach hpart hopen)
  · rintro (rfl | ⟨hboundary, hclear⟩)
    · -- an empty body is refused
      have herr : pjsipMultipartParse [] ctype = .error .assertion := rfl
      refine ⟨?_, ?_, ?_⟩
      · rw [Terminates, herr]
        decide
      · rw [herr]
        decide
      · rintro start stop ⟨delim, p, next, hreach, -, -⟩
        have hin := hreach.inside
        obtain ⟨boundary, curptr, l, -, rfl, -, -⟩ := hreach
        simp at hin
    · have hlengths : ∀ start stop, FormsPart mem ctype start stop → start ≤ stop := by
        rintro start stop ⟨delim, p, next, hreach, hpart, rfl⟩
        obtain ⟨hpos, hle, hnl⟩ := hreach.start hpart
        exact (start_le_trim_iff hpos hle hnl).mpr (hclear delim p hreach start next hpart).1
      have hout : ∀ e, pjsipMultipartParse mem ctype = .error e → e = .assertion := by
        intro e he
        by_cases hmem : mem = []
        · subst hmem
          cases he
          rfl
        · obtain ⟨body, hr⟩ := parse_of_clear hmem hboundary hclear
          rw [hr] at he
          cases he
      exact ⟨fun h => Stop.noConfusion (hout _ h), fun h => Stop.noConfusion (hout _ h), hlengths⟩

/-- `--b`, a newline, and `--b--`: the second delimiter is directly at the start of the part. -/
def emptyPart : Str := str ['-', '-', 'b', '\n', '-', '-', 'b', '-', '-']

/-- `multipart/mixed;boundary=b`. -/
def mixedB : MediaType where
  type := str ['m', 'u', 'l', 't', 'i', 'p', 'a', 'r', 't']
  subtype := str ['m', 'i', 'x', 'e', 'd']
  param := [⟨str ['b', 'o', 'u', 'n', 'd', 'a', 'r', 'y'], str ['b']⟩]

/-- The part gets the length -1, and the search for its header section leaves the body. -/
theorem not_multipartSafe_emptyPart : ¬ MultipartSafe emptyPart mixedB := by
  intro h
  exact h.inside (by decide)

end SipParser
