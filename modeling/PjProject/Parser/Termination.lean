import PjProject.Parser.Stuck

set_option autoImplicit false

/-! # When parsing terminates

`pjsip_parse_uri` always ends. `pjsip_parse_headers`, `pjsip_parse_msg` and `pjsip_parse_rdata` end if
and only if the loop over the header lines does not come to a Retry-After header that it stays in;
the header sections of the parts of a multipart body count too.
-/

namespace SipParser

open Scan Outcome
open Consume (Safe Eats Turn Kept Taken Turned Leaves Comes Hangs Stuck)
open Sdp (Str str)

variable {S : Scope} {α : Type}

/-- A call does not run for ever: it returns, or it comes to an access outside the memory, where nothing
is said of what follows. -/
def Terminates (x : Except Stop α) : Prop := x ≠ .error .diverges

/-! ## Setting up -/

theorem attempt_holds {x : Parser α} {c : Ctx} (h : Kept (input S) c (x c)) :
    Holds (fun r => Sound S r.2) (fun e => e = .outOfBounds ∧ ¬ S.strict) (attempt x c) := by
  unfold attempt
  cases hr : x c with
  | ok a c1 =>
      rw [hr] at h
      exact h.1
  | error e c1 =>
      rw [hr] at h
      rcases h.1 with rfl | ⟨rfl, hstrict⟩
      · exact h.2.1
      · exact ⟨rfl, hstrict⟩

/-- A context is set up, with the cursor behind the white space. -/
theorem initCtx_eq (mem : Str) (lim : Nat) (rdata : Option MsgInfo) :
    ∃ c, initCtx mem lim rdata = .ok c ∧ c.sc.buf = mem ∧ c.lim = lim ∧
      c.sc.curptr ≤ mem.length ∧ c.rdata = rdata := by
  have hskip : ∀ sc : PjScanner, sc.buf = mem → sc.curptr = 0 →
      Holds (fun sc' => Advanced sc sc') Never (pjScanSkipWhitespace sc) := fun sc _ hcur =>
    skipWhitespace_spec (by omega)
  have h := hskip { buf := mem, curptr := 0, line := 1, startLine := 0, skipWs := 3 } rfl rfl
  have hinit : pjScanInit mem 3 = pjScanSkipWhitespace
      { buf := mem, curptr := 0, line := 1, startLine := 0, skipWs := 3 } := rfl
  unfold initCtx
  rw [hinit]
  cases hr : pjScanSkipWhitespace
      { buf := mem, curptr := 0, line := 1, startLine := 0, skipWs := 3 } with
  | error e =>
      rw [hr] at h
      exact h.elim
  | ok sc =>
      rw [hr] at h
      have hadv : Advanced _ sc := h
      exact ⟨_, rfl, hadv.buf, rfl, hadv.inside, rfl⟩

/-! ## URIs -/

/-- The scope of a whole string. -/
def Scope.all (mem : Str) : Scope where
  mem := mem
  lim := mem.length
  strict := True
  inside := le_rfl
  blank := by
    rw [List.getD_eq_getElem?_getD, List.getElem?_eq_none le_rfl]
    decide
  whole _ := rfl

theorem pjsipParseUri_ok (buf : Str) (opt : UriOption) : ∃ uri, pjsipParseUri buf opt = .ok uri := by
  have hinit : pjScanInit buf 0 =
      .ok { buf := buf, curptr := 0, line := 1, startLine := 0, skipWs := 0 } := rfl
  unfold pjsipParseUri
  rw [hinit]
  simp only [ok_bind]
  generalize hc : Ctx.mk _ buf.length none [] = c
  have hs : Sound (Scope.all buf) c := by
    subst hc
    exact ⟨rfl, rfl, Nat.zero_le _, fun _ => rfl⟩
  have hkept : Kept (input (Scope.all buf)) c (intParseUriOrNameAddr opt c) :=
    intParseUriOrNameAddr_kept opt hs fun ⟨_, _, hover⟩ => not_overruns hover
  have h := attempt_holds hkept
  cases hr : attempt (intParseUriOrNameAddr opt) c with
  | error e =>
      rw [hr] at h
      exact absurd trivial h.2
  | ok r =>
      rw [hr] at h
      have h1 : Sound (Scope.all buf) r.2 := h
      have hcur : r.2.sc.curptr ≤ r.2.sc.buf.length := h1.buf ▸ h1.cursor
      rw [ok_bind, charAt_ok hcur, ok_bind]
      split
      · exact ⟨r.1, rfl⟩
      · exact ⟨none, rfl⟩

/-! ## Headers -/

/-- The loop over the header lines of `pjsip_parse_headers` comes to a stuck line. -/
def StuckHeaders (mem : Str) (size : Nat) (stop : Bool) : Prop :=
  ∃ c, initCtx mem size none = .ok c ∧ StuckLines stop c

theorem eatEmptyLine_safe {I : Consume.Input Stop Ctx} [Reading S I] : Safe I eatEmptyLine :=
  scanIsEof_safe.bind fun _ => curChar_safe.bind fun _ =>
    Safe.ite scanGetNewline_eats.safe (Safe.pure _)

/-- Without a stuck line `pjsip_parse_headers` returns, or runs out of the memory. -/
theorem pjsipParseHeadersIn_holds (S : Scope) {stop : Bool} (h : ¬ StuckHeaders S.mem S.lim stop) :
    Holds (fun _ => True) (fun e => e = .outOfBounds ∧ ¬ S.strict)
      (pjsipParseHeadersIn S.mem S.lim stop) := by
  obtain ⟨c, hinit, hbuf, hlim, hcur, hrdata⟩ := initCtx_eq S.mem S.lim none
  have hc : Sound S c := ⟨hbuf, hlim, hcur, fun _ => hrdata⟩
  have hlines := parseLines_kept hc fun hstuck => h ⟨c, hinit, hstuck⟩
  unfold pjsipParseHeadersIn
  rw [hinit, ok_bind]
  cases hr : parseLines stop Lines.empty c with
  | error e c1 =>
      rw [hr] at hlines
      exact hlines.1
  | ok r c1 =>
      rw [hr] at hlines
      cases r with
      | thrown l => trivial
      | «section» l =>
          exact Holds.bind (attempt_holds (eatEmptyLine_safe c1 hlines.1)) fun _ _ => trivial

theorem pjsipParseHeadersIn_stuck {mem : Str} {size : Nat} {stop : Bool}
    (hsize : size ≤ mem.length) (hblank : isSpace (mem.getD size 0) = false)
    (h : StuckHeaders mem size stop) : pjsipParseHeadersIn mem size stop = .error .diverges := by
  obtain ⟨c, hinit, hstuck⟩ := h
  obtain ⟨c', hinit', hbuf, hlim, hcur, hrdata⟩ := initCtx_eq mem size none
  rw [hinit] at hinit'
  cases hinit'
  let S : Scope := ⟨mem, size, False, hsize, hblank, False.elim⟩
  have hc : Sound S c := ⟨hbuf, hlim, hcur, fun _ => hrdata⟩
  obtain ⟨c1, hr⟩ := (parseLines_hangs_iff hc).mpr hstuck
  unfold pjsipParseHeadersIn
  rw [hinit, ok_bind, hr]

/-! ## Multipart bodies -/

section Bodies

variable {mem delim : Str}

/-- The other outcome of a search in a body is an access behind it. -/
def Outside (e : Stop) : Prop := e = .outOfBounds

theorem byteAt_ok {p : Nat} (h : p ≤ mem.length) : byteAt mem p = .ok (mem.getD p 0) := by
  rw [byteAt, if_pos h]

theorem runTo_spec {stop : Nat} {q : UInt8 → Bool} (hstop : stop ≤ mem.length) (fuel : Nat) :
    ∀ p, p ≤ mem.length + 1 → mem.length + 1 < fuel + p →
      Holds (fun t => p ≤ t ∧ t ≤ mem.length ∧ (t ≠ stop → q (mem.getD t 0) = false) ∧
          (p ≤ stop → t ≤ stop) ∧ ∀ u, p ≤ u → u < t → q (mem.getD u 0) = true)
        (fun e => e = .outOfBounds ∧ stop < p) (runTo mem stop q fuel p) := by
  induction fuel with
  | zero =>
      intro p hp hf
      omega
  | succ fuel ih =>
      intro p hp hf
      rw [runTo]
      refine Holds.ite (fun hne => ?_) fun hne => ?_
      · rcases Nat.lt_or_ge mem.length p with hout | hin
        · rw [byteAt, if_neg (by omega)]
          exact ⟨rfl, by omega⟩
        · rw [byteAt_ok hin, ok_bind]
          refine Holds.ite (fun hq => ?_) fun hq => ?_
          · have h := ih (p + 1) (by omega) (by omega)
            refine (h.mono fun t ht => ⟨by omega, ht.2.1, ht.2.2.1, fun hle => ht.2.2.2.1 (by omega),
              fun u hu hut => ?_⟩).imp_error fun e he => ⟨he.1, by omega⟩
            rcases Nat.eq_or_lt_of_le hu with rfl | hlt
            · exact hq
            · exact ht.2.2.2.2 u hlt hut
          · exact ⟨le_rfl, hin, fun _ => by simpa using hq, fun h => h, fun u h1 h2 => by omega⟩
      · have heq : p = stop := by simpa using hne
        exact ⟨le_rfl, by omega, fun h => absurd heq h, fun h => h, fun u h1 h2 => by omega⟩

/-- A search from a position in the body ends there, or runs out of the body. -/
theorem runTo_holds {stop p : Nat} {q : UInt8 → Bool} (hstop : stop ≤ mem.length)
    (hp : p ≤ mem.length + 1) :
    Holds (fun t => p ≤ t ∧ t ≤ mem.length ∧ (t ≠ stop → q (mem.getD t 0) = false)) Outside
      (runTo mem stop q (bodyFuel mem) p) :=
  ((runTo_spec hstop (bodyFuel mem) p hp (by unfold bodyFuel; omega)).mono
    fun _ ht => ⟨ht.1, ht.2.1, ht.2.2.1⟩).imp_error fun _ he => he.1

/-- One that starts before the position it stops at does not get behind that position. -/
theorem runTo_inside {stop p : Nat} {q : UInt8 → Bool} (hstop : stop ≤ mem.length)
    (hp : p ≤ stop) :
    Holds (fun t => p ≤ t ∧ t ≤ stop ∧ (t ≠ stop → q (mem.getD t 0) = false)) Never
      (runTo mem stop q (bodyFuel mem) p) :=
  ((runTo_spec hstop (bodyFuel mem) p (by omega) (by unfold bodyFuel; omega)).mono
    fun _ ht => ⟨ht.1, ht.2.2.2.1 hp, ht.2.2.1⟩).imp_error fun _ he => absurd hp (by omega)

theorem findDashes_holds (fuel : Nat) : ∀ p, p ≤ mem.length + 1 → mem.length + 1 < fuel + p →
    Holds (· ≤ mem.length) Outside (findDashes mem fuel p) := by
  induction fuel with
  | zero =>
      intro p hp hf
      omega
  | succ fuel ih =>
      intro p hp hf
      rw [findDashes]
      refine Holds.bind (runTo_holds le_rfl hp) fun t ht => ?_
      refine Holds.ite (fun hend => ih (t + 1) (by omega) (by omega)) fun hend => ?_
      have hlt : t + 1 ≤ mem.length := by omega
      rw [byteAt_ok hlt, ok_bind]
      refine Holds.ite (fun hdash => ?_) fun _ => ih (t + 1) (by omega) (by omega)
      have hlt' : t + 1 < mem.length := lt_of_char_ne (by rw [hdash.1]; decide)
      exact Holds.pure hlt'

theorem findBoundary_holds (ctype : MediaType) :
    Holds (fun _ => True) Outside (findBoundary mem ctype) := by
  unfold findBoundary
  refine Holds.ite (fun _ => trivial) fun _ => ?_
  refine Holds.bind (findDashes_holds (bodyFuel mem) 0 (by omega) (by unfold bodyFuel; omega))
    fun p hp => Holds.ite (fun _ => trivial) fun _ => ?_
  exact Holds.bind (runTo_holds le_rfl (by omega)) fun q _ => trivial

theorem strstrFrom_spec {p s : Nat} (h : strstrFrom mem delim p = some s) :
    p ≤ s ∧ s + delim.length ≤ mem.length ∧ strncmpEq (mem.drop s) delim = true := by
  unfold strstrFrom at h
  have hmem := List.mem_of_find?_eq_some h
  have hfound := List.find?_some h
  obtain ⟨i, -, rfl⟩ := List.mem_map.mp hmem
  rw [Bool.and_eq_true, decide_eq_true_eq] at hfound
  exact ⟨by omega, hfound.1, hfound.2⟩

/-- What stands behind a delimiter is read inside the body; a part starts behind a newline. -/
theorem afterDelim_holds {p : Nat} (hp : p ≤ mem.length) :
    Holds (fun d => ∀ start, d = .part start →
        p < start ∧ start ≤ mem.length ∧ mem.getD (start - 1) 0 = 10) Never
      (afterDelim mem p) := by
  unfold afterDelim
  rw [byteAt_ok hp, ok_bind]
  refine Holds.ite (fun _ => fun start h => by cases h) fun _ => ?_
  refine Holds.bind (runTo_inside le_rfl hp) fun t ht => ?_
  rw [byteAt_ok ht.2.1, ok_bind]
  have h1 : t ≤ (if mem.getD t 0 = 13 then t + 1 else t) ∧
      (if mem.getD t 0 = 13 then t + 1 else t) ≤ mem.length := by
    split
    · rename_i h13
      have hlt : t < mem.length := lt_of_char_ne (by rw [h13]; decide)
      omega
    · exact ⟨le_rfl, ht.2.1⟩
  dsimp only
  generalize (if mem.getD t 0 = 13 then t + 1 else t) = t1 at h1 ⊢
  rw [byteAt_ok h1.2, ok_bind]
  refine Holds.ite (fun _ => fun start h => by cases h) fun hnl => ?_
  have h10 : mem.getD t1 0 = 10 := not_not.mp hnl
  have hlt : t1 < mem.length := lt_of_char_ne (by rw [h10]; decide)
  intro start h
  cases h
  exact ⟨by omega, by omega, h10⟩

/-- Where the header section of a part may end: inside the body, at a byte that is no space. -/
def EndsHeaders (mem : Str) (start e : Nat) : Prop :=
  e ≤ start ∨ e ≤ mem.length ∧ isSpace (mem.getD e 0) = false

/-- A header section ends where the part starts or stops, or at a newline. -/
theorem headerArea_ends {start stop : Nat} {P : Nat → Prop} (hstart : P start) (hstop : P stop)
    (hnewline : ∀ t, t ≤ mem.length → mem.getD t 0 = 10 ∨ mem.getD t 0 = 13 → P t)
    (hle : stop ≤ mem.length) (fuel : Nat) : ∀ (endHdr : Option Nat) (p : Nat),
      p ≤ mem.length + 1 → mem.length + 1 < fuel + p → (∀ e, endHdr = some e → P e) →
      Holds (fun r => ∀ e, r.1 = some e → P e) Outside
        (headerArea mem start stop fuel endHdr p) := by
  induction fuel with
  | zero =>
      intro endHdr p hp hf _
      omega
  | succ fuel ih =>
      intro endHdr p hp hf hend
      rw [headerArea]
      refine Holds.bind (runTo_holds hle hp) fun t ht => ?_
      refine Holds.ite (fun _ => hend) fun hne => ?_
      have h10 : mem.getD t 0 = 10 := by simpa using ht.2.2 hne
      refine Holds.ite (fun _ => ?_) fun _ => Holds.ite (fun _ => ?_) fun _ =>
        Holds.ite (fun _ => ?_) fun _ => ?_
      · intro e he
        cases he
        exact hstart
      · refine ih (some stop) (t + 1) (by omega) (by omega) fun e he => ?_
        cases he
        exact hstop
      · intro e he
        cases he
        split
        · rename_i h13
          exact hnewline (t - 1) (by omega) (Or.inr h13)
        · exact hnewline t ht.2.1 (Or.inl h10)
      · exact ih endHdr (t + 1) (by omega) (by omega) hend

theorem headerArea_holds {start stop : Nat} (hstop : EndsHeaders mem start stop)
    (hle : stop ≤ mem.length) (hstart : start ≤ mem.length) :
    Holds (fun r => ∀ e, r.1 = some e → EndsHeaders mem start e) Outside
      (headerArea mem start stop (bodyFuel mem) none start) := by
  refine headerArea_ends (Or.inl le_rfl) hstop (fun t ht hnl => Or.inr ⟨ht, ?_⟩) hle (bodyFuel mem)
    none start (by omega) (by unfold bodyFuel; omega) fun e he => by cases he
  rcases hnl with h | h <;> rw [h] <;> decide

theorem getD_drop {start e : Nat} (h : start ≤ e) :
    (mem.drop start).getD (e - start) 0 = mem.getD e 0 := by
  rw [List.getD_eq_getElem?_getD, List.getD_eq_getElem?_getD, List.getElem?_drop]
  congr 2
  omega

/-- The headers of the part from `start` to `stop` have a stuck line. -/
def StuckPart (mem : Str) (start stop : Nat) : Prop :=
  ∃ e b, headerArea mem start stop (bodyFuel mem) none start = .ok (some e, b) ∧ start < e ∧
    StuckHeaders (mem.drop start) (e - start) false

theorem parseMultipartPart_holds {start stop : Nat} (pct : MediaType)
    (hstop : EndsHeaders mem start stop) (hstart : start ≤ mem.length) (hle : stop ≤ mem.length)
    (h : ¬ StuckPart mem start stop) :
    Holds (fun _ => True) Outside (parseMultipartPart mem start stop pct) := by
  have harea := headerArea_holds hstop hle hstart
  unfold parseMultipartPart
  cases hr : headerArea mem start stop (bodyFuel mem) none start with
  | error e =>
      rw [hr] at harea
      exact harea
  | ok area =>
      rw [hr] at harea
      obtain ⟨endHdr, b⟩ := area
      rw [ok_bind]
      refine Holds.bind (Q := fun _ => True) ?_ fun hdr _ => trivial
      unfold partHeaders
      cases endHdr with
      | none => trivial
      | some e =>
          refine Holds.ite (fun hlt => ?_) fun _ => trivial
          rcases harea e rfl with hge | ⟨hin, hblank⟩
          · omega
          let S : Scope := ⟨mem.drop start, e - start, False, by rw [List.length_drop]; omega,
            by rw [getD_drop hlt.le]; exact hblank, False.elim⟩
          have hstuck : ¬ StuckHeaders S.mem S.lim false := fun hstuck => h ⟨e, b, hr, hlt, hstuck⟩
          have hheaders := pjsipParseHeadersIn_holds S hstuck
          refine Holds.bind (Q := fun _ => True) ?_ fun r _ => trivial
          exact hheaders.imp_error fun e he => he.1

theorem parseMultipartPart_stuck {start stop : Nat} {pct : MediaType}
    (hstop : EndsHeaders mem start stop) (hstart : start ≤ mem.length) (hle : stop ≤ mem.length)
    (h : StuckPart mem start stop) : parseMultipartPart mem start stop pct = .error .diverges := by
  obtain ⟨e, b, harea, hlt, hstuck⟩ := h
  have hends := headerArea_holds hstop hle hstart
  rw [harea] at hends
  rcases hends e rfl with hge | ⟨hin, hblank⟩
  · omega
  have hsize : e - start ≤ (mem.drop start).length := by
    rw [List.length_drop]
    omega
  have hheaders := pjsipParseHeadersIn_stuck hsize (by rw [getD_drop hlt.le]; exact hblank) hstuck
  unfold parseMultipartPart partHeaders
  rw [harea, ok_bind]
  dsimp only
  rw [if_pos hlt, hheaders]
  rfl

/-! The loop over the parts. -/

/-- The loop over the parts is at a delimiter behind which a part has a stuck line. -/
def StuckPartAt (mem delim : Str) (p : Nat) : Prop :=
  ∃ start next, afterDelim mem (p + delim.length) = .ok (.part start) ∧
    strstrFrom mem delim start = some next ∧
    StuckPart mem start (trimByte mem 13 (trimByte mem 10 next))

/-- The positions of delimiters in the body. -/
def parts (mem delim : Str) : Consume.Input Stop Nat where
  sound p := p + delim.length ≤ mem.length
  left p := mem.length - p
  fails := Outside

theorem trimByte_spec (c : UInt8) (e : Nat) :
    trimByte mem c e = e ∨ trimByte mem c e ≤ e ∧ mem.getD (trimByte mem c e) 0 = c := by
  unfold trimByte
  split
  · rename_i h
    exact Or.inr ⟨by omega, h⟩
  · exact Or.inl rfl

/-- A part stops at a newline or at the dash of a delimiter. -/
theorem stopByte_trim {boundary : Str} {p next : Nat} (hdelim : delim = [45, 45] ++ boundary)
    (h : strstrFrom mem delim p = some next) :
    trimByte mem 13 (trimByte mem 10 next) ≤ mem.length ∧
      (mem.getD (trimByte mem 13 (trimByte mem 10 next)) 0 = 45 ∨
        mem.getD (trimByte mem 13 (trimByte mem 10 next)) 0 = 10 ∨
        mem.getD (trimByte mem 13 (trimByte mem 10 next)) 0 = 13) := by
  obtain ⟨-, hlen, hcmp⟩ := strstrFrom_spec h
  have hnext : mem.getD next 0 = 45 := by
    rw [List.getD_eq_getElem?_getD, ← List.head?_drop]
    subst hdelim
    cases hd : mem.drop next with
    | nil =>
        rw [hd] at hcmp
        cases hcmp
    | cons a t =>
        rw [hd] at hcmp
        have h2 := (Bool.and_eq_true _ _).mp hcmp
        exact beq_iff_eq.mp h2.1
  have h10 : trimByte mem 10 next = next ∨
      trimByte mem 10 next ≤ next ∧ mem.getD (trimByte mem 10 next) 0 = 10 := trimByte_spec 10 next
  have h13 := @trimByte_spec mem 13 (trimByte mem 10 next)
  refine ⟨by omega, ?_⟩
  rcases h13 with h13 | ⟨hle, h13⟩
  · rw [h13]
    rcases h10 with h10 | ⟨hle10, h10⟩
    · rw [h10]
      exact Or.inl hnext
    · exact Or.inr (Or.inl h10)
  · exact Or.inr (Or.inr h13)

/-- A part ends in front of a newline or of a delimiter. -/
theorem endsHeaders_trim {boundary : Str} {p next : Nat} (start : Nat)
    (hdelim : delim = [45, 45] ++ boundary) (h : strstrFrom mem delim p = some next) :
    EndsHeaders mem start (trimByte mem 13 (trimByte mem 10 next)) ∧
      trimByte mem 13 (trimByte mem 10 next) ≤ mem.length := by
  obtain ⟨hle, hbyte⟩ := stopByte_trim hdelim h
  refine ⟨Or.inr ⟨hle, ?_⟩, hle⟩
  rcases hbyte with hb | hb | hb <;> rw [hb] <;> decide

theorem partTurn_turned {boundary : Str} {ctype : MediaType} {l : List BodyPart} {p : Nat}
    (hdelim : delim = [45, 45] ++ boundary) (hp : p + delim.length ≤ mem.length)
    (h : ¬ StuckPartAt mem delim p) :
    Turned (parts mem delim) p (partTurn mem delim ctype l p) := by
  have hafter := afterDelim_holds hp
  have hkeep : Leaves (parts mem delim) p p := Leaves.refl hp
  unfold partTurn
  cases hr : afterDelim mem (p + delim.length) with
  | error e =>
      rw [hr] at hafter
      exact hafter.elim
  | ok d =>
      rw [hr] at hafter
      cases d with
      | closing => exact hkeep
      | bad => exact hkeep
      | part start =>
          obtain ⟨hlt, hstart, -⟩ := hafter start rfl
          dsimp only
          cases hs : strstrFrom mem delim start with
          | none => exact hkeep
          | some next =>
              obtain ⟨hends, hle⟩ := endsHeaders_trim start hdelim hs
              obtain ⟨hge, hlen, -⟩ := strstrFrom_spec hs
              have hpart := parseMultipartPart_holds ctype hends hstart hle
                fun hstuck => h ⟨start, next, hr, hs, hstuck⟩
              dsimp only
              cases hm : parseMultipartPart mem start
                  (trimByte mem 13 (trimByte mem 10 next)) ctype with
              | error e =>
                  rw [hm] at hpart
                  exact ⟨hpart, hkeep⟩
              | ok part =>
                  exact ⟨hlen, show mem.length - next < mem.length - p by omega⟩

theorem partTurn_stuck {boundary : Str} {ctype : MediaType} (hdelim : delim = [45, 45] ++ boundary)
    (l : List BodyPart) (p : Nat) (hp : p + delim.length ≤ mem.length)
    (h : StuckPartAt mem delim p) : Stuck .diverges (partTurn mem delim ctype) l p := by
  obtain ⟨start, next, hr, hs, hstuck⟩ := h
  have hafter := afterDelim_holds hp
  rw [hr] at hafter
  obtain ⟨hlt, hstart, -⟩ := hafter start rfl
  obtain ⟨hends, hle⟩ := endsHeaders_trim start hdelim hs
  have hpart : parseMultipartPart mem start (trimByte mem 13 (trimByte mem 10 next)) ctype =
      .error .diverges := parseMultipartPart_stuck hends hstart hle hstuck
  have herr : partTurn mem delim ctype l p = .error .diverges p := by
    unfold partTurn
    rw [hr]
    dsimp only
    rw [hs]
    dsimp only
    rw [hpart]
  exact Stuck.of_error herr

/-- A part of the body has a stuck line. -/
def StuckBody (mem : Str) (ctype : MediaType) : Prop :=
  ∃ boundary curptr l p, findBoundary mem ctype = .ok (some boundary) ∧
    strstrFrom mem ([45, 45] ++ boundary) 0 = some curptr ∧
    Comes (partTurn mem ([45, 45] ++ boundary) ctype) [] curptr l p ∧
    StuckPartAt mem ([45, 45] ++ boundary) p

theorem parseParts_hangs_iff {boundary : Str} {ctype : MediaType} {curptr : Nat}
    (hdelim : delim = [45, 45] ++ boundary) (hcur : curptr + delim.length ≤ mem.length) :
    Hangs .diverges (parseParts mem delim ctype []) curptr ↔
      ∃ l p, Comes (partTurn mem delim ctype) [] curptr l p ∧ StuckPartAt mem delim p := by
  have hfails : ¬ (parts mem delim).fails .diverges := fun h => by cases h
  exact Consume.loop_hangs_iff hfails (fun _ _ hp h => partTurn_turned hdelim hp h)
    (fun l p hp h => partTurn_stuck hdelim l p hp h) hcur
    (show mem.length - curptr < mem.length + 2 by omega)

/-- **`pjsip_multipart_parse`** ends if and only if no part has a stuck line. -/
theorem pjsipMultipartParse_terminates_iff (hmem : mem ≠ []) (ctype : MediaType) :
    Terminates (pjsipMultipartParse mem ctype) ↔ ¬ StuckBody mem ctype := by
  have hb : Holds (fun _ => True) Outside (findBoundary mem ctype) := findBoundary_holds ctype
  unfold pjsipMultipartParse Terminates StuckBody
  rw [if_neg hmem]
  cases hr : findBoundary mem ctype with
  | error e =>
      rw [hr] at hb
      cases hb
      exact iff_of_true (fun h => by cases h) (by rintro ⟨b, c, l, p, h, -⟩; cases h)
  | ok boundary =>
      rw [ok_bind]
      cases boundary with
      | none => exact iff_of_true (fun h => by cases h) (by rintro ⟨b, c, l, p, h, -⟩; cases h)
      | some boundary =>
          dsimp only
          cases hs : strstrFrom mem ([45, 45] ++ boundary) 0 with
          | none =>
              refine iff_of_true (fun h => by cases h) ?_
              rintro ⟨b, c, l, p, hb, hc, -⟩
              cases hb
              rw [hs] at hc
              cases hc
          | some curptr =>
              have hiff : Hangs .diverges (parseParts mem ([45, 45] ++ boundary) ctype []) curptr ↔ _ :=
                parseParts_hangs_iff rfl (strstrFrom_spec hs).2.1
              refine not_congr ⟨fun h => ?_, ?_⟩
              · -- what the call returns is what the loop ends with
                cases hp : parseParts mem ([45, 45] ++ boundary) ctype [] curptr with
                | ok l p =>
                    dsimp only at h
                    rw [hp] at h
                    cases h
                | error e p =>
                    dsimp only at h
                    rw [hp] at h
                    cases h
                    obtain ⟨l, p', hcomes, hstuck⟩ := hiff.mp ⟨p, hp⟩
                    exact ⟨boundary, curptr, l, p', rfl, hs, hcomes, hstuck⟩
              · rintro ⟨b, c, l, p, hb, hc, hcomes, hstuck⟩
                cases hb
                rw [hs] at hc
                cases hc
                obtain ⟨p', hp⟩ := hiff.mpr ⟨l, p, hcomes, hstuck⟩
                dsimp only
                rw [hp]

end Bodies

/-! ## Messages -/

/-- The message that starts at `c` has a stuck line, in its headers or in those of a part of its
body. -/
def StuckMsgAt (c : Ctx) : Prop :=
  ∃ isStatus c1 line c2, attempt msgKind c = .ok (some (some isStatus), c1) ∧
    attempt (if isStatus then intParseStatusLine else intParseReqLine) c1 = .ok (some line, c2) ∧
    (StuckLines false c2 ∨
      ∃ l c3 c4 media, parseLines false Lines.empty c2 = .ok (.section l) c3 ∧
        attempt eatEmptyLine c3 = .ok (some (), c4) ∧ l.ctypeHdr = some media ∧
        c4.sc.curptr ≠ c4.lim ∧ isWord media.type ['m', 'u', 'l', 't', 'i', 'p', 'a', 'r', 't'] ∧
        StuckBody (c4.sc.buf.drop c4.sc.curptr) media)

/-- The text of a message has a stuck line. -/
def StuckMsg (buf : Str) (rdata : Option MsgInfo) : Prop :=
  ∃ c, initCtx buf buf.length rdata = .ok c ∧ StuckMsgAt c

theorem skipLeadingNewlines_safe : Safe (input S) skipLeadingNewlines := by
  refine scanLoop_safe (fun _ => curChar_safe.turn_bind fun c => Turn.ite ?_ (Turn.stop _)) ()
  exact (scanGetNewline_eats.bind fun _ => Safe.pure _).turn

theorem msgKind_safe : Safe (input S) msgKind := by
  refine skipLeadingNewlines_safe.bind fun _ => scanIsEof_safe.bind fun eof =>
    Safe.ite (Safe.pure _) (Safe.bind ?_ fun isStatus => Safe.pure _)
  exact (scanPeek_safe alphaSpec).bind fun next => Safe.pure _

theorem intParseReqLine_safe : Safe (input S) intParseReqLine :=
  (scanGet_eats tokenSpec).safe.bind fun _ => (intParseUri_safe true).bind fun _ =>
    parseSipVersion_safe.bind fun _ => scanGetNewline_eats.safe.bind fun _ => Safe.pure _

theorem intParseStatusLine_safe : Safe (input S) intParseStatusLine := by
  refine parseSipVersion_safe.bind fun _ => (scanGet_eats digitSpec).safe.bind fun token =>
    Safe.bind ?_ fun reason => scanGetNewline_eats.safe.bind fun _ => Safe.pure _
  exact curChar_safe.bind fun c => Safe.ite (Safe.pure _) (scanGet_eats notNewline).safe

theorem startLine_safe (isStatus : Bool) :
    Safe (input S) (if isStatus then intParseStatusLine else intParseReqLine) :=
  Safe.ite intParseStatusLine_safe intParseReqLine_safe

/-- The body ends if and only if it is not a multipart body with a stuck line. -/
theorem parseBody_terminates_iff {c : Ctx} (hc : Sound S c) (hwhole : c.lim = c.sc.buf.length)
    (ctypeHdr : Option MediaType) :
    Terminates (parseBody ctypeHdr c) ↔
      ¬ ∃ media, ctypeHdr = some media ∧ c.sc.curptr ≠ c.lim ∧
        isWord media.type ['m', 'u', 'l', 't', 'i', 'p', 'a', 'r', 't'] ∧
        StuckBody (c.sc.buf.drop c.sc.curptr) media := by
  unfold parseBody
  cases ctypeHdr with
  | none => exact iff_of_true (fun h => by cases h) (by rintro ⟨m, h, -⟩; cases h)
  | some media =>
      by_cases hend : c.sc.curptr = c.lim
      · simp only [if_pos hend]
        exact iff_of_true (fun h => by cases h) (by rintro ⟨m, -, hne, -⟩; exact hne hend)
      by_cases hmulti : isWord media.type ['m', 'u', 'l', 't', 'i', 'p', 'a', 'r', 't'] = true
      · simp only [if_neg hend, if_pos hmulti]
        have hmem : c.sc.buf.drop c.sc.curptr ≠ [] := by
          intro hnil
          have hlen := congrArg List.length hnil
          have hcur := hc.cursor
          rw [← hc.buf] at hcur
          rw [List.length_drop, List.length_nil] at hlen
          omega
        rw [pjsipMultipartParse_terminates_iff hmem]
        refine not_congr ⟨fun h => ⟨media, rfl, hend, hmulti, h⟩, ?_⟩
        rintro ⟨m, hm, -, -, h⟩
        cases hm
        exact h
      · simp only [if_neg hend, if_neg hmulti]
        refine iff_of_true (fun h => by cases h) ?_
        rintro ⟨m, hm, -, hw, -⟩
        cases hm
        exact hmulti hw

theorem parseAfterStart_terminates_iff {isStatus : Bool} {line : StartLine} {c : Ctx}
    (hc : Sound S c) (hwhole : S.lim = S.mem.length) :
    Terminates (parseAfterStart isStatus line c) ↔ ¬ (StuckLines false c ∨
      ∃ l c3 c4 media, parseLines false Lines.empty c = .ok (.section l) c3 ∧
        attempt eatEmptyLine c3 = .ok (some (), c4) ∧ l.ctypeHdr = some media ∧
        c4.sc.curptr ≠ c4.lim ∧ isWord media.type ['m', 'u', 'l', 't', 'i', 'p', 'a', 'r', 't'] ∧
        StuckBody (c4.sc.buf.drop c4.sc.curptr) media) := by
  unfold parseAfterStart
  by_cases hstuck : StuckLines false c
  · obtain ⟨c3, hr⟩ := (parseLines_hangs_iff hc).mpr hstuck
    rw [hr]
    exact iff_of_false (fun h => h rfl) fun h => h (Or.inl hstuck)
  have hlines := parseLines_kept hc hstuck
  cases hr : parseLines false Lines.empty c with
  | error e c3 =>
      rw [hr] at hlines
      obtain ⟨⟨rfl, -⟩, -⟩ := hlines
      refine iff_of_true (fun h => by cases h) ?_
      rintro (h | ⟨l, c3, c4, m, h, -⟩)
      · exact hstuck h
      · cases h
  | ok r c3 =>
      rw [hr] at hlines
      cases r with
      | thrown l =>
          refine iff_of_true (fun h => by cases h) ?_
          rintro (h | ⟨l, c3, c4, m, h, -⟩)
          · exact hstuck h
          · cases h
      | «section» l =>
          have hattempt := attempt_holds (eatEmptyLine_safe c3 hlines.1)
          dsimp only
          cases ha : attempt eatEmptyLine c3 with
          | error e =>
              rw [ha] at hattempt
              obtain ⟨rfl, -⟩ := hattempt
              refine iff_of_true (fun h => by cases h) ?_
              rintro (h | ⟨l, c3, c4, m, h, h', -⟩)
              · exact hstuck h
              · cases h
                rw [ha] at h'
                cases h'
          | ok r =>
              rw [ha] at hattempt
              obtain ⟨eaten, c4⟩ := r
              have hc4 : Sound S c4 := hattempt
              rw [ok_bind]
              cases eaten with
              | none =>
                  refine iff_of_true (fun h => by cases h) ?_
                  rintro (h | ⟨l, c3, c4, m, h, h', -⟩)
                  · exact hstuck h
                  · cases h
                    rw [ha] at h'
                    cases h'
              | some u =>
                  have hbody := parseBody_terminates_iff hc4 (by rw [hc4.lim, hwhole, hc4.buf])
                    l.ctypeHdr
                  have hret : Terminates (do
                      let body ← parseBody l.ctypeHdr c4
                      return ({ msg := some ⟨line, l.hdr, body⟩, errList := l.errList,
                                rdata := c4.rdata } : Parsed)) ↔
                      Terminates (parseBody l.ctypeHdr c4) := by
                    unfold Terminates
                    cases parseBody l.ctypeHdr c4 with
                    | ok body => exact iff_of_true (fun h => by cases h) fun h => by cases h
                    | error e => exact not_congr ⟨fun h => by cases h; rfl, fun h => by cases h; rfl⟩
                  rw [hret, hbody]
                  refine not_congr ⟨?_, ?_⟩
                  · rintro ⟨m, h⟩
                    exact Or.inr ⟨l, c3, c4, m, rfl, ha, h⟩
                  · rintro (h | ⟨l', c3', c4', m, h, h', h''⟩)
                    · exact absurd h hstuck
                    · cases h
                      rw [ha] at h'
                      cases h'
                      exact ⟨m, h''⟩

theorem intParseMsg_terminates_iff {c : Ctx} (hc : Sound S c) (hwhole : S.lim = S.mem.length) :
    Terminates (intParseMsg c) ↔ ¬ StuckMsgAt c := by
  have hkind := attempt_holds (msgKind_safe c hc)
  unfold intParseMsg StuckMsgAt
  cases hk : attempt msgKind c with
  | error e =>
      rw [hk] at hkind
      obtain ⟨rfl, -⟩ := hkind
      refine iff_of_true (fun h => by cases h) ?_
      rintro ⟨b, c1, line, c2, h, -⟩
      cases h
  | ok r =>
      rw [hk] at hkind
      obtain ⟨kind, c1⟩ := r
      have hc1 : Sound S c1 := hkind
      rw [ok_bind]
      rcases kind with _ | _ | isStatus
      · exact iff_of_true (fun h => by cases h) (by rintro ⟨b, c1, line, c2, h, -⟩; cases h)
      · exact iff_of_true (fun h => by cases h) (by rintro ⟨b, c1, line, c2, h, -⟩; cases h)
      · have hline := attempt_holds (startLine_safe isStatus c1 hc1)
        dsimp only
        cases hl : attempt (if isStatus then intParseStatusLine else intParseReqLine) c1 with
        | error e =>
            rw [hl] at hline
            obtain ⟨rfl, -⟩ := hline
            refine iff_of_true (fun h => by cases h) ?_
            rintro ⟨b, c1', line, c2, h, h', -⟩
            cases h
            rw [hl] at h'
            cases h'
        | ok r =>
            rw [hl] at hline
            obtain ⟨line, c2⟩ := r
            have hc2 : Sound S c2 := hline
            rw [ok_bind]
            cases line with
            | none =>
                refine iff_of_true (fun h => by cases h) ?_
                rintro ⟨b, c1', line, c2, h, h', -⟩
                cases h
                rw [hl] at h'
                cases h'
            | some line =>
                refine (parseAfterStart_terminates_iff hc2 hwhole).trans (not_congr ⟨fun h => ?_, ?_⟩)
                · exact ⟨isStatus, c1, line, c2, rfl, hl, h⟩
                · rintro ⟨b, c1', line', c2', h, h', h''⟩
                  cases h
                  rw [hl] at h'
                  cases h'
                  exact h''

/-- The scope of the text of a message, without a word about `rdata`. -/
def Scope.msg (mem : Str) : Scope :=
  { Scope.all mem with strict := False, whole := False.elim }

theorem parseMsg_terminates_iff (buf : Str) (rdata : Option MsgInfo) :
    Terminates (do
      let c ← initCtx buf buf.length rdata
      intParseMsg c) ↔ ¬ StuckMsg buf rdata := by
  obtain ⟨c, hinit, hbuf, hlim, hcur, hrdata⟩ := initCtx_eq buf buf.length rdata
  have hc : Sound (Scope.msg buf) c := ⟨hbuf, hlim, hcur, False.elim⟩
  rw [hinit, ok_bind, intParseMsg_terminates_iff hc rfl]
  refine not_congr ⟨fun h => ⟨c, hinit, h⟩, ?_⟩
  rintro ⟨c', h, hstuck⟩
  rw [hinit] at h
  cases h
  exact hstuck

theorem pjsipParseHeaders_ok_iff (input : Str) (stop : Bool) :
    (∃ r, pjsipParseHeaders input stop = .ok r) ↔ ¬ StuckHeaders input input.length stop := by
  constructor
  · rintro ⟨r, h⟩ hstuck
    have herr : pjsipParseHeaders input stop = .error .diverges :=
      pjsipParseHeadersIn_stuck le_rfl (Scope.all input).blank hstuck
    rw [herr] at h
    cases h
  · intro h
    have hholds := pjsipParseHeadersIn_holds (Scope.all input) h
    cases hr : pjsipParseHeaders input stop with
    | ok r => exact ⟨r, rfl⟩
    | error e =>
        rw [show pjsipParseHeadersIn (Scope.all input).mem (Scope.all input).lim stop = .error e from
          hr] at hholds
        exact absurd trivial hholds.2

/-- **SIP parsing terminates**, except where a Retry-After header keeps it: a URI is always parsed,
and header lines and messages are unless the parser comes to a stuck line. -/
theorem sip_parsing_terminates_iff (buf : Str) :
    (∀ opt, ∃ uri, pjsipParseUri buf opt = .ok uri) ∧
      (∀ stop, (∃ r, pjsipParseHeaders buf stop = .ok r) ↔ ¬ StuckHeaders buf buf.length stop) ∧
      (Terminates (pjsipParseMsg buf) ↔ ¬ StuckMsg buf none) ∧
      ∀ rdata, Terminates (pjsipParseRdata buf rdata) ↔ ¬ StuckMsg buf (some rdata) :=
  ⟨pjsipParseUri_ok buf, pjsipParseHeaders_ok_iff buf, parseMsg_terminates_iff buf none,
    fun rdata => parseMsg_terminates_iff buf (some rdata)⟩

/-- A 503 response with `Retry-After:5 x`: the loop stays at the `x`. -/
theorem parse_msg_diverges :
    ¬ Terminates (pjsipParseMsg (str ['S', 'I', 'P', '/', '2', '.', '0', ' ', '5', '0', '3', ' ', 'B', '\r', '\n',
      'R', 'e', 't', 'r', 'y', '-', 'A', 'f', 't', 'e', 'r', ':', '5', ' ', 'x', '\r', '\n', '\r',
      '\n'])) :=
  fun h => h (by decide +kernel)

end SipParser
