import PjProject.Parser.Message

set_option autoImplicit false

/-! # What the operations consume

Every operation of the scanner leaves the cursor where it was or moves it on, and those that return
a character or a nonempty token move it on. The rules of `Consume` carry this through the functions
of the parser.
-/

namespace SipParser

open Scan Scan.PjScanner Outcome
open Sdp (Str)

variable {sc : PjScanner}

/-! ## The scanner does not move back -/

/-- Any outcome. -/
def Any (_ : Stop) : Prop := True

theorem skipWhile_ge (sc : PjScanner) (p : UInt8 → Bool) (fuel : Nat) :
    ∀ s, Holds (s ≤ ·) Any (sc.skipWhile p fuel s) := by
  induction fuel with
  | zero => exact fun s => trivial
  | succ fuel ih =>
      intro s
      rw [skipWhile]
      refine Holds.bind (Q := fun _ => True) ?_ fun c _ => ?_
      · cases sc.charAt s <;> trivial
      · refine Holds.ite (fun _ => ?_) fun _ => le_rfl
        exact (ih (s + 1)).mono fun t ht => by omega

theorem charAt_any (s : Nat) : Holds (fun _ => True) Any (sc.charAt s) := by
  cases sc.charAt s <;> trivial

theorem skipNewlines_ge (fuel : Nat) :
    ∀ (sc : PjScanner) (s : Nat), Holds (fun r => s ≤ r.2) Any (Scan.skipNewlines fuel sc s) := by
  induction fuel with
  | zero => exact fun sc s => trivial
  | succ fuel ih =>
      intro sc s
      rw [Scan.skipNewlines]
      refine Holds.bind (charAt_any s) fun c _ => ?_
      refine Holds.ite (fun _ => ?_) fun _ => Holds.ite (fun _ => ?_) fun _ =>
        Holds.ite (fun _ => ?_) fun _ => le_rfl
      · refine Holds.bind (charAt_any (s + 1)) fun c' _ => ?_
        refine (ih _ _).mono fun r hr => ?_
        split at hr <;> omega
      · exact (ih _ _).mono fun r hr => by omega
      · refine Holds.bind (skipWhile_ge sc isSpace sc.fuel (s + 1)) fun t ht => ?_
        exact (ih _ _).mono fun r hr => by omega

theorem skipContinuation_ge (s : Nat) :
    Holds (fun sc' => s ≤ sc'.curptr) Any (skipContinuation sc s) := by
  unfold skipContinuation
  refine Holds.bind (charAt_any s) fun c _ => ?_
  have h1 : s ≤ if c = 13 then s + 1 else s := by split <;> omega
  generalize (if c = 13 then s + 1 else s) = s1 at h1 ⊢
  refine Holds.bind (charAt_any s1) fun c' _ => ?_
  have h2 : s ≤ if c' = 10 then s1 + 1 else s1 := by split <;> omega
  dsimp only
  generalize (if c' = 10 then s1 + 1 else s1) = s2 at h2 ⊢
  refine Holds.bind (charAt_any s2) fun c'' _ => ?_
  refine Holds.ite (fun _ => ?_) fun _ => le_rfl
  refine Holds.bind (skipWhile_ge _ isSpace _ (s2 + 1)) fun t ht => ?_
  exact Holds.pure (show s ≤ t by omega)

theorem skipWhitespace_ge :
    Holds (fun sc' => sc.curptr ≤ sc'.curptr) Any (pjScanSkipWhitespace sc) := by
  unfold pjScanSkipWhitespace
  refine Holds.bind (skipWhile_ge sc isSpace sc.fuel sc.curptr) fun s hs => ?_
  refine Holds.bind (charAt_any s) fun c _ => ?_
  have tail : ∀ (sc2 : PjScanner) (s2 : Nat), s ≤ s2 →
      Holds (fun sc' => sc.curptr ≤ sc'.curptr) Any (do
        let c ← sc2.charAt s2
        if isNewline c ∧ sc2.skipWs &&& 3 = 3 then skipContinuation sc2 s2
        else return { sc2 with curptr := s2 }) := by
    intro sc2 s2 h2
    refine Holds.bind (charAt_any s2) fun c _ => Holds.ite (fun _ => ?_) fun _ => ?_
    · exact (skipContinuation_ge s2).mono fun sc' h => by omega
    · exact Holds.pure (show sc.curptr ≤ s2 by omega)
  refine Holds.ite (fun _ => ?_) fun _ => ?_
  · exact Holds.bind (skipNewlines_ge _ sc s) fun r hr => tail r.1 r.2 hr
  · exact tail sc s le_rfl

/-- The end of most operations: the cursor is set to `c`, and white space may be skipped. -/
theorem finish_moved {mem : Str} {c : Nat} {skip : Bool} (hbuf : sc.buf = mem)
    (hc : c ≤ mem.length) :
    Holds (fun sc' => sc'.buf = mem ∧ c ≤ sc'.curptr ∧ sc'.curptr ≤ mem.length) OnlySyntaxErr
      (autoSkip { sc with curptr := c } skip) := by
  subst hbuf
  have hcur : PjScanner.curptr { sc with curptr := c } ≤ PjScanner.endPos { sc with curptr := c } :=
    hc
  have hadv := holds_of_never (autoSkip_spec hcur skip)
  have hge : Holds (fun sc' => c ≤ sc'.curptr) Any (autoSkip { sc with curptr := c } skip) := by
    unfold autoSkip
    refine Holds.bind (charAt_any _) fun _ _ => Holds.ite (fun _ => ?_) fun _ => ?_
    · exact skipWhitespace_ge
    · exact Holds.pure le_rfl
  exact (hadv.and hge).mono fun sc' h => ⟨h.1.buf, h.2, h.1.inside⟩

/-! ## Searches up to the end of the scanner -/

/-- A search up to the end of the scanner stays inside the memory, if it starts before that end;
otherwise it may run out of the memory. -/
theorem skipWhileTo_spec {mem : Str} {lim : Nat} {p : UInt8 → Bool} (hbuf : sc.buf = mem)
    (hlim : lim ≤ mem.length) (fuel : Nat) :
    ∀ s, s ≤ mem.length + 1 → mem.length + 1 < fuel + s →
      Holds (fun t => s ≤ t ∧ t ≤ mem.length ∧ (s ≤ lim → t ≤ lim))
        (fun e => e = .outOfBounds ∧ lim < s) (skipWhileTo sc lim p fuel s) := by
  induction fuel with
  | zero =>
      intro s hs hf
      omega
  | succ fuel ih =>
      intro s hs hf
      rw [skipWhileTo]
      refine Holds.ite (fun hne => ?_) fun hne => ?_
      · rcases Nat.lt_or_ge mem.length s with hout | hin
        · have herr : sc.charAt s = .error .outOfBounds := by
            rw [charAt, if_neg (by rw [endPos, hbuf]; omega)]
          rw [herr]
          exact ⟨rfl, by omega⟩
        · rw [charAt_ok (show s ≤ sc.buf.length from hbuf ▸ hin), ok_bind]
          refine Holds.ite (fun _ => ?_) fun _ => ⟨le_rfl, hin, fun h => h⟩
          have h := ih (s + 1) (by omega) (by omega)
          cases hr : skipWhileTo sc lim p fuel (s + 1) with
          | ok t =>
              rw [hr] at h
              have ht : s + 1 ≤ t ∧ t ≤ mem.length ∧ (s + 1 ≤ lim → t ≤ lim) := h
              exact ⟨by omega, ht.2.1, fun hle => ht.2.2 (by omega)⟩
          | error e =>
              rw [hr] at h
              have he : e = .outOfBounds ∧ lim < s + 1 := h
              exact ⟨he.1, by omega⟩
      · have : s = lim := by simpa using hne
        exact ⟨le_rfl, by omega, fun _ => by omega⟩

/-- Behind that end it comes to the first character it looks for, or runs out of the memory. -/
theorem skipWhileTo_beyond {lim : Nat} {p : UInt8 → Bool} (fuel : Nat) :
    ∀ s, lim < s → s ≤ sc.buf.length + 1 → sc.buf.length + 1 < fuel + s →
      (skipWhileTo sc lim p fuel s = .error .outOfBounds ∧
        ∀ t, s ≤ t → t ≤ sc.buf.length → p (sc.buf.getD t 0)) ∨
      ∃ t, s ≤ t ∧ t ≤ sc.buf.length ∧ skipWhileTo sc lim p fuel s = .ok t ∧
        p (sc.buf.getD t 0) = false ∧ ∀ u, s ≤ u → u < t → p (sc.buf.getD u 0) := by
  induction fuel with
  | zero =>
      intro s _ hs hf
      omega
  | succ fuel ih =>
      intro s hlim hs hf
      rw [skipWhileTo, if_pos (by omega)]
      rcases Nat.lt_or_ge sc.buf.length s with hout | hin
      · left
        have herr : sc.charAt s = .error .outOfBounds := by
          rw [charAt, if_neg (by rw [endPos]; omega)]
        rw [herr]
        exact ⟨rfl, fun t h1 h2 => by omega⟩
      · rw [charAt_ok hin, ok_bind]
        by_cases hp : p (sc.buf.getD s 0) = true
        · rw [if_pos hp]
          -- the characters from `s` on: this one, and those behind it
          have hcons : ∀ u, s ≤ u → (s + 1 ≤ u → p (sc.buf.getD u 0)) → p (sc.buf.getD u 0) := by
            intro u hu h
            rcases Nat.eq_or_lt_of_le hu with rfl | hlt
            · exact hp
            · exact h hlt
          rcases ih (s + 1) (by omega) (by omega) (by omega) with ⟨hr, hall⟩ | ⟨t, h1, h2, hr, h3, h4⟩
          · exact Or.inl ⟨hr, fun t ht htle => hcons t ht fun h => hall t h htle⟩
          · exact Or.inr ⟨t, by omega, h2, hr, h3, fun u hu hut => hcons u hu fun h => h4 u h hut⟩
        · rw [if_neg hp]
          exact Or.inr ⟨s, le_rfl, hin, rfl, by simpa using hp, fun u h1 h2 => by omega⟩

/-- The character at the cursor. -/
def Ctx.cur (c : Ctx) : UInt8 := c.sc.buf.getD c.sc.curptr 0

/-- The quote at `s` ends a quoted string: no odd number of backslashes precedes it. -/
def Closes (sc : PjScanner) (endQuote : UInt8) (s : Nat) : Prop :=
  sc.buf.getD s 0 = endQuote ∧ (sc.buf.getD (s - 1) 0 = 92 →
    ∃ r, backslashes sc sc.fuel ((s : Int) - 2) = .ok r ∧ ((s : Int) - 2 - r) % 2 = 1)

/-- The cursor is behind the end of the scanner, at a quote with neither an end quote nor a newline
behind it. -/
def OpenQuote (c : Ctx) : Prop :=
  c.lim < c.sc.curptr ∧ c.cur = 34 ∧ ∀ s, c.sc.curptr < s → s ≤ c.sc.buf.length →
    c.sc.buf.getD s 0 ≠ 10 ∧ ¬ Closes c.sc 34 s

/-- The search for the end quote, from behind the end of the scanner. -/
theorem quoteLoopTo_beyond {lim : Nat} {endQuote : UInt8} (hq : endQuote ≠ 0 ∧ endQuote ≠ 10)
    {first : Nat}
    (hfirst : sc.buf.getD first 0 ≠ 92) (fuel : Nat) :
    ∀ s : Nat, first < s → lim < s → s ≤ sc.buf.length → sc.buf.length < fuel + s →
      (quoteLoopTo sc lim endQuote fuel s = .error .outOfBounds ∧
        ∀ t, s ≤ t → t ≤ sc.buf.length → sc.buf.getD t 0 ≠ 10 ∧ ¬ Closes sc endQuote t) ∨
      ∃ t, s ≤ t ∧ t ≤ sc.buf.length ∧ quoteLoopTo sc lim endQuote fuel s = .ok t ∧
        (sc.buf.getD t 0 = 10 ∨ Closes sc endQuote t) := by
  induction fuel with
  | zero => intro s _ _ hs hf; omega
  | succ fuel ih =>
      intro s hfs hlim hs hf
      rw [quoteLoopTo]
      -- a character that the search passes is neither a newline nor an end quote
      have hpass : ∀ u : Nat, (sc.buf.getD u 0 != 10 && sc.buf.getD u 0 != endQuote) = true →
          sc.buf.getD u 0 ≠ 10 ∧ ¬ Closes sc endQuote u := by
        intro u hu
        rw [Bool.and_eq_true, bne_iff_ne, bne_iff_ne] at hu
        exact ⟨hu.1, fun h => hu.2 h.1⟩
      have hrun := @skipWhileTo_beyond sc lim (fun c => c != 10 && c != endQuote) sc.fuel s hlim
        (by omega) (by unfold PjScanner.fuel; omega)
      rcases hrun with ⟨hr, hall⟩ | ⟨t, hst, htle, hr, hstop, hpre⟩
      · rw [hr]
        exact Or.inl ⟨rfl, fun t h1 h2 => hpass t (hall t h1 h2)⟩
      rw [hr, ok_bind, charAt_ok htle, ok_bind]
      by_cases hend : sc.buf.getD t 0 = endQuote
      · rw [if_pos hend]
        have hlt : t < sc.buf.length := lt_of_char_ne (hend ▸ hq.1)
        have hpos : ((t : Int) - 1).toNat = t - 1 := by omega
        rw [charAtInt, if_pos (by omega), hpos, charAt_ok (show t - 1 ≤ sc.buf.length by omega),
          ok_bind]
        by_cases hback : sc.buf.getD (t - 1) 0 = 92
        · rw [if_pos hback]
          have hne : first ≠ t - 1 := by
            rintro rfl
            exact hfirst hback
          have hrun : Holds (fun _ => True) Never (backslashes sc sc.fuel ((t : Int) - 2)) :=
            backslashes_spec sc.fuel ((t : Int) - 2) (by omega)
              (show ((t : Int) - 2) ≤ sc.buf.length by omega) (by unfold PjScanner.fuel; omega)
          cases hb : backslashes sc sc.fuel ((t : Int) - 2) with
          | error e =>
              rw [hb] at hrun
              exact hrun.elim
          | ok r =>
              simp only [hb, ok_bind]
              by_cases hodd : ((t : Int) - 2 - r) % 2 = 1
              · rw [if_pos hodd]
                exact Or.inr ⟨t, hst, htle, rfl, Or.inr ⟨hend, fun _ => ⟨r, hb, hodd⟩⟩⟩
              · rw [if_neg hodd]
                -- an escaped quote: the search goes on behind it
                have hnot : sc.buf.getD t 0 ≠ 10 ∧ ¬ Closes sc endQuote t := by
                  refine ⟨hend ▸ hq.2, fun hcl => ?_⟩
                  obtain ⟨r', hb', hodd'⟩ := hcl.2 hback
                  rw [hb] at hb'
                  cases hb'
                  exact hodd hodd'
                rcases ih (t + 1) (by omega) (by omega) (by omega) (by omega) with
                  ⟨hrest, hall⟩ | ⟨u, hu, hule, hrest, hfound⟩
                · refine Or.inl ⟨hrest, fun u hu hule => ?_⟩
                  rcases Nat.lt_trichotomy u t with hut | rfl | htu
                  · exact hpass u (hpre u hu hut)
                  · exact hnot
                  · exact hall u htu hule
                · exact Or.inr ⟨u, by omega, hule, hrest, hfound⟩
        · rw [if_neg hback]
          exact Or.inr ⟨t, hst, htle, rfl, Or.inr ⟨hend, fun h => absurd h hback⟩⟩
      · rw [if_neg hend]
        refine Or.inr ⟨t, hst, htle, rfl, Or.inl ?_⟩
        by_contra h10
        rw [bne_iff_ne.mpr h10, bne_iff_ne.mpr hend] at hstop
        cases hstop

/-- Such a quote leads out of the memory. -/
theorem scanGetQuote_open {c : Ctx} (hcur : c.sc.curptr ≤ c.sc.buf.length) (h : OpenQuote c) :
    scanGetQuote 34 34 c = .error .outOfBounds c := by
  obtain ⟨hlim, hc, hall⟩ := h
  have hcb : c.sc.buf.getD c.sc.curptr 0 = 34 := hc
  have hlt : c.sc.curptr < c.sc.buf.length := lt_of_char_ne (by rw [hcb]; decide)
  unfold scanGetQuote move
  dsimp only
  rw [charAt_ok hcur, ok_bind, if_neg (not_not.mpr hcb)]
  have hloop := @quoteLoopTo_beyond c.sc c.lim 34 (by decide) c.sc.curptr (hcb ▸ by decide)
    c.sc.fuel (c.sc.curptr + 1) (by omega) (by omega) (by omega) (by unfold PjScanner.fuel; omega)
  rcases hloop with ⟨hr, -⟩ | ⟨t, hle, htle, -, hfound⟩
  · rw [hr]
    rfl
  · exact absurd hfound (not_or.mpr (hall t hle htle))

theorem scanGetQuote_other {beginQuote endQuote : UInt8} {c : Ctx}
    (hcur : c.sc.curptr ≤ c.sc.buf.length) (h : c.sc.buf.getD c.sc.curptr 0 ≠ beginQuote) :
    scanGetQuote beginQuote endQuote c = .error .syntaxErr c := by
  unfold scanGetQuote move
  dsimp only
  rw [charAt_ok hcur, ok_bind, if_pos h]

/-! ## The input of the parser -/

/-- What does not change while a text is parsed: the memory, the end of the scanner, and whether an
access outside the memory is ruled out. It is (`strict`) if the scanner ends with the memory and there
is no `rdata` whose headers the text adds to. -/
structure Scope where
  mem : Str
  lim : Nat
  strict : Prop
  inside : lim ≤ mem.length
  blank : isSpace (mem.getD lim 0) = false
  whole : strict → lim = mem.length

/-- A context in the scope. -/
structure Sound (S : Scope) (c : Ctx) : Prop where
  buf : c.sc.buf = S.mem
  lim : c.lim = S.lim
  cursor : c.sc.curptr ≤ S.mem.length
  alone : S.strict → c.rdata = none

/-- The memory behind the cursor is what is left. An exception is a syntax error, or an access
outside the memory where that is not ruled out. -/
def input (S : Scope) : Consume.Input Stop Ctx where
  sound := Sound S
  left c := S.mem.length - c.sc.curptr
  fails e := e = .syntaxErr ∨ (e = .outOfBounds ∧ ¬ S.strict)

/-- The scanner `sc'` is one in the scope, at `n` or behind it. -/
structure Moved (S : Scope) (n : Nat) (sc' : PjScanner) : Prop where
  buf : sc'.buf = S.mem
  past : n ≤ sc'.curptr
  cursor : sc'.curptr ≤ S.mem.length

/-- What the functions of the parser rely on: whichever contexts count as sound, they are so in the
scope, and remain so when the cursor moves on or a value is put into the `rdata`. Where an access outside
the memory is ruled out there is no `rdata`, and the scanner does not end at a quote. -/
class Reading (S : outParam Scope) (I : Consume.Input Stop Ctx) : Prop where
  sound : ∀ {c : Ctx}, I.sound c → Sound S c
  moved : ∀ {c : Ctx} {sc' : PjScanner} {n : Nat}, I.sound c → Moved S n sc' →
    I.sound { c with sc := sc' }
  informed : ∀ {c : Ctx} (f : MsgInfo → MsgInfo), I.sound c → I.sound { c with rdata := c.rdata.map f }
  named : ∀ {c : Ctx} (hname : Str), I.sound c → I.sound { c with hname := hname }
  left_eq : ∀ c : Ctx, I.left c = S.mem.length - c.sc.curptr
  fails_syntaxErr : I.fails .syntaxErr
  alone : ∀ {c : Ctx}, I.sound c → I.fails .outOfBounds ∨ c.rdata = none
  border : I.fails .outOfBounds ∨ S.mem.getD S.lim 0 ≠ 34 ∧ S.mem.getD S.lim 0 ≠ 41

variable {S : Scope} {I : Consume.Input Stop Ctx} {α : Type}

theorem Sound.moved {c : Ctx} (hc : Sound S c) {sc' : PjScanner} {n : Nat} (h : Moved S n sc') :
    Sound S { c with sc := sc' } := ⟨h.buf, hc.lim, h.cursor, hc.alone⟩

theorem eq_of_look {f : PjScanner → Nat → Except Stop α} {c c1 : Ctx} {a : α}
    (h : look f c = .ok a c1) : c1 = c := by
  unfold look at h
  split at h
  · cases h
    rfl
  · cases h

theorem Sound.curChar {c : Ctx} (hc : Sound S c) : curChar c = .ok c.cur c := by
  have hcur : c.sc.curptr ≤ c.sc.buf.length := hc.buf ▸ hc.cursor
  unfold SipParser.curChar look
  dsimp only
  rw [charAt_ok hcur]
  rfl

instance : Reading S (input S) where
  sound hc := hc
  moved hc h := Sound.moved hc h
  informed f hc := by
    refine ⟨hc.buf, hc.lim, hc.cursor, fun hstrict => ?_⟩
    rw [hc.alone hstrict]
    rfl
  named _ hc := ⟨hc.buf, hc.lim, hc.cursor, hc.alone⟩
  left_eq _ := rfl
  fails_syntaxErr := Or.inl rfl
  alone hc := by
    by_cases hstrict : S.strict
    · exact Or.inr (hc.alone hstrict)
    · exact Or.inl (Or.inr ⟨rfl, hstrict⟩)
  border := by
    by_cases hstrict : S.strict
    · -- behind the memory there is a NUL
      right
      rw [S.whole hstrict, List.getD_eq_getElem?_getD, List.getElem?_eq_none le_rfl]
      decide
    · exact Or.inl (Or.inr ⟨rfl, hstrict⟩)

/-- An access outside the memory is ruled out, but there is an open quote at the cursor. -/
def Overruns (I : Consume.Input Stop Ctx) (c : Ctx) : Prop :=
  I.sound c ∧ ¬ I.fails .outOfBounds ∧ OpenQuote c

theorem not_diverges : ¬ (input S).fails .diverges := by
  rintro (h | h)
  · cases h
  · cases h.1

section Operations

variable [hreading : Reading S I]

include hreading

theorem look_safe {f : PjScanner → Nat → Except Stop α}
    (hf : ∀ sc : PjScanner, sc.buf = S.mem → sc.curptr ≤ S.mem.length →
      Holds (fun _ => True) I.fails (f sc S.lim)) : Consume.Safe I (look f) := by
  intro c hs
  have hc : Sound S c := Reading.sound hs
  have h := hf c.sc hc.buf hc.cursor
  rw [← hc.lim] at h
  unfold look
  cases hr : f c.sc c.lim with
  | ok a => exact Consume.Leaves.refl hs
  | error e =>
      rw [hr] at h
      exact ⟨h, Consume.Leaves.refl hs⟩

theorem move_kept {f : PjScanner → Nat → Except Stop (PjScanner × α)} {c : Ctx} (hs : I.sound c)
    (h : Holds (fun r => Moved S c.sc.curptr r.1) I.fails (f c.sc S.lim)) :
    Consume.Kept I c (move f c) := by
  have hc : Sound S c := Reading.sound hs
  rw [← hc.lim] at h
  unfold move
  cases hr : f c.sc c.lim with
  | error e =>
      rw [hr] at h
      exact ⟨h, Consume.Leaves.refl hs⟩
  | ok r =>
      rw [hr] at h
      have hm : Moved S c.sc.curptr r.1 := h
      have hpast := hm.past
      refine ⟨Reading.moved hs hm, ?_⟩
      rw [Reading.left_eq, Reading.left_eq]
      show S.mem.length - r.1.curptr ≤ S.mem.length - c.sc.curptr
      omega

theorem move_taken {f : PjScanner → Nat → Except Stop (PjScanner × α)} {c : Ctx} (hs : I.sound c)
    (h : Holds (fun r => Moved S (c.sc.curptr + 1) r.1) I.fails (f c.sc S.lim)) :
    Consume.Taken I c (move f c) := by
  have hc : Sound S c := Reading.sound hs
  rw [← hc.lim] at h
  unfold move
  cases hr : f c.sc c.lim with
  | error e =>
      rw [hr] at h
      exact ⟨h, Consume.Leaves.refl hs⟩
  | ok r =>
      rw [hr] at h
      have hm : Moved S (c.sc.curptr + 1) r.1 := h
      have hpast := hm.past
      have hcur := hm.cursor
      refine ⟨Reading.moved hs hm, ?_⟩
      rw [Reading.left_eq, Reading.left_eq]
      show S.mem.length - r.1.curptr < S.mem.length - c.sc.curptr
      omega

theorem move_safe {f : PjScanner → Nat → Except Stop (PjScanner × α)}
    (hf : ∀ sc : PjScanner, sc.buf = S.mem → sc.curptr ≤ S.mem.length →
      Holds (fun r => Moved S sc.curptr r.1) I.fails (f sc S.lim)) :
    Consume.Safe I (move f) := fun c hs =>
  move_kept hs (hf c.sc (Reading.sound hs).buf (Reading.sound hs).cursor)

theorem move_eats {f : PjScanner → Nat → Except Stop (PjScanner × α)}
    (hf : ∀ sc : PjScanner, sc.buf = S.mem → sc.curptr ≤ S.mem.length →
      Holds (fun r => Moved S (sc.curptr + 1) r.1) I.fails (f sc S.lim)) :
    Consume.Eats I (move f) := fun c hs =>
  move_taken hs (hf c.sc (Reading.sound hs).buf (Reading.sound hs).cursor)

/-! ## The operations -/

theorem fails_of_syntaxErr {Q : α → Prop} {x : Except Stop α} (h : Holds Q OnlySyntaxErr x) :
    Holds Q I.fails x := by
  cases x with
  | ok a => exact h
  | error e =>
      have he : e = .syntaxErr := h
      subst he
      exact Reading.fails_syntaxErr

theorem curChar_safe : Consume.Safe I curChar :=
  look_safe fun sc hbuf hcur => by
    rw [charAt_ok (show sc.curptr ≤ sc.buf.length from hbuf ▸ hcur)]
    trivial

/-- The rule for a program that looks at the cursor first. -/
theorem curChar_bind_kept {β : Type} {f : UInt8 → Parser β} {c : Ctx} (hc : I.sound c)
    (h : Consume.Kept I c (f c.cur c)) : Consume.Kept I c ((curChar >>= f) c) := by
  have hs : Sound S c := Reading.sound hc
  simp only [Bind.bind, EStateM.bind, hs.curChar]
  exact h

theorem scanIsEof_safe : Consume.Safe I scanIsEof := look_safe fun _ _ _ => trivial

theorem getSkipWs_safe : Consume.Safe I getSkipWs := look_safe fun _ _ _ => trivial

theorem setSkipWs_safe (flags : Nat) : Consume.Safe I (setSkipWs flags) :=
  move_safe fun _ hbuf hcur => ⟨hbuf, le_rfl, hcur⟩

/-- The end of an operation that returns a token. -/
theorem token_moved {n s : Nat} {skip : Bool} {out : PjStr} (hbuf : sc.buf = S.mem) (hn : n ≤ s)
    (hs : s ≤ S.mem.length) :
    Holds (fun r : PjScanner × Str => Moved S n r.1) I.fails (do
      let sc ← autoSkip { sc with curptr := s } skip
      return withText (sc, out)) :=
  Holds.bind (fails_of_syntaxErr (finish_moved hbuf hs)) fun _ h =>
    Holds.pure ⟨h.1, hn.trans h.2.1, h.2.2⟩

theorem scanGet_eats (spec : PjCis) : Consume.Eats I (scanGet spec) := by
  refine move_eats fun sc hbuf hcur => ?_
  have hcur' : sc.curptr ≤ sc.buf.length := hbuf ▸ hcur
  unfold pjScanGet
  rw [charAt_ok hcur']
  simp only [ok_bind]
  split
  · exact Reading.fails_syntaxErr
  · rename_i hc
    have hlt : sc.curptr < sc.buf.length := lt_of_char_ne fun h0 => by
      rw [h0] at hc
      exact hc spec.mem_zero
    have hle := run_le sc spec.mem (show sc.curptr + 1 ≤ sc.endPos from hlt)
    rw [skipWhile_eq sc spec.mem_zero _ _ hlt (endPos_lt_fuel _ _)]
    simp only [ok_bind, bind_assoc, pure_bind]
    exact token_moved hbuf (by omega) (hbuf ▸ hle)

theorem scanGetChar_eats : Consume.Eats I scanGetChar := by
  refine move_eats fun sc hbuf hcur => ?_
  have hcur' : sc.curptr ≤ sc.buf.length := hbuf ▸ hcur
  unfold pjScanGetChar
  rw [charAt_ok hcur', ok_bind]
  refine Holds.ite (fun _ => Reading.fails_syntaxErr) fun hc => ?_
  have hlt : sc.curptr + 1 ≤ S.mem.length := hbuf ▸ lt_of_char_ne hc
  exact Holds.bind (fails_of_syntaxErr (finish_moved hbuf hlt)) fun _ h => Holds.pure ⟨h.1, h.2.1, h.2.2⟩

theorem scanGetNewline_eats : Consume.Eats I scanGetNewline := by
  refine move_eats fun sc hbuf hcur => ?_
  have hcur' : sc.curptr ≤ sc.buf.length := hbuf ▸ hcur
  have lt : ∀ {i : Nat} {c : UInt8}, sc.buf.getD i 0 = c → c ≠ 0 → i + 1 ≤ sc.buf.length :=
    fun hc h0 => lt_of_char_ne (hc ▸ h0)
  refine Holds.bind (Q := Moved S (sc.curptr + 1)) ?_ fun sc' h => Holds.pure h
  unfold pjScanGetNewline
  rw [charAt_ok hcur', ok_bind]
  refine Holds.ite (fun _ => Reading.fails_syntaxErr) fun hc => ?_
  generalize hc0 : sc.buf.getD sc.curptr 0 = c at hc
  have h0 : sc.curptr + 1 ≤ sc.buf.length := by
    refine lt hc0 ?_
    rintro rfl
    exact hc (by decide)
  -- a carriage return, a line feed, or both
  by_cases h13 : c = 13
  · simp only [if_pos h13]
    rw [charAt_ok h0, ok_bind]
    by_cases h10 : sc.buf.getD (sc.curptr + 1) 0 = 10
    · rw [if_pos h10]
      exact Holds.pure ⟨hbuf, show sc.curptr + 1 ≤ sc.curptr + 1 + 1 by omega,
        hbuf ▸ lt h10 (by decide)⟩
    · rw [if_neg h10]
      exact Holds.pure ⟨hbuf, le_rfl, hbuf ▸ h0⟩
  · have h10 : c = 10 := by
      simp only [isNewline, Bool.or_eq_false_iff, not_and, beq_eq_false_iff_ne] at hc
      by_contra hne
      exact hc h13 hne
    simp only [if_neg h13]
    rw [charAt_ok hcur', ok_bind, hc0, if_pos h10]
    exact Holds.pure ⟨hbuf, le_rfl, hbuf ▸ h0⟩

theorem scanSkipWhitespace_safe : Consume.Safe I scanSkipWhitespace := by
  refine move_safe fun sc hbuf hcur => ?_
  have hcur' : sc.curptr ≤ sc.buf.length := hbuf ▸ hcur
  have h := (holds_of_never (skipWhitespace_spec hcur')).and skipWhitespace_ge
  refine Holds.bind (fails_of_syntaxErr h) fun sc' h' => Holds.pure ?_
  have hin : sc'.curptr ≤ sc.buf.length := h'.1.inside
  exact ⟨h'.1.buf.trans hbuf, h'.2, hbuf ▸ hin⟩

theorem scanPeek_safe (spec : PjCis) : Consume.Safe I (scanPeek spec) := by
  refine look_safe fun sc hbuf hcur => Holds.ite (fun _ => Reading.fails_syntaxErr) fun _ => ?_
  have hcur' : sc.curptr ≤ sc.buf.length := hbuf ▸ hcur
  have hle := run_le sc spec.mem hcur'
  rw [skipWhile_eq sc spec.mem_zero _ _ hcur' (endPos_lt_fuel _ _), ok_bind, charAt_ok hle, ok_bind]
  trivial

theorem scanGetN_safe (n : Nat) : Consume.Safe I (scanGetN n) := by
  refine move_safe fun sc hbuf hcur => Holds.ite (fun _ => Reading.fails_syntaxErr) fun hn => ?_
  exact token_moved hbuf (by omega) (by have := S.inside; omega)

theorem scanGetUntilCh_safe (ch : UInt8) : Consume.Safe I (scanGetUntilCh ch) := by
  refine move_safe fun sc hbuf hcur => Holds.ite (fun _ => Reading.fails_syntaxErr) fun hlim => ?_
  have h := skipWhileTo_spec (p := fun c => c != ch) hbuf S.inside sc.fuel sc.curptr (by omega)
    (by unfold PjScanner.fuel; rw [hbuf]; omega)
  cases hr : skipWhileTo sc S.lim (fun c => c != ch) sc.fuel sc.curptr with
  | error e =>
      rw [hr] at h
      have he : e = .outOfBounds ∧ S.lim < sc.curptr := h
      omega
  | ok t =>
      rw [hr] at h
      exact token_moved hbuf h.1 h.2.1

/-- The search for the end quote. -/
theorem quoteLoopTo_spec {endQuote : UInt8} (hq : endQuote ≠ 0) {first : Nat}
    (hborder : I.fails .outOfBounds ∨ S.mem.getD S.lim 0 ≠ endQuote)
    (hbuf : sc.buf = S.mem) (hfirst : sc.buf.getD first 0 ≠ 92) (fuel : Nat) :
    ∀ s : Nat, first < s → s ≤ S.mem.length → (I.fails .outOfBounds ∨ s ≤ S.lim) →
      S.mem.length < fuel + s →
      Holds (fun t => first < t ∧ t ≤ S.mem.length) I.fails
        (quoteLoopTo sc S.lim endQuote fuel s) := by
  induction fuel with
  | zero => intro s _ hs _ hf; omega
  | succ fuel ih =>
      intro s hfs hs hin hf
      rw [quoteLoopTo]
      have hrun := skipWhileTo_spec (p := fun c => c != 10 && c != endQuote) hbuf S.inside sc.fuel s
        (by omega) (by unfold PjScanner.fuel; rw [hbuf]; omega)
      cases hr : skipWhileTo sc S.lim (fun c => c != 10 && c != endQuote) sc.fuel s with
      | error e =>
          rw [hr] at hrun
          obtain ⟨rfl, hlt⟩ : e = .outOfBounds ∧ S.lim < s := hrun
          exact hin.resolve_right (by omega)
      | ok t =>
          rw [hr] at hrun
          have ht : s ≤ t ∧ t ≤ S.mem.length ∧ (s ≤ S.lim → t ≤ S.lim) := hrun
          have hlen : sc.buf.length = S.mem.length := by rw [hbuf]
          have htle : t ≤ sc.buf.length := by omega
          rw [ok_bind, charAt_ok htle, ok_bind]
          refine Holds.ite (fun hc => ?_) fun _ => ⟨by omega, ht.2.1⟩
          have hlt : t < sc.buf.length := lt_of_char_ne (hc ▸ hq)
          have hpos : ((t : Int) - 1).toNat = t - 1 := by omega
          rw [charAtInt, if_pos (by omega), hpos, charAt_ok (show t - 1 ≤ sc.buf.length by omega),
            ok_bind]
          refine Holds.ite (fun hp => ?_) fun _ => ⟨by omega, ht.2.1⟩
          -- the backslash is not the begin quote, and the end quote is not the end of the scanner
          have hback : first ≠ t - 1 := by
            rintro rfl
            exact hfirst hp
          have hnext : I.fails .outOfBounds ∨ t + 1 ≤ S.lim := by
            rcases hborder with hfail | hne
            · exact Or.inl hfail
            · refine hin.imp_right fun hle => ?_
              have hne' : t ≠ S.lim := by
                rintro rfl
                exact hne (hbuf ▸ hc)
              have := ht.2.2 hle
              omega
          refine Holds.bind (Q := fun _ => True) ?_ fun r _ => ?_
          · have h : Holds (fun _ => True) Never (backslashes sc sc.fuel ((t : Int) - 2)) :=
              backslashes_spec sc.fuel ((t : Int) - 2) (by omega)
                (show ((t : Int) - 2) ≤ sc.buf.length by omega) (by unfold PjScanner.fuel; omega)
            exact fails_of_syntaxErr (holds_of_never h)
          · exact Holds.ite (fun _ => ⟨by omega, ht.2.1⟩) fun _ =>
              ih (t + 1) (by omega) (by omega) hnext (by omega)

/-- The rest of `pj_scan_get_quote`, where the search for the end quote stays inside the memory. -/
theorem scanGetQuote_of_loop {beginQuote endQuote : UInt8} (hb : beginQuote ≠ 0) (he : endQuote ≠ 0)
    {c : Ctx} (hs : I.sound c)
    (h : c.sc.curptr < c.sc.buf.length → c.sc.buf.getD c.sc.curptr 0 = beginQuote →
      Holds (fun t => c.sc.curptr < t ∧ t ≤ S.mem.length) I.fails
        (quoteLoopTo c.sc S.lim endQuote c.sc.fuel (c.sc.curptr + 1))) :
    Consume.Taken I c (scanGetQuote beginQuote endQuote c) := by
  have hc : Sound S c := Reading.sound hs
  have hbuf := hc.buf
  have hcur' : c.sc.curptr ≤ c.sc.buf.length := hbuf ▸ hc.cursor
  refine move_taken hs ?_
  rw [charAt_ok hcur', ok_bind]
  refine Holds.ite (fun _ => Reading.fails_syntaxErr) fun hc0 => ?_
  have hc' : c.sc.buf.getD c.sc.curptr 0 = beginQuote := by simpa using hc0
  have hlt : c.sc.curptr < c.sc.buf.length := lt_of_char_ne (hc' ▸ hb)
  have hlen : c.sc.buf.length = S.mem.length := by rw [hbuf]
  refine Holds.bind (h hlt hc') fun t ht => ?_
  have htle : t ≤ c.sc.buf.length := by omega
  rw [charAt_ok htle, ok_bind]
  refine Holds.ite (fun _ => Reading.fails_syntaxErr) fun hend => ?_
  have hlt' : t < c.sc.buf.length := lt_of_char_ne fun h0 => hend fun h => he (h ▸ h0)
  exact token_moved hbuf (by omega) (by omega)

/-- A quoted string that starts in front of the end of the scanner is read. -/
theorem scanGetQuote_taken {beginQuote endQuote : UInt8} (hb : beginQuote ≠ 0 ∧ beginQuote ≠ 92)
    (he : endQuote = 34 ∨ endQuote = 41) {c : Ctx} (hs : I.sound c)
    (hin : I.fails .outOfBounds ∨ c.sc.curptr < S.lim) :
    Consume.Taken I c (scanGetQuote beginQuote endQuote c) := by
  have hc : Sound S c := Reading.sound hs
  have hq : endQuote ≠ 0 := by rcases he with rfl | rfl <;> decide
  have hborder : I.fails .outOfBounds ∨ S.mem.getD S.lim 0 ≠ endQuote := by
    refine (Reading.border (I := I)).imp_right fun h => ?_
    rcases he with rfl | rfl
    · exact h.1
    · exact h.2
  refine scanGetQuote_of_loop hb.1 hq hs fun hlt hcb => ?_
  have hlen : c.sc.buf.length = S.mem.length := by rw [hc.buf]
  exact quoteLoopTo_spec hq hborder hc.buf (hcb ▸ hb.2) c.sc.fuel (c.sc.curptr + 1)
    (by omega) (by omega) hin (by unfold PjScanner.fuel; omega)

/-- So is one with an end, or with a newline behind it. -/
theorem quote_taken {c : Ctx} (hs : I.sound c) (h : ¬ Overruns I c) :
    Consume.Taken I c (scanGetQuote 34 34 c) := by
  have hc : Sound S c := Reading.sound hs
  have hlen : c.sc.buf.length = S.mem.length := by rw [hc.buf]
  rcases Nat.lt_or_ge c.sc.curptr S.lim with hlt | hge
  · exact scanGetQuote_taken (by decide) (Or.inl rfl) hs (Or.inr hlt)
  by_cases hfail : I.fails .outOfBounds
  · exact scanGetQuote_taken (by decide) (Or.inl rfl) hs (Or.inl hfail)
  rcases Nat.lt_or_ge S.lim c.sc.curptr with hgt | hle
  · refine scanGetQuote_of_loop (by decide) (by decide) hs fun hlt hcb => ?_
    have hloop := @quoteLoopTo_beyond c.sc S.lim 34 (by decide) c.sc.curptr (hcb ▸ by decide)
      c.sc.fuel (c.sc.curptr + 1) (by omega) (by omega) (by omega) (by unfold PjScanner.fuel; omega)
    rcases hloop with ⟨-, hnone⟩ | ⟨t, hle, htle, hr, -⟩
    · have hopen : OpenQuote c := ⟨hc.lim ▸ hgt, hcb, fun s hs1 hs2 => hnone s hs1 hs2⟩
      exact absurd ⟨hs, hfail, hopen⟩ h
    · rw [hr]
      exact ⟨hle, hlen ▸ htle⟩
  · -- the end of the scanner is no quote
    have heq : c.sc.curptr = S.lim := by omega
    rcases Reading.border (I := I) with hfail | hne
    · exact scanGetQuote_taken (by decide) (Or.inl rfl) hs (Or.inl hfail)
    · have hcur' : c.sc.curptr ≤ c.sc.buf.length := hc.buf ▸ hc.cursor
      rw [scanGetQuote_other hcur' (by rw [hc.buf, heq]; exact hne.1)]
      exact ⟨Reading.fails_syntaxErr, Consume.Leaves.refl hs⟩

end Operations

/-- No quote is open that way where the scanner ends with the memory. -/
theorem not_overruns {c : Ctx} : ¬ Overruns (input S) c := by
  rintro ⟨hc, hfails, hlim, -⟩
  have hstrict : S.strict := by
    by_contra hnot
    exact hfails (Or.inr ⟨rfl, hnot⟩)
  have hcur := hc.cursor
  rw [hc.lim, S.whole hstrict] at hlim
  omega

end SipParser
