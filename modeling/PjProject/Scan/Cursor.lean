import PjProject.Scan.Scanner
import PjProject.Library.Outcome

set_option autoImplicit false

/-! # The loops of the scanner stay inside the buffer

The argument of each loop without an end-of-input check is the same: its character set does not
contain NUL, so it stops at `end` at the latest. `skipWhile_eq` says where exactly: at the end of
the longest run of characters of the set. The loop of `pj_scan_get_unescape` also writes; it stays
inside the buffer unless it meets a `%` as the last byte (`trailingPercent`).
-/

namespace Scan

open PjScanner Outcome

variable {sc sc' : PjScanner} {s t : Nat}

/-! ## Loops -/

theorem charAt_ok (hs : s ≤ sc.endPos) : sc.charAt s = .ok (sc.buf.getD s 0) := by
  rw [charAt, if_pos hs]

/-- A character other than NUL is before the end. -/
theorem lt_of_char_ne {l : List UInt8} (hc : l.getD s 0 ≠ 0) :
    s < l.length := by
  rcases Nat.lt_or_ge s l.length with h | h
  · exact h
  · rw [List.getD_eq_getElem?_getD, List.getElem?_eq_none h] at hc
    exact absurd rfl hc

theorem getD_of_lt {l : List UInt8} (hs : s < l.length) : l.getD s 0 = l[s] := by
  rw [List.getD_eq_getElem?_getD, List.getElem?_eq_getElem hs]
  rfl

theorem takeWhile_drop_of_not {l : List UInt8} {p : UInt8 → Bool}
    (hp : s < l.length → p (l.getD s 0) = false) : ((l.drop s).takeWhile p).length = 0 := by
  rcases Nat.lt_or_ge s l.length with h | h
  · rw [List.drop_eq_getElem_cons h, List.takeWhile_cons, ← getD_of_lt h, hp h]
    rfl
  · rw [List.drop_eq_nil_of_le h]
    rfl

theorem takeWhile_drop_of {l : List UInt8} {p : UInt8 → Bool} (hs : s < l.length)
    (hp : p (l.getD s 0) = true) :
    s + ((l.drop s).takeWhile p).length = s + 1 + ((l.drop (s + 1)).takeWhile p).length := by
  rw [List.drop_eq_getElem_cons hs, List.takeWhile_cons, ← getD_of_lt hs, hp]
  simp only [if_true, List.length_cons]
  omega

/-- `while (p(*s)) ++s` passes the longest run of `p`, which ends at the NUL at the latest. -/
theorem skipWhile_eq (sc : PjScanner) {p : UInt8 → Bool} (hp : p 0 = false) (fuel : Nat) :
    ∀ s, s ≤ sc.endPos → sc.endPos < fuel + s →
      sc.skipWhile p fuel s = .ok (s + ((sc.buf.drop s).takeWhile p).length) := by
  induction fuel with
  | zero => intro s hs hf; omega
  | succ fuel ih =>
      intro s hs hf
      rw [skipWhile, charAt_ok hs]
      simp only [ok_bind]
      by_cases hc : p (sc.buf.getD s 0) = true
      · have hlt : s < sc.buf.length := lt_of_char_ne fun h0 => by
          rw [h0, hp] at hc
          cases hc
        rw [if_pos hc, ih (s + 1) hlt (by omega), takeWhile_drop_of hlt hc]
      · rw [if_neg hc, takeWhile_drop_of_not fun _ => Bool.eq_false_iff.2 hc]
        rfl

/-- `while (s != end && p(*s)) ++s` passes the longest run of `p` inside the buffer. -/
theorem skipWhileIn_eq (sc : PjScanner) (p : UInt8 → Bool) (fuel : Nat) :
    ∀ s, s ≤ sc.endPos → sc.endPos < fuel + s →
      sc.skipWhileIn p fuel s = .ok (s + ((sc.buf.drop s).takeWhile p).length) := by
  induction fuel with
  | zero => intro s hs hf; omega
  | succ fuel ih =>
      intro s hs hf
      rw [skipWhileIn]
      by_cases he : s ≠ sc.endPos
      · have hlt : s < sc.buf.length := by unfold endPos at *; omega
        rw [if_pos he, charAt_ok hs]
        simp only [ok_bind]
        by_cases hc : p (sc.buf.getD s 0) = true
        · rw [if_pos hc, ih (s + 1) hlt (by omega), takeWhile_drop_of hlt hc]
        · rw [if_neg hc, takeWhile_drop_of_not fun _ => Bool.eq_false_iff.2 hc]
          rfl
      · rw [if_neg he, takeWhile_drop_of_not fun h => absurd h (by unfold endPos at *; omega)]
        rfl

/-- The end of a run is inside the buffer. -/
theorem run_le (sc : PjScanner) (p : UInt8 → Bool) (hs : s ≤ sc.endPos) :
    s + ((sc.buf.drop s).takeWhile p).length ≤ sc.endPos := by
  have h1 := (List.takeWhile_prefix p (l := sc.buf.drop s)).length_le
  rw [List.length_drop] at h1
  unfold endPos at *
  omega

theorem isSpace_zero : isSpace 0 = false := by decide

theorem endPos_lt_fuel (sc : PjScanner) (s : Nat) : sc.endPos < sc.fuel + s := by
  unfold endPos PjScanner.fuel
  omega

/-! ## Whitespace -/

/-- What an operation that only moves the cursor leaves. -/
structure Advanced (sc sc' : PjScanner) : Prop where
  buf : sc'.buf = sc.buf
  skipWs : sc'.skipWs = sc.skipWs
  inside : sc'.curptr ≤ sc.endPos

theorem Advanced.endPos (h : Advanced sc sc') : sc'.endPos = sc.endPos := by
  unfold PjScanner.endPos
  rw [h.buf]

theorem Advanced.refl (h : sc.curptr ≤ sc.endPos) : Advanced sc sc := ⟨rfl, rfl, h⟩

theorem Advanced.trans {sc'' : PjScanner} (h1 : Advanced sc sc') (h2 : Advanced sc' sc'') :
    Advanced sc sc'' :=
  ⟨h2.buf.trans h1.buf, h2.skipWs.trans h1.skipWs, h1.endPos ▸ h2.inside⟩

/-- No outcome but a return is possible. -/
def Never (_ : Stop) : Prop := False

theorem skipNewlines_spec (fuel : Nat) : ∀ (sc : PjScanner) (s : Nat), sc.curptr ≤ sc.endPos →
    s ≤ sc.endPos → sc.endPos < fuel + s →
    Holds (fun r => Advanced sc r.1 ∧ r.2 ≤ sc.endPos) Never (skipNewlines fuel sc s) := by
  induction fuel with
  | zero => intro sc s _ hs hf; omega
  | succ fuel ih =>
      intro sc s hcur hs hf
      -- a character that is not NUL leaves room for one more step
      have step : ∀ s' : Nat, s < s' → s' ≤ sc.endPos →
          Holds (fun r => Advanced sc r.1 ∧ r.2 ≤ sc.endPos) Never (skipNewlines fuel
            { sc with line := sc.line + 1, curptr := s', startLine := s' } s') := by
        intro s' h1 h2
        refine (ih { sc with line := sc.line + 1, curptr := s', startLine := s' } s' h2 h2
          (show sc.endPos < fuel + s' by omega)).mono fun r hr => ?_
        exact ⟨⟨hr.1.buf, hr.1.skipWs, hr.1.inside⟩, hr.2⟩
      have lt : ∀ {i : Nat} {c : UInt8}, sc.buf.getD i 0 = c → c ≠ 0 →
          i < sc.endPos := fun hc h0 => lt_of_char_ne (hc ▸ h0)
      rw [skipNewlines, charAt_ok hs]
      simp only [ok_bind]
      refine Holds.ite (fun hc => ?_) fun _ => Holds.ite (fun hc => ?_) fun _ =>
        Holds.ite (fun hc => ?_) fun _ => ?_
      · have h1 := lt hc (by decide)
        rw [charAt_ok (show s + 1 ≤ sc.endPos by omega), ok_bind]
        by_cases hn : sc.buf.getD (s + 1) 0 = 10
        · simp only [if_pos hn]
          exact step (s + 2) (by omega) (lt hn (by decide))
        · simp only [if_neg hn]
          exact step (s + 1) (by omega) h1
      · exact step (s + 1) (by omega) (lt hc (by decide))
      · have h1 := lt rfl fun h0 => by
          rw [h0, isSpace_zero] at hc
          cases hc
        rw [skipWhile_eq sc isSpace_zero _ _ (show s + 1 ≤ sc.endPos by omega) (endPos_lt_fuel _ _)]
        have h2 := run_le sc isSpace (show s + 1 ≤ sc.endPos by omega)
        exact ih sc _ hcur h2 (by omega)
      · exact ⟨Advanced.refl hcur, hs⟩

theorem skipContinuation_spec (hs : s ≤ sc.endPos) :
    Holds (fun sc' => Advanced sc sc') Never (skipContinuation sc s) := by
  have lt : ∀ {i : Nat} {c : UInt8}, sc.buf.getD i 0 = c → c ≠ 0 →
      i < sc.endPos := fun hc h0 => lt_of_char_ne (hc ▸ h0)
  have at_ok : ∀ {i : Nat} (a b : Nat), i ≤ sc.endPos →
      PjScanner.charAt { sc with curptr := a, startLine := b } i = .ok (sc.buf.getD i 0) :=
    fun a b hi => charAt_ok hi
  -- the position after an optional CR, and then after an optional LF
  have h1 : (if sc.buf.getD s 0 = 13 then s + 1 else s) ≤ sc.endPos := by
    split_ifs with hc
    · exact lt hc (by decide)
    · exact hs
  unfold skipContinuation
  simp only [ok_bind, at_ok _ _ hs]
  generalize (if sc.buf.getD s 0 = 13 then s + 1 else s) = s1 at h1 ⊢
  rw [at_ok s sc.startLine h1]
  simp only [ok_bind]
  have h2 : (if sc.buf.getD s1 0 = 10 then s1 + 1 else s1) ≤ sc.endPos := by
    split_ifs with hc
    · exact lt hc (by decide)
    · exact h1
  generalize (if sc.buf.getD s1 0 = 10 then s1 + 1 else s1) = s2 at h2 ⊢
  rw [at_ok s s2 h2, ok_bind]
  refine Holds.ite (fun hc => ?_) fun _ => ?_
  · have h3 : s2 + 1 ≤ sc.endPos := lt rfl fun h0 => by
      rw [h0, isSpace_zero] at hc
      cases hc
    rw [skipWhile_eq { sc with curptr := s, startLine := s2 } isSpace_zero _ _ h3
      (endPos_lt_fuel _ _)]
    exact ⟨rfl, rfl, run_le sc isSpace h3⟩
  · exact ⟨rfl, rfl, hs⟩

/-- **`pj_scan_skip_whitespace`** stays inside the buffer. -/
theorem skipWhitespace_spec (hcur : sc.curptr ≤ sc.endPos) :
    Holds (fun sc' => Advanced sc sc') Never (pjScanSkipWhitespace sc) := by
  have h1 := run_le sc isSpace hcur
  unfold pjScanSkipWhitespace
  rw [skipWhile_eq sc isSpace_zero _ _ hcur (endPos_lt_fuel _ _)]
  generalize sc.curptr + ((sc.buf.drop sc.curptr).takeWhile isSpace).length = s1 at h1 ⊢
  simp only [ok_bind, charAt_ok h1]
  -- what follows the newlines, wherever they end
  have tail : ∀ (sc2 : PjScanner) (s2 : Nat), Advanced sc sc2 → s2 ≤ sc.endPos →
      Holds (fun sc' => Advanced sc sc') Never (do
        let c ← sc2.charAt s2
        if isNewline c ∧ sc2.skipWs &&& 3 = 3 then skipContinuation sc2 s2
        else return { sc2 with curptr := s2 }) := by
    intro sc2 s2 hadv h2
    have h2' : s2 ≤ sc2.endPos := hadv.endPos ▸ h2
    rw [charAt_ok h2', ok_bind]
    refine Holds.ite (fun _ => ?_) fun _ => ?_
    · exact (skipContinuation_spec h2').mono fun sc3 h3 => hadv.trans h3
    · exact ⟨hadv.buf, hadv.skipWs, h2⟩
  refine Holds.ite (fun _ => ?_) fun _ => ?_
  · exact Holds.bind (skipNewlines_spec _ sc s1 hcur h1 (endPos_lt_fuel _ _))
      fun r hr => tail r.1 r.2 hr.1 hr.2
  · have h := tail sc s1 (Advanced.refl hcur) h1
    rw [charAt_ok h1, ok_bind] at h
    exact h

theorem autoSkip_spec (hcur : sc.curptr ≤ sc.endPos) (skip : Bool) :
    Holds (fun sc' => Advanced sc sc') Never (autoSkip sc skip) := by
  unfold autoSkip
  rw [charAt_ok hcur]
  exact Holds.ite (fun _ => skipWhitespace_spec hcur) fun _ => Advanced.refl hcur

/-! ## Unescaping in place -/

/-- Scanning characters of `spec` and complete escapes ends at a `%` that is the last byte. -/
def trailingPercent (spec : UInt8 → Bool) : List UInt8 → Bool
  | [] => false
  | [c] => c == 37
  | [c, d] => if c = 37 then false else spec c && trailingPercent spec [d]
  | c :: h :: l :: rest =>
      if c = 37 then isXdigit h && isXdigit l && trailingPercent spec rest
      else spec c && trailingPercent spec (h :: l :: rest)

theorem trailingPercent_spec {spec : UInt8 → Bool} {c : UInt8} {l : List UInt8} (h37 : c ≠ 37)
    (hc : spec c = true) (hl : l ≠ []) :
    trailingPercent spec (c :: l) = trailingPercent spec l := by
  match l with
  | [] => exact absurd rfl hl
  | [d] => simp [trailingPercent, h37, hc]
  | d :: e :: r => simp [trailingPercent, h37, hc]

/-- A run of characters of `spec` does not decide whether a trailing `%` is met. -/
theorem trailingPercent_drop {spec : UInt8 → Bool} (hspec : spec 37 = false) (l : List UInt8) :
    trailingPercent spec (l.drop (l.takeWhile spec).length) = true →
      trailingPercent spec l = true := by
  induction l with
  | nil => exact id
  | cons c l ih =>
      rw [List.takeWhile_cons]
      by_cases hc : spec c = true
      · simp only [hc, if_true, List.length_cons, List.drop_succ_cons]
        intro h
        have h37 : c ≠ 37 := fun h37 => by rw [h37, hspec] at hc; cases hc
        have hl : l ≠ [] := fun hl => by subst hl; simp [trailingPercent] at h
        rw [trailingPercent_spec h37 hc hl]
        exact ih h
      · simp only [hc, Bool.false_eq_true, if_false, List.length_nil, List.drop_zero]
        exact id

/-- The state of the loop: nothing is written at or behind the reading position. -/
structure Unescaping (sc : PjScanner) (start : Nat) (r : PjScanner × Nat × Nat) : Prop where
  length : r.1.buf.length = sc.buf.length
  skipWs : r.1.skipWs = sc.skipWs
  rest : r.1.buf.drop r.2.1 = sc.buf.drop r.2.1
  inside : r.2.1 ≤ sc.buf.length
  start_le : start ≤ r.2.2
  dst_le : r.2.2 ≤ r.2.1

theorem Unescaping.char {start : Nat} {r : PjScanner × Nat × Nat} (h : Unescaping sc start r)
    {i : Nat} (hi : r.2.1 ≤ i) : r.1.buf.getD i 0 = sc.buf.getD i 0 := by
  have hd : ∀ l : List UInt8, l.getD i 0 = (l.drop r.2.1).getD (i - r.2.1) 0 := by
    intro l
    rw [List.getD_eq_getElem?_getD, List.getD_eq_getElem?_getD, List.getElem?_drop]
    congr 3
    omega
  rw [hd, h.rest, ← hd]

theorem setAt_ok {dst : Nat} (c : UInt8) (hd : dst < sc.buf.length) :
    sc.setAt dst c = .ok { sc with buf := sc.buf.set dst c } := if_pos hd

theorem moveBytes_length {dst n : Nat} (hd : dst ≤ s) (hs : s + n ≤ sc.buf.length) :
    (sc.moveBytes dst s n).buf.length = sc.buf.length := by
  simp only [moveBytes, List.length_append, List.length_take, List.length_drop]
  omega

/-- Moving a run down leaves what is behind it. -/
theorem moveBytes_drop {dst n : Nat} (hd : dst ≤ s) (hs : s + n ≤ sc.buf.length) :
    (sc.moveBytes dst s n).buf.drop (s + n) = sc.buf.drop (s + n) := by
  have hlen : (sc.buf.take dst ++ (sc.buf.drop s).take n).length = dst + n := by
    simp only [List.length_append, List.length_take, List.length_drop]
    omega
  simp only [moveBytes]
  rw [List.drop_append, List.drop_eq_nil_of_le (by omega), List.nil_append, hlen,
    List.drop_drop]
  congr 1
  omega

theorem isEscape_eq (c : UInt8) :
    isEscape sc s c = .ok (decide (c = 37 ∧ s + 3 ≤ sc.endPos) &&
      (isXdigit (sc.buf.getD (s + 1) 0) && isXdigit (sc.buf.getD (s + 2) 0))) := by
  unfold isEscape
  by_cases h : c = 37 ∧ s + 3 ≤ sc.endPos
  · rw [if_pos h, charAt_ok (by omega), charAt_ok (by omega), decide_eq_true h]
    rfl
  · rw [if_neg h, decide_eq_false h]
    rfl

/-- The bytes at `s`, as the list the loop has still to read. -/
theorem drop_eq_cons {l : List UInt8} (hs : s < l.length) :
    l.drop s = l.getD s 0 :: l.drop (s + 1) := by
  rw [getD_of_lt hs, List.drop_eq_getElem_cons hs]

theorem Unescaping.set {start dst : Nat} {sc1 : PjScanner} (h : Unescaping sc start (sc1, s, dst))
    {d t dst' : Nat} (c : UInt8) (hdt : d < t) (hst : s ≤ t) (ht : t ≤ sc.buf.length)
    (hstart : start ≤ dst') (hdst : dst' ≤ t) :
    Unescaping sc start ({ sc1 with buf := sc1.buf.set d c }, t, dst') := by
  refine ⟨?_, h.skipWs, ?_, ht, hstart, hdst⟩
  · simp only [List.length_set]
    exact h.length
  · have hrest : sc1.buf.drop t = sc.buf.drop t := by
      have := congrArg (List.drop (t - s)) h.rest
      simpa only [List.drop_drop, Nat.add_sub_cancel' hst] using this
    simp only [List.drop_set, if_pos hdt]
    exact hrest

theorem unescapeOne_spec {start dst : Nat} {sc1 : PjScanner} {esc : Bool}
    (h : Unescaping sc start (sc1, s, dst)) (hesc : esc = true → s + 3 ≤ sc.buf.length) :
    Holds (fun r => Unescaping sc start r ∧ r.2.1 = if esc then s + 3 else s) Never
      (unescapeOne sc1 esc s dst) := by
  have hlen : sc1.endPos = sc.buf.length := h.length
  have hdst := h.dst_le
  have hstart := h.start_le
  unfold unescapeOne
  cases esc with
  | false => exact ⟨h, rfl⟩
  | true =>
      have hs := hesc rfl
      simp only at hdst hstart
      simp only [if_true]
      rw [charAt_ok (by omega), ok_bind, charAt_ok (by omega), ok_bind,
        setAt_ok _ (show dst < sc1.buf.length by unfold endPos at hlen; omega)]
      exact ⟨h.set _ (by omega) (by omega) hs (by omega) (by omega), rfl⟩

theorem copyTwo_spec {start dst : Nat} {sc1 : PjScanner} (h : Unescaping sc start (sc1, s, dst))
    (hs : s + 2 ≤ sc.buf.length) :
    Holds (fun r => Unescaping sc start r) Never (copyTwo sc1 s dst) := by
  have hlen : sc1.buf.length = sc.buf.length := h.length
  have hdst : dst ≤ s := h.dst_le
  have hstart : start ≤ dst := h.start_le
  unfold copyTwo
  rw [charAt_ok (show s ≤ sc1.buf.length by omega), ok_bind,
    setAt_ok _ (show dst < sc1.buf.length by omega), ok_bind]
  -- the first byte is written before the second is read, at a position that is not behind it
  have h1 : Unescaping sc start
      ({ sc1 with buf := sc1.buf.set dst (sc1.buf.getD s 0) }, s + 1, dst + 1) :=
    h.set _ (by omega) (by omega) (by omega) (by omega) (by omega)
  have hlen1 := h1.length
  simp only at hlen1
  rw [charAt_ok (show s + 1 ≤ (sc1.buf.set dst (sc1.buf.getD s 0)).length by omega), ok_bind,
    setAt_ok _ (show dst + 1 < (sc1.buf.set dst (sc1.buf.getD s 0)).length by omega)]
  exact h1.set _ (by omega) (by omega) hs (by omega) (by omega)

theorem unescapeRun_spec {start dst : Nat} {sc1 : PjScanner} (spec : PjCis)
    (h : Unescaping sc start (sc1, s, dst)) :
    Holds (fun r => Unescaping sc start r ∧
        r.2.1 = s + ((sc.buf.drop s).takeWhile spec.mem).length) Never
      (unescapeRun spec sc1 s dst) := by
  have hlen : sc1.buf.length = sc.buf.length := h.length
  have hs : s ≤ sc.buf.length := h.inside
  have hdst : dst ≤ s := h.dst_le
  have hstart : start ≤ dst := h.start_le
  have hend : s ≤ sc1.endPos := by unfold endPos; omega
  have hrest : sc1.buf.drop s = sc.buf.drop s := h.rest
  have hchar : sc1.buf.getD s 0 = sc.buf.getD s 0 := h.char (by simp)
  unfold unescapeRun
  rw [charAt_ok hend, ok_bind, hchar]
  refine Holds.ite (fun hc => ?_) fun hc => ?_
  · have hlt : s < sc.buf.length := lt_of_char_ne fun h0 => by
      rw [h0, spec.mem_zero] at hc
      cases hc
    rw [skipWhile_eq sc1 spec.mem_zero _ _ (show s + 1 ≤ sc1.endPos by unfold endPos; omega)
      (endPos_lt_fuel _ _), ok_bind]
    have hrun : s + 1 + ((sc1.buf.drop (s + 1)).takeWhile spec.mem).length =
        s + ((sc.buf.drop s).takeWhile spec.mem).length := by
      rw [← takeWhile_drop_of (show s < sc1.buf.length by omega) (hchar ▸ hc), hrest]
    have hle := run_le sc spec.mem hs
    rw [hrun]
    generalize ht : s + ((sc.buf.drop s).takeWhile spec.mem).length = t at hle hrun ⊢
    unfold endPos at hle
    have hsum : s + (t - s) = t := by omega
    refine ⟨⟨?_, h.skipWs, ?_, hle, by simp only; omega, by simp only; omega⟩, rfl⟩
    · rw [moveBytes_length hdst (by omega)]
      exact hlen
    · have hmoved := moveBytes_drop hdst (show s + (t - s) ≤ sc1.buf.length by omega)
      rw [hsum] at hmoved
      simp only
      rw [hmoved]
      have := congrArg (List.drop (t - s)) hrest
      simpa only [List.drop_drop, hsum] using this
  · refine ⟨h, ?_⟩
    rw [takeWhile_drop_of_not fun _ => Bool.eq_false_iff.2 hc]
    rfl

/-- **The loop of `pj_scan_get_unescape`** stays inside the buffer when it does not meet a `%` as
the last byte. -/
theorem unescapeLoop_spec {spec : PjCis} (hspec : spec.mem 37 = false) {start : Nat}
    (fuel : Nat) : ∀ (sc1 : PjScanner) (s dst : Nat), Unescaping sc start (sc1, s, dst) →
      sc.buf.length < fuel + s → trailingPercent spec.mem (sc.buf.drop s) = false →
      Holds (fun r => Unescaping sc start r) Never (unescapeLoop spec fuel sc1 s dst) := by
  induction fuel with
  | zero =>
      intro sc1 s dst h hf _
      have : s ≤ sc.buf.length := h.inside
      omega
  | succ fuel ih =>
      intro sc1 s dst h hf htrail
      have hs : s ≤ sc.buf.length := h.inside
      have hlen : sc1.buf.length = sc.buf.length := h.length
      have hchar : ∀ i, s ≤ i → sc1.buf.getD i 0 = sc.buf.getD i 0 := fun i hi => h.char hi
      rw [unescapeLoop, charAt_ok (show s ≤ sc1.buf.length by omega), ok_bind, isEscape_eq,
        ok_bind, hchar s le_rfl, hchar (s + 1) (by omega), hchar (s + 2) (by omega),
        show sc1.endPos = sc.buf.length from hlen]
      generalize hesc : (decide (sc.buf.getD s 0 = 37 ∧ s + 3 ≤ sc.buf.length) &&
        (isXdigit (sc.buf.getD (s + 1) 0) && isXdigit (sc.buf.getD (s + 2) 0))) = esc
      have lt : sc.buf.getD s 0 = 37 → s < sc.buf.length := fun hc =>
        lt_of_char_ne (by rw [hc]; decide)
      refine Holds.ite (fun hc => ?_) fun hc => ?_
      · -- the `%` is not the last byte, so there are two bytes to copy
        refine copyTwo_spec h ?_
        by_contra hlast
        rw [drop_eq_cons (lt hc.1), List.drop_eq_nil_of_le (by omega), hc.1] at htrail
        simp [trailingPercent] at htrail
      · have hesc3 : esc = true → s + 3 ≤ sc.buf.length := by
          intro he
          rw [← hesc] at he
          simp only [Bool.and_eq_true, decide_eq_true_eq] at he
          exact he.1.2
        refine Holds.bind (unescapeOne_spec h hesc3) ?_
        rintro ⟨sc2, s2, dst2⟩ ⟨h2, hs2⟩
        simp only at hs2 h2 ⊢
        have htrail2 : trailingPercent spec.mem (sc.buf.drop s2) = false := by
          cases esc with
          | false => rw [hs2]; exact htrail
          | true =>
              have h3 := hesc3 rfl
              simp only [Bool.and_eq_true, decide_eq_true_eq] at hesc
              rw [drop_eq_cons (show s < sc.buf.length by omega),
                drop_eq_cons (show s + 1 < sc.buf.length by omega),
                drop_eq_cons (show s + 1 + 1 < sc.buf.length by omega), hesc.1.1] at htrail
              simp only [trailingPercent, if_true, hesc.2.1, hesc.2.2, Bool.true_and] at htrail
              rw [hs2]
              exact htrail
        refine Holds.bind (unescapeRun_spec spec h2) ?_
        rintro ⟨sc3, s3, dst3⟩ ⟨h3, hs3⟩
        simp only at hs3 h3 ⊢
        have htrail3 : trailingPercent spec.mem (sc.buf.drop s3) = false := by
          rw [Bool.eq_false_iff] at htrail2 ⊢
          intro ht
          refine htrail2 (trailingPercent_drop hspec _ ?_)
          rw [List.drop_drop, ← hs3]
          exact ht
        have hin3 : s3 ≤ sc.buf.length := h3.inside
        rw [charAt_ok (show s3 ≤ sc3.buf.length from h3.length ▸ hin3), ok_bind,
          h3.char (by simp : s3 ≤ s3)]
        refine Holds.ite (fun hc3 => ?_) fun _ => h3
        -- the loop goes on only after it has read something
        have hprog : s < s3 := by
          cases esc with
          | true => simp only [if_true] at hs2; omega
          | false =>
              rcases Nat.lt_or_ge s s3 with hlt | hge
              · exact hlt
              · simp only [Bool.false_eq_true, if_false] at hs2
                have heq : s3 = s := by omega
                rw [heq] at hc3
                exact absurd ⟨hc3, rfl⟩ hc
        exact ih sc3 s3 dst3 h3 (by omega) htrail3

/-! ## Quoted strings -/

theorem backslashes_spec (fuel : Nat) : ∀ r : Int, 0 ≤ r → r ≤ sc.endPos → r < fuel →
    Holds (fun _ => True) Never (backslashes sc fuel r) := by
  induction fuel with
  | zero => intro r h0 _ hf; omega
  | succ fuel ih =>
      intro r h0 hle hf
      rw [backslashes]
      refine Holds.ite (fun hr => ?_) fun _ => trivial
      rw [charAtInt, if_pos h0, charAt_ok (by omega), ok_bind]
      exact Holds.ite (fun _ => ih (r - 1) (by omega) (by omega) (by omega)) fun _ => trivial

/-- The search for the end quote starts behind the begin quote, at `s`, and looks back at most as
far as the byte before the begin quote. -/
theorem quoteLoop_spec {endQuote : UInt8} (hq : endQuote ≠ 0) {first : Nat}
    (hfirst : sc.buf.getD first 0 = 92 → first ≠ 0) (fuel : Nat) :
    ∀ s : Nat, first < s → s ≤ sc.endPos → sc.endPos < fuel + s →
      Holds (fun t => first < t ∧ t ≤ sc.endPos) Never (quoteLoop sc endQuote fuel s) := by
  induction fuel with
  | zero => intro s _ hs hf; omega
  | succ fuel ih =>
      intro s hfs hs hf
      have hle := run_le sc (fun c => c != 10 && c != endQuote) hs
      rw [quoteLoop, skipWhileIn_eq sc _ _ _ hs (endPos_lt_fuel _ _), ok_bind]
      generalize ht : s + ((sc.buf.drop s).takeWhile
        (fun c => c != 10 && c != endQuote)).length = t at hle
      rw [charAt_ok hle, ok_bind]
      refine Holds.ite (fun hc => ?_) fun _ => ⟨by omega, hle⟩
      have hlt : t < sc.endPos := lt_of_char_ne (hc ▸ hq)
      rw [charAtInt, if_pos (by omega), charAt_ok (by omega), ok_bind]
      refine Holds.ite (fun hp => ?_) fun _ => ⟨by omega, hle⟩
      -- the backslash is the begin quote only when there is a byte before it
      have hback : (0 : Int) ≤ (t : Int) - 2 := by
        have hpos : ((t : Int) - 1).toNat = t - 1 := by omega
        rw [hpos] at hp
        by_contra hneg
        have h0 : first = 0 := by omega
        have h1 : t - 1 = first := by omega
        exact hfirst (h1 ▸ hp) h0
      refine Holds.bind (backslashes_spec sc.fuel _ hback (by omega)
        (by have := endPos_lt_fuel sc 0; omega)) fun r _ => ?_
      exact Holds.ite (fun _ => ⟨by omega, hle⟩) fun _ => ih (t + 1) (by omega) hlt (by omega)

end Scan
