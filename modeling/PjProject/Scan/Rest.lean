import PjProject.Scan.Cursor

set_option autoImplicit false

/-! # What is left to scan

A scanner that skips no whitespace is described by the text from its position on. `At sc rest`
says that this text is `rest`; each lemma says what one operation takes from it. They are the
rules by which a parser is run on a known text.
-/

namespace Scan

open PjScanner Outcome

/-- The scanner stands before `rest` and skips no whitespace. -/
structure At (sc : PjScanner) (rest : List UInt8) : Prop where
  skipWs : sc.skipWs = 0
  cur : sc.curptr ≤ sc.buf.length
  rest : sc.buf.drop sc.curptr = rest

variable {sc : PjScanner} {tok rest : List UInt8} {c : UInt8}

theorem At.length (h : At sc rest) : sc.curptr + rest.length = sc.buf.length := by
  have hcur := h.cur
  rw [← h.rest, List.length_drop]
  omega

/-- A character ahead. -/
theorem At.charAt (h : At sc rest) (i : Nat) (hi : i ≤ rest.length) :
    sc.charAt (sc.curptr + i) = .ok (rest.getD i 0) := by
  have hlen := h.length
  rw [charAt_ok (by unfold endPos; omega), ← h.rest]
  simp only [List.getD_eq_getElem?_getD, List.getElem?_drop]

/-- The character under the cursor. -/
theorem At.head (h : At sc (c :: rest)) : sc.charAt sc.curptr = .ok c :=
  h.charAt 0 (Nat.zero_le _)

/-- The cursor moves behind `tok`. -/
theorem At.move (h : At sc (tok ++ rest)) {n : Nat} (hn : n = sc.curptr + tok.length)
    {line startLine : Nat} :
    At { sc with curptr := n, line := line, startLine := startLine } rest := by
  have hlen := h.length
  rw [List.length_append] at hlen
  refine ⟨h.skipWs, by dsimp only; omega, ?_⟩
  dsimp only
  rw [hn, ← List.drop_drop, h.rest, List.drop_left]

/-- The text of the token that the cursor has passed. -/
theorem At.text (h : At sc (tok ++ rest)) : sc.text ⟨sc.curptr, tok.length⟩ = tok := by
  unfold PjScanner.text
  dsimp only
  rw [h.rest, List.take_left]

/-- Nothing is skipped behind a token. -/
theorem At.autoSkip (h : At sc rest) : autoSkip sc sc.skips = .ok sc := by
  have hs : sc.skips = false := by
    unfold skips
    rw [h.skipWs]
    rfl
  unfold Scan.autoSkip
  rw [charAt_ok (show sc.curptr ≤ sc.endPos from h.cur), ok_bind, hs, Bool.and_false]
  rfl

theorem takeWhile_append_stop {p : UInt8 → Bool} (htok : ∀ x ∈ tok, p x = true)
    (hc : p c = false) : (tok ++ c :: rest).takeWhile p = tok := by
  rw [List.takeWhile_append_of_pos htok, List.takeWhile_cons_of_neg (by rw [hc]; exact nofun),
    List.append_nil]

/-- `scanUntil` takes what is before the first character at which it stops. -/
theorem At.scanUntil (h : At sc (tok ++ c :: rest)) (stop : UInt8 → Bool)
    (htok : ∀ x ∈ tok, stop x = false) (hc : stop c = true) :
    ∃ sc', Scan.scanUntil sc stop = .ok (sc', ⟨sc.curptr, tok.length⟩) ∧ At sc' (c :: rest) ∧
      sc'.buf = sc.buf := by
  have hlen := h.length
  rw [List.length_append, List.length_cons] at hlen
  have hrun : (sc.buf.drop sc.curptr).takeWhile (fun c => !stop c) = tok := by
    rw [h.rest]
    exact takeWhile_append_stop (fun x hx => by rw [htok x hx]; rfl) (by rw [hc]; rfl)
  have hat : At { sc with curptr := sc.curptr + tok.length } (c :: rest) := h.move rfl
  refine ⟨_, ?_, hat, rfl⟩
  unfold Scan.scanUntil
  rw [if_neg (by unfold endPos; omega), skipWhileIn_eq sc _ _ _ h.cur (endPos_lt_fuel sc _), hrun]
  simp only [ok_bind]
  rw [show sc.skips = PjScanner.skips { sc with curptr := sc.curptr + tok.length } from rfl,
    hat.autoSkip]
  simp only [ok_bind, strset3]
  rw [Nat.add_sub_cancel_left]
  rfl

/-- `pj_scan_get` takes a run of characters of its set. -/
theorem At.get (h : At sc (tok ++ c :: rest)) {spec : PjCis} (hne : tok ≠ [])
    (htok : ∀ x ∈ tok, spec.mem x = true) (hc : spec.mem c = false) :
    ∃ sc', pjScanGet sc spec = .ok (sc', ⟨sc.curptr, tok.length⟩) ∧ At sc' (c :: rest) ∧
      sc'.buf = sc.buf := by
  have hlen := h.length
  cases tok with
  | nil => exact absurd rfl hne
  | cons x tok =>
      simp only [List.cons_append, List.length_append, List.length_cons] at hlen
      have hx : spec.mem x = true := htok x List.mem_cons_self
      have hat : At { sc with curptr := sc.curptr + (x :: tok).length } (c :: rest) := h.move rfl
      -- The loop starts behind the first character.
      have hdrop : sc.buf.drop (sc.curptr + 1) = tok ++ c :: rest := by
        rw [← List.drop_drop, h.rest]
        rfl
      refine ⟨_, ?_, hat, rfl⟩
      unfold pjScanGet
      rw [(show At sc (x :: (tok ++ c :: rest)) from h).head, ok_bind]
      dsimp only
      rw [if_neg (by rw [hx]; exact nofun),
        skipWhile_eq sc spec.mem_zero _ _ (by unfold endPos; omega) (endPos_lt_fuel sc _), hdrop,
        takeWhile_append_stop (fun y hy => htok y (List.mem_cons_of_mem x hy)) hc]
      simp only [ok_bind]
      rw [show sc.curptr + 1 + tok.length = sc.curptr + (x :: tok).length by
          rw [List.length_cons]; omega,
        show sc.skips = PjScanner.skips { sc with curptr := sc.curptr + (x :: tok).length } from rfl,
        hat.autoSkip]
      simp only [ok_bind, strset3]
      rw [Nat.add_sub_cancel_left]
      rfl

/-- `pj_scan_get_char`. -/
theorem At.getChar (h : At sc (c :: rest)) (hc : c ≠ 0) :
    ∃ sc', pjScanGetChar sc = .ok (sc', charVal c) ∧ At sc' rest ∧ sc'.buf = sc.buf := by
  have hat : At { sc with curptr := sc.curptr + 1 } rest :=
    (show At sc ([c] ++ rest) from h).move rfl
  refine ⟨_, ?_, hat, rfl⟩
  unfold pjScanGetChar
  rw [h.head, ok_bind, if_neg hc, show sc.skips = PjScanner.skips { sc with curptr := sc.curptr + 1 } from rfl,
    hat.autoSkip]
  rfl

/-- `pj_scan_advance_n` without skipping. -/
theorem At.advance (h : At sc (tok ++ rest)) :
    ∃ sc', pjScanAdvanceN sc tok.length false = .ok sc' ∧ At sc' rest ∧ sc'.buf = sc.buf := by
  have hlen := h.length
  rw [List.length_append] at hlen
  have hat : At { sc with curptr := sc.curptr + tok.length } rest := h.move rfl
  refine ⟨_, ?_, hat, rfl⟩
  unfold pjScanAdvanceN Scan.autoSkip
  rw [if_neg (by unfold endPos; omega), charAt_ok (by unfold endPos; dsimp only; omega), ok_bind,
    Bool.and_false]
  rfl

/-- `pj_scan_skip_line`. -/
theorem At.skipLine (h : At sc (tok ++ 10 :: rest)) (htok : ∀ x ∈ tok, x ≠ 10 ∧ x ≠ 0) :
    ∃ sc', pjScanSkipLine sc = .ok sc' ∧ At sc' rest ∧ sc'.buf = sc.buf := by
  have hlen := h.length
  rw [List.length_append, List.length_cons] at hlen
  have hrun : (sc.buf.drop sc.curptr).takeWhile (fun c => c != 10 && c != 0) = tok := by
    rw [h.rest]
    refine takeWhile_append_stop (fun x hx => ?_) rfl
    simp [htok x hx]
  have hat : At { sc with curptr := sc.curptr + tok.length + 1, line := sc.line + 1,
                          startLine := sc.curptr + tok.length + 1 } rest :=
    (show At sc ((tok ++ [10]) ++ rest) by rw [List.append_assoc]; exact h).move
      (by rw [List.length_append]; rfl)
  have hend : At { sc with curptr := sc.curptr + tok.length } (10 :: rest) := h.move rfl
  refine ⟨_, ?_, hat, rfl⟩
  unfold pjScanSkipLine
  rw [skipWhile_eq sc rfl _ _ h.cur (endPos_lt_fuel sc _), hrun, ok_bind,
    show sc.charAt (sc.curptr + tok.length) = .ok 10 from hend.head, ok_bind]
  rfl

/-- `pj_scan_get_newline` at `"\r\n"`. -/
theorem At.newline (h : At sc (13 :: 10 :: rest)) :
    ∃ sc', pjScanGetNewline sc = .ok sc' ∧ At sc' rest ∧ sc'.buf = sc.buf := by
  have hat : At { sc with curptr := sc.curptr + 1 + 1, line := sc.line + 1,
                          startLine := sc.curptr + 1 + 1 } rest :=
    (show At sc ([13, 10] ++ rest) from h).move (by simp)
  refine ⟨_, ?_, hat, rfl⟩
  unfold pjScanGetNewline
  rw [h.head, ok_bind]
  dsimp only
  rw [if_neg (by decide), if_pos rfl, h.charAt 1 (by simp), ok_bind]
  rfl

end Scan

/-! ## Scanning a header

A scanner with `PJ_SCAN_AUTOSKIP_WS_HEADER` skips linear white space: spaces, and a new line that
starts with a space. `HeaderAt sc rest` says that such a scanner stands before `rest`, and
`afterLws` is what it skips to; each lemma says what one operation leaves of the text.
-/

namespace Scan

open PjScanner Outcome

/-! ## White space -/

/-- The text behind an optional CR and an optional LF. -/
def afterNewline (l : List UInt8) : List UInt8 :=
  let l := if l.headD 0 = 13 then l.tail else l
  if l.headD 0 = 10 then l.tail else l

/-- The text behind a line end and the spaces after it, if the next line starts with one. -/
def afterFold (l : List UInt8) : List UInt8 :=
  if isNewline (l.headD 0) && isSpace ((afterNewline l).headD 0) then
    (afterNewline l).dropWhile isSpace
  else l

/-- The text behind linear white space. -/
def afterLws (l : List UInt8) : List UInt8 := afterFold (l.dropWhile isSpace)

theorem afterLws_of_head {c : UInt8} {l : List UInt8} (hs : isSpace c = false)
    (hn : isNewline c = false) : afterLws (c :: l) = c :: l := by
  unfold afterLws
  rw [List.dropWhile_cons_of_neg (by rw [hs]; exact Bool.false_ne_true)]
  unfold afterFold
  rw [List.headD_cons, hn, Bool.false_and, if_neg Bool.false_ne_true]

/-- Spaces are skipped. -/
theorem afterLws_spaces {w l : List UInt8} (hw : ∀ x ∈ w, isSpace x = true) :
    afterLws (w ++ l) = afterLws l := by
  unfold afterLws
  rw [List.dropWhile_append_of_pos hw]

/-! ## The scanner -/

/-- The scanner stands before `rest`, and skips linear white space. -/
structure HeaderAt (sc : PjScanner) (rest : List UInt8) : Prop where
  skipWs : sc.skipWs = 3
  cur : sc.curptr ≤ sc.buf.length
  rest : sc.buf.drop sc.curptr = rest

variable {sc : PjScanner} {rest : List UInt8}

theorem HeaderAt.skips (h : HeaderAt sc rest) : sc.skips = true := by
  unfold PjScanner.skips
  rw [h.skipWs]
  rfl

theorem drop_takeWhile {p : UInt8 → Bool} (l : List UInt8) :
    l.drop (l.takeWhile p).length = l.dropWhile p :=
  calc l.drop (l.takeWhile p).length
      = (l.takeWhile p ++ l.dropWhile p).drop (l.takeWhile p).length := by
        rw [List.takeWhile_append_dropWhile]
    _ = l.dropWhile p := List.drop_left

theorem drop_add_takeWhile {p : UInt8 → Bool} (l : List UInt8) (s : Nat) :
    l.drop (s + ((l.drop s).takeWhile p).length) = (l.drop s).dropWhile p := by
  rw [← List.drop_drop, drop_takeWhile]

theorem getD_eq_headD (l : List UInt8) (s : Nat) : l.getD s 0 = (l.drop s).headD 0 := by
  rw [List.getD_eq_getElem?_getD, List.headD_eq_head?_getD, List.head?_drop]

/-- The character under the cursor. -/
theorem HeaderAt.charAt (h : HeaderAt sc rest) : sc.charAt sc.curptr = .ok (rest.headD 0) := by
  rw [charAt_ok h.cur, getD_eq_headD, h.rest]

/-- The optional CR and LF at a place. -/
theorem drop_afterNewline (l : List UInt8) (s : Nat) :
    let s1 := if l.getD s 0 = 13 then s + 1 else s
    l.drop (if l.getD s1 0 = 10 then s1 + 1 else s1) = afterNewline (l.drop s) := by
  intro s1
  have hcr : l.drop s1 = if (l.drop s).headD 0 = 13 then (l.drop s).tail else l.drop s := by
    rw [← getD_eq_headD, List.tail_drop]
    exact apply_ite (fun n => l.drop n) _ _ _
  unfold afterNewline
  dsimp only
  rw [← hcr, ← getD_eq_headD, List.tail_drop]
  exact apply_ite (fun n => l.drop n) _ _ _

theorem HeaderAt.skipContinuation (h : HeaderAt sc rest) {s : Nat} (hs : s ≤ sc.buf.length)
    (hn : isNewline (sc.buf.getD s 0) = true) :
    ∃ sc', Scan.skipContinuation sc s = .ok sc' ∧ HeaderAt sc' (afterFold (sc.buf.drop s)) ∧
      sc'.buf = sc.buf := by
  have hdrop := drop_afterNewline sc.buf s
  have hfold : afterFold (sc.buf.drop s) =
      if isSpace ((afterNewline (sc.buf.drop s)).headD 0) then
        (afterNewline (sc.buf.drop s)).dropWhile isSpace
      else sc.buf.drop s := by
    unfold afterFold
    rw [← getD_eq_headD, hn, Bool.true_and]
  have lt : ∀ {i : Nat} {c : UInt8}, sc.buf.getD i 0 = c → c ≠ 0 → i < sc.buf.length :=
    fun hc h0 => lt_of_char_ne (hc ▸ h0)
  -- The position behind an optional CR, and then behind an optional LF.
  have h1 : (if sc.buf.getD s 0 = 13 then s + 1 else s) ≤ sc.buf.length := by
    split_ifs with hc
    · exact lt hc (by decide)
    · exact hs
  unfold Scan.skipContinuation
  dsimp only
  rw [charAt_ok (show s ≤ PjScanner.endPos { sc with curptr := s } from hs)]
  simp only [ok_bind]
  dsimp only at hdrop
  generalize (if sc.buf.getD s 0 = 13 then s + 1 else s) = s1 at h1 hdrop ⊢
  have h2 : (if sc.buf.getD s1 0 = 10 then s1 + 1 else s1) ≤ sc.buf.length := by
    split_ifs with hc
    · exact lt hc (by decide)
    · exact h1
  rw [charAt_ok (show s1 ≤ PjScanner.endPos { sc with curptr := s } from h1)]
  simp only [ok_bind]
  generalize (if sc.buf.getD s1 0 = 10 then s1 + 1 else s1) = s2 at h2 hdrop ⊢
  rw [charAt_ok (show s2 ≤ PjScanner.endPos { sc with curptr := s, startLine := s2 } from h2),
    ok_bind]
  rw [← hdrop, ← getD_eq_headD] at hfold
  dsimp only
  by_cases hsp : isSpace (sc.buf.getD s2 0) = true
  · rw [if_pos hsp] at hfold ⊢
    have h3 : s2 + 1 ≤ sc.buf.length := lt rfl fun h0 => by
      rw [h0, isSpace_zero] at hsp
      cases hsp
    have hend := run_le { sc with curptr := s, startLine := s2 } isSpace h3
    rw [skipWhile_eq { sc with curptr := s, startLine := s2 } isSpace_zero _ _ h3
      (endPos_lt_fuel _ _), ok_bind]
    refine ⟨_, rfl, ⟨h.skipWs, hend, ?_⟩, rfl⟩
    dsimp only
    rw [hfold, ← drop_add_takeWhile, ← takeWhile_drop_of (Nat.lt_of_succ_le h3) hsp]
  · rw [if_neg hsp] at hfold ⊢
    exact ⟨_, rfl, ⟨h.skipWs, hs, hfold.symm⟩, rfl⟩

/-- **`pj_scan_skip_whitespace`** skips linear white space. -/
theorem HeaderAt.skipWhitespace (h : HeaderAt sc rest) :
    ∃ sc', pjScanSkipWhitespace sc = .ok sc' ∧ HeaderAt sc' (afterLws rest) ∧ sc'.buf = sc.buf := by
  have h1 := run_le sc isSpace h.cur
  have hdrop : sc.buf.drop (sc.curptr + ((sc.buf.drop sc.curptr).takeWhile isSpace).length) =
      rest.dropWhile isSpace := by
    rw [drop_add_takeWhile, h.rest]
  unfold pjScanSkipWhitespace
  rw [skipWhile_eq sc isSpace_zero _ _ h.cur (endPos_lt_fuel _ _)]
  generalize sc.curptr + ((sc.buf.drop sc.curptr).takeWhile isSpace).length = s at h1 hdrop ⊢
  have hlines : ¬ (isNewline (sc.buf.getD s 0) = true ∧ sc.skipWs &&& 4 ≠ 0) := by
    rw [h.skipWs]
    exact fun hc => hc.2 rfl
  simp only [ok_bind, charAt_ok h1]
  rw [if_neg hlines]
  by_cases hn : isNewline (sc.buf.getD s 0) = true
  · rw [if_pos ⟨hn, by rw [h.skipWs]; decide⟩]
    have hcont := h.skipContinuation h1 hn
    rw [hdrop] at hcont
    exact hcont
  · rw [if_neg fun hc => hn hc.1]
    refine ⟨_, rfl, ⟨h.skipWs, h1, ?_⟩, rfl⟩
    show sc.buf.drop s = afterLws rest
    unfold afterLws afterFold
    rw [← hdrop, ← getD_eq_headD, Bool.eq_false_iff.mpr hn, Bool.false_and,
      if_neg Bool.false_ne_true]

theorem probablySpace_of_space {c : UInt8} (h : isSpace c = true) : isProbablySpace c = true := by
  unfold isSpace at h
  rcases Bool.or_eq_true_iff.mp h with hc | hc
  · rw [beq_iff_eq.mp hc]
    decide
  · rw [beq_iff_eq.mp hc]
    decide

theorem probablySpace_of_newline {c : UInt8} (h : isNewline c = true) :
    isProbablySpace c = true := by
  unfold isNewline at h
  rcases Bool.or_eq_true_iff.mp h with hc | hc
  · rw [beq_iff_eq.mp hc]
    decide
  · rw [beq_iff_eq.mp hc]
    decide

/-- Only a space or a newline is skipped, and NUL is neither. -/
theorem HeaderAt.autoSkip (h : HeaderAt sc rest) :
    ∃ sc', autoSkip sc true = .ok sc' ∧ HeaderAt sc' (afterLws rest) ∧ sc'.buf = sc.buf := by
  unfold Scan.autoSkip
  rw [h.charAt, ok_bind, Bool.and_true]
  by_cases hp : isProbablySpace (rest.headD 0) = true
  · rw [if_pos hp]
    exact h.skipWhitespace
  · rw [if_neg hp]
    refine ⟨sc, rfl, ?_, rfl⟩
    have hsame : afterLws rest = rest := by
      cases rest with
      | nil => rfl
      | cons c l =>
          refine afterLws_of_head ?_ ?_
          · exact Bool.eq_false_iff.mpr fun hs => hp (probablySpace_of_space hs)
          · exact Bool.eq_false_iff.mpr fun hn => hp (probablySpace_of_newline hn)
    rw [hsame]
    exact h

/-! ## Tokens -/

/-- `pj_scan_init` with `PJ_SCAN_AUTOSKIP_WS_HEADER`. -/
theorem init_headerAt (buf : List UInt8) :
    ∃ sc, pjScanInit buf 3 = .ok sc ∧ HeaderAt sc (afterLws buf) ∧ sc.buf = buf := by
  have h : HeaderAt ⟨buf, 0, 1, 0, 3⟩ buf := ⟨rfl, Nat.zero_le _, rfl⟩
  unfold pjScanInit
  dsimp only
  rw [if_pos h.skips]
  exact h.skipWhitespace

/-- The cursor moves `n` characters on, and then behind the white space. -/
theorem HeaderAt.move (h : HeaderAt sc rest) {n : Nat} (hn : n ≤ rest.length) :
    ∃ sc', Scan.autoSkip { sc with curptr := sc.curptr + n } true = .ok sc' ∧
      HeaderAt sc' (afterLws (rest.drop n)) ∧ sc'.buf = sc.buf := by
  have hlen : sc.curptr + n ≤ sc.buf.length := by
    have hcur := h.cur
    rw [← h.rest, List.length_drop] at hn
    omega
  have hat : HeaderAt { sc with curptr := sc.curptr + n } (rest.drop n) := by
    refine ⟨h.skipWs, hlen, ?_⟩
    show sc.buf.drop (sc.curptr + n) = rest.drop n
    rw [← List.drop_drop, h.rest]
  exact hat.autoSkip

/-- `pj_scan_advance_n` inside the text. -/
theorem HeaderAt.advance (h : HeaderAt sc rest) {n : Nat} (hn : n ≤ rest.length) :
    ∃ sc', pjScanAdvanceN sc n true = .ok sc' ∧ HeaderAt sc' (afterLws (rest.drop n)) ∧
      sc'.buf = sc.buf := by
  have hlen : ¬ sc.curptr + n > sc.endPos := by
    have hcur := h.cur
    rw [← h.rest, List.length_drop] at hn
    unfold endPos
    omega
  unfold pjScanAdvanceN
  rw [if_neg hlen]
  exact h.move hn

/-- `pj_scan_get_char`. -/
theorem HeaderAt.getChar {c : UInt8} (h : HeaderAt sc (c :: rest)) (hc : c ≠ 0) :
    ∃ sc', pjScanGetChar sc = .ok (sc', charVal c) ∧ HeaderAt sc' (afterLws rest) ∧
      sc'.buf = sc.buf := by
  rcases h.move (n := 1) (Nat.succ_le_succ (Nat.zero_le _)) with ⟨sc', hskip, hat, hbuf⟩
  refine ⟨sc', ?_, hat, hbuf⟩
  unfold pjScanGetChar
  rw [h.charAt, ok_bind, List.headD_cons, if_neg hc, show sc.skips = true from h.skips]
  show (Scan.autoSkip { sc with curptr := sc.curptr + 1 } true >>= fun sc =>
    pure (sc, charVal c)) = _
  rw [hskip]
  rfl

/-- At NUL and at the end there is no character. -/
theorem HeaderAt.getChar_zero (h : HeaderAt sc rest) (hc : rest.headD 0 = 0) :
    pjScanGetChar sc = .error .syntaxErr := by
  unfold pjScanGetChar
  rw [h.charAt, ok_bind]
  exact if_pos hc

/-- `pj_scan_get` takes the longest run of its set. -/
theorem HeaderAt.get (h : HeaderAt sc rest) (spec : PjCis)
    (hc : spec.mem (rest.headD 0) = true) :
    ∃ sc', pjScanGet sc spec = .ok (sc', ⟨sc.curptr, (rest.takeWhile spec.mem).length⟩) ∧
      HeaderAt sc' (afterLws (rest.dropWhile spec.mem)) ∧ sc'.buf = sc.buf := by
  have hget : sc.buf.getD sc.curptr 0 = rest.headD 0 := by
    rw [getD_eq_headD, h.rest]
  have hlt : sc.curptr < sc.buf.length := lt_of_char_ne fun h0 => by
    rw [← hget, h0, spec.mem_zero] at hc
    cases hc
  have hrun := takeWhile_drop_of (p := spec.mem) hlt (by rw [hget]; exact hc)
  rw [h.rest] at hrun
  rcases h.move (n := (rest.takeWhile spec.mem).length)
    (List.takeWhile_prefix _).length_le with ⟨sc', hskip, hat, hbuf⟩
  rw [drop_takeWhile] at hat
  refine ⟨sc', ?_, hat, hbuf⟩
  unfold pjScanGet
  rw [h.charAt, ok_bind]
  dsimp only
  rw [if_neg (by rw [hc]; exact Bool.true_eq_false.mp),
    skipWhile_eq sc spec.mem_zero _ _ hlt (endPos_lt_fuel sc _), ok_bind, ← hrun,
    show sc.skips = true from h.skips, hskip, ok_bind]
  unfold strset3
  rw [Nat.add_sub_cancel_left]
  rfl

/-- The token of a run. -/
theorem HeaderAt.text (h : HeaderAt sc rest) (spec : PjCis) :
    sc.text ⟨sc.curptr, (rest.takeWhile spec.mem).length⟩ = rest.takeWhile spec.mem := by
  unfold PjScanner.text
  rw [h.rest]
  exact (List.prefix_iff_eq_take.mp (List.takeWhile_prefix _)).symm

theorem HeaderAt.get_none (h : HeaderAt sc rest) (spec : PjCis)
    (hc : spec.mem (rest.headD 0) = false) : pjScanGet sc spec = .error .syntaxErr := by
  unfold pjScanGet
  rw [h.charAt, ok_bind]
  exact if_pos hc

/-- `pj_scan_get_newline`. -/
theorem HeaderAt.newline (h : HeaderAt sc rest) :
    if isNewline (rest.headD 0) then
      ∃ sc', pjScanGetNewline sc = .ok sc' ∧ HeaderAt sc' (afterNewline rest) ∧ sc'.buf = sc.buf
    else pjScanGetNewline sc = .error .syntaxErr := by
  have hget : sc.buf.getD sc.curptr 0 = rest.headD 0 := by
    rw [getD_eq_headD, h.rest]
  have hdrop := drop_afterNewline sc.buf sc.curptr
  rw [hget, h.rest] at hdrop
  unfold pjScanGetNewline
  rw [h.charAt, ok_bind]
  by_cases hn : isNewline (rest.headD 0) = true
  · have hlt : sc.curptr < sc.buf.length := lt_of_char_ne fun h0 => by
      rw [← hget, h0] at hn
      cases hn
    have h1 : (if rest.headD 0 = 13 then sc.curptr + 1 else sc.curptr) ≤ sc.buf.length := by
      split_ifs
      · exact hlt
      · exact hlt.le
    rw [if_pos hn]
    dsimp only at hdrop ⊢
    rw [if_neg (by rw [hn]; exact Bool.true_eq_false.mp)]
    generalize (if rest.headD 0 = 13 then sc.curptr + 1 else sc.curptr) = s1 at h1 hdrop ⊢
    rw [charAt_ok h1, ok_bind]
    refine ⟨_, rfl, ⟨h.skipWs, ?_, hdrop⟩, rfl⟩
    dsimp only
    split_ifs with hc
    · exact lt_of_char_ne (by rw [hc]; decide)
    · exact h1
  · rw [if_neg hn]
    exact if_pos (Bool.eq_false_iff.mpr hn)

end Scan
