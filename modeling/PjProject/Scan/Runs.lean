import PjProject.Scan.Cursor
import PjProject.Library.Run

set_option autoImplicit false

/-! # Whole runs of the scanner

Every operation leaves the cursor between `begin` and `end`, returns tokens inside the buffer and
reads nothing beyond the terminating NUL, with one exception: `pj_scan_get_unescape` on a `%` that
is the last byte before `end` copies two bytes, the second of them the NUL, and goes one beyond it
(`unescape_percent`). A NUL as a quote character, and a backslash as a begin quote at the very
start of the buffer, lead outside as well. `opAllowed` excludes these calls.
-/

namespace Scan

open PjScanner Outcome Machine

variable {sc : PjScanner} {s : Nat}

/-! ## Operations -/

/-- What every operation leaves: the cursor is inside the buffer, and so is the token. -/
structure Inside (len : Nat) (sc : PjScanner) (out : Option PjStr) : Prop where
  length : sc.buf.length = len
  cursor : sc.curptr ≤ len
  token : ∀ t ∈ out, t.ptr + t.slen ≤ len

/-- The only other outcome of an operation is a syntax error. -/
def OnlySyntaxErr (e : Stop) : Prop := e = .syntaxErr

theorem holds_of_never {α : Type} {Q : α → Prop} {x : Except Stop α} (h : Holds Q Never x) :
    Holds Q OnlySyntaxErr x := by
  cases x with
  | ok a => exact h
  | error e => exact absurd h id

/-- The end of an operation: the token is set and the cursor moves behind it. -/
theorem finish_spec {len c : Nat} {skip : Bool} {sc1 : PjScanner} (hlen : sc1.buf.length = len)
    (hc : c ≤ len) :
    Holds (fun sc' => Inside len sc' none) OnlySyntaxErr
      (autoSkip { sc1 with curptr := c } skip) := by
  have hcur : PjScanner.curptr { sc1 with curptr := c } ≤
      PjScanner.endPos { sc1 with curptr := c } := by
    show c ≤ sc1.buf.length
    omega
  refine (holds_of_never (autoSkip_spec hcur skip)).mono fun sc2 h2 => ?_
  have hin : sc2.curptr ≤ sc1.buf.length := h2.inside
  refine ⟨?_, by omega, by simp⟩
  rw [h2.buf]
  exact hlen

theorem finish_token_spec {len c : Nat} {skip : Bool} {sc1 : PjScanner} {out : PjStr}
    (hlen : sc1.buf.length = len) (hc : c ≤ len) (hout : out.ptr + out.slen ≤ len) :
    Holds (fun r : PjScanner × PjStr => Inside len r.1 (some r.2)) OnlySyntaxErr (do
      let sc ← autoSkip { sc1 with curptr := c } skip
      return (sc, out)) :=
  Holds.bind (finish_spec hlen hc) fun sc2 h2 =>
    Holds.pure ⟨h2.length, h2.cursor, fun t ht => by cases ht; exact hout⟩

theorem strset3_le (hs : sc.curptr ≤ s) (he : s ≤ sc.buf.length) :
    (sc.strset3 s).ptr + (sc.strset3 s).slen ≤ sc.buf.length := by
  show sc.curptr + (s - sc.curptr) ≤ sc.buf.length
  omega

theorem skipLine_spec (hcur : sc.curptr ≤ sc.buf.length) :
    Holds (fun sc' => Inside sc.buf.length sc' none) OnlySyntaxErr (pjScanSkipLine sc) := by
  have hle := run_le sc (fun c => c != 10 && c != 0) hcur
  unfold pjScanSkipLine
  rw [skipWhile_eq sc (by decide) _ _ hcur (endPos_lt_fuel _ _), ok_bind]
  generalize sc.curptr + ((sc.buf.drop sc.curptr).takeWhile
    (fun c => c != 10 && c != 0)).length = t at hle ⊢
  rw [charAt_ok hle, ok_bind]
  refine Holds.ite (fun hc => ?_) fun _ => ?_
  · have hlt : t < sc.buf.length := lt_of_char_ne (by rw [hc]; decide)
    exact ⟨rfl, hlt, by simp⟩
  · exact ⟨rfl, le_rfl, by simp⟩

theorem get_spec (hcur : sc.curptr ≤ sc.buf.length) (spec : PjCis) :
    Holds (fun r => Inside sc.buf.length r.1 (some r.2)) OnlySyntaxErr (pjScanGet sc spec) := by
  unfold pjScanGet
  rw [charAt_ok hcur, ok_bind]
  refine Holds.ite (fun _ => rfl) fun hc => ?_
  have hlt : sc.curptr < sc.buf.length := lt_of_char_ne fun h0 => by
    rw [h0] at hc
    exact hc spec.mem_zero
  rw [skipWhile_eq sc spec.mem_zero _ _ hlt (endPos_lt_fuel _ _), ok_bind]
  have hle := run_le sc spec.mem (show sc.curptr + 1 ≤ sc.endPos from hlt)
  exact finish_token_spec rfl hle (strset3_le (by omega) hle)

theorem getUnescape_spec (hcur : sc.curptr ≤ sc.buf.length) {spec : PjCis} (hspec : spec.mem 37 = false)
    (htrail : trailingPercent spec.mem (sc.buf.drop sc.curptr) = false) :
    Holds (fun r => Inside sc.buf.length r.1 (some r.2)) OnlySyntaxErr
      (pjScanGetUnescape sc spec) := by
  unfold pjScanGetUnescape
  rw [if_neg (by rw [hspec]; decide), charAt_ok hcur, ok_bind]
  refine Holds.ite (fun _ => rfl) fun _ => ?_
  have hstart : Unescaping sc sc.curptr (sc, sc.curptr, sc.curptr) :=
    ⟨rfl, rfl, rfl, hcur, le_rfl, le_rfl⟩
  refine Holds.bind (holds_of_never (unescapeLoop_spec hspec sc.fuel sc _ _ hstart
    (by unfold PjScanner.fuel; omega) htrail)) ?_
  rintro ⟨sc1, s1, dst1⟩ h1
  have hin : s1 ≤ sc.buf.length := h1.inside
  have hdst : dst1 ≤ s1 := h1.dst_le
  have hge : sc.curptr ≤ dst1 := h1.start_le
  exact finish_token_spec h1.length hin (by simp only; omega)

theorem getQuotes_spec (hcur : sc.curptr ≤ sc.buf.length) {quotes : List (UInt8 × UInt8)} (hne : quotes ≠ [])
    (hq : ∀ q ∈ quotes, q.1 ≠ 0 ∧ q.2 ≠ 0 ∧ (q.1 = 92 → sc.curptr ≠ 0)) :
    Holds (fun r => Inside sc.buf.length r.1 (some r.2)) OnlySyntaxErr
      (pjScanGetQuotes sc quotes) := by
  unfold pjScanGetQuotes
  rw [if_neg hne, charAt_ok hcur, ok_bind]
  cases hf : quotes.find? fun q => q.1 == sc.buf.getD sc.curptr 0 with
  | none => exact rfl
  | some q =>
      obtain ⟨h1, h2, h3⟩ := hq q (List.mem_of_find?_eq_some hf)
      have hbeg : q.1 = sc.buf.getD sc.curptr 0 := by simpa using List.find?_some hf
      have hlt : sc.curptr < sc.buf.length := lt_of_char_ne (hbeg ▸ h1)
      refine Holds.bind (holds_of_never (quoteLoop_spec h2 (fun h => h3 (hbeg.trans h)) sc.fuel
        (sc.curptr + 1) (by omega) hlt (endPos_lt_fuel _ _))) fun t ht => ?_
      have hend : t ≤ sc.buf.length := ht.2
      rw [charAt_ok hend, ok_bind]
      refine Holds.ite (fun _ => rfl) fun hc => ?_
      have hlt' : t < sc.buf.length := lt_of_char_ne fun h0 => hc fun h => h2 (h ▸ h0)
      exact finish_token_spec rfl hlt' (strset3_le (by have := ht.1; omega) hlt')

theorem getN_spec (n : Nat) :
    Holds (fun r => Inside sc.buf.length r.1 (some r.2)) OnlySyntaxErr (pjScanGetN sc n) := by
  unfold pjScanGetN
  refine Holds.ite (fun _ => rfl) fun hn => ?_
  have hle : sc.curptr + n ≤ sc.buf.length := by unfold endPos at hn; omega
  exact finish_token_spec rfl hle hle

theorem getChar_spec (hcur : sc.curptr ≤ sc.buf.length) :
    Holds (fun r => Inside sc.buf.length r.1 none) OnlySyntaxErr (pjScanGetChar sc) := by
  unfold pjScanGetChar
  rw [charAt_ok hcur, ok_bind]
  refine Holds.ite (fun _ => rfl) fun hc => ?_
  exact Holds.bind (finish_spec rfl (lt_of_char_ne hc)) fun sc2 h2 => Holds.pure h2

theorem getNewline_spec (hcur : sc.curptr ≤ sc.buf.length) :
    Holds (fun sc' => Inside sc.buf.length sc' none) OnlySyntaxErr (pjScanGetNewline sc) := by
  unfold pjScanGetNewline
  rw [charAt_ok hcur, ok_bind]
  refine Holds.ite (fun _ => rfl) fun hc => ?_
  have h1 : (if sc.buf.getD sc.curptr 0 = 13 then sc.curptr + 1 else sc.curptr) ≤
      sc.buf.length := by
    split_ifs with h13
    · exact lt_of_char_ne (by rw [h13]; decide)
    · exact hcur
  generalize (if sc.buf.getD sc.curptr 0 = 13 then sc.curptr + 1 else sc.curptr) = s1 at h1 ⊢
  dsimp only
  rw [charAt_ok h1, ok_bind]
  refine Holds.pure ⟨rfl, ?_, by simp⟩
  show (if sc.buf.getD s1 0 = 10 then s1 + 1 else s1) ≤ sc.buf.length
  split_ifs with h10
  · exact lt_of_char_ne (by rw [h10]; decide)
  · exact h1

theorem scanUntil_spec (hcur : sc.curptr ≤ sc.buf.length) (stop : UInt8 → Bool) :
    Holds (fun r => Inside sc.buf.length r.1 (some r.2)) OnlySyntaxErr (scanUntil sc stop) := by
  unfold scanUntil
  refine Holds.ite (fun _ => rfl) fun _ => ?_
  rw [skipWhileIn_eq sc _ _ _ hcur (endPos_lt_fuel _ _), ok_bind]
  have hle := run_le sc (fun c => !stop c) hcur
  exact finish_token_spec rfl hle (strset3_le (by omega) hle)

theorem advanceN_spec (n : Nat) (skipWs : Bool) :
    Holds (fun sc' => Inside sc.buf.length sc' none) OnlySyntaxErr
      (pjScanAdvanceN sc n skipWs) := by
  unfold pjScanAdvanceN
  refine Holds.ite (fun _ => rfl) fun hn => ?_
  exact finish_spec rfl (by unfold endPos at hn; omega)

theorem peek_spec (hcur : sc.curptr ≤ sc.buf.length) (spec : PjCis) :
    Holds (fun r => r.1.ptr + r.1.slen ≤ sc.buf.length) OnlySyntaxErr (pjScanPeek sc spec) := by
  unfold pjScanPeek
  refine Holds.ite (fun _ => rfl) fun _ => ?_
  have hle := run_le sc spec.mem hcur
  rw [skipWhile_eq sc spec.mem_zero _ _ hcur (endPos_lt_fuel _ _), ok_bind, charAt_ok hle, ok_bind]
  exact Holds.pure (strset3_le (by omega) hle)

theorem peekUntil_spec (hcur : sc.curptr ≤ sc.buf.length) (spec : PjCis) :
    Holds (fun r => r.1.ptr + r.1.slen ≤ sc.buf.length) OnlySyntaxErr
      (pjScanPeekUntil sc spec) := by
  unfold pjScanPeekUntil
  refine Holds.ite (fun _ => rfl) fun _ => ?_
  have hle := run_le sc (fun c => !spec.mem c) hcur
  rw [skipWhileIn_eq sc _ _ _ hcur (endPos_lt_fuel _ _), ok_bind, charAt_ok hle, ok_bind]
  exact Holds.pure (strset3_le (by omega) hle)

theorem peekN_spec (n : Nat) :
    Holds (fun r => r.1.ptr + r.1.slen ≤ sc.buf.length) OnlySyntaxErr (pjScanPeekN sc n) := by
  unfold pjScanPeekN
  refine Holds.ite (fun _ => rfl) fun hn => ?_
  have hle : sc.curptr + n ≤ sc.endPos := by omega
  rw [charAt_ok hle, ok_bind]
  exact Holds.pure hle

/-! ## Runs -/

/-- The operations a parser calls. -/
inductive ScanOp where
  | skipWhitespace
  | skipLine
  | peek (spec : PjCis)
  | peekN (len : Nat)
  | peekUntil (spec : PjCis)
  | get (spec : PjCis)
  | getUnescape (spec : PjCis)
  | getQuote (beginQuote endQuote : UInt8)
  | getQuotes (quotes : List (UInt8 × UInt8))
  | getN (n : Nat)
  | getChar
  | getNewline
  | getUntil (spec : PjCis)
  | getUntilCh (untilChar : Int)
  | getUntilChr (untilSpec : List UInt8)
  | advanceN (n : Nat) (skipWs : Bool)

/-- One operation: the scanner after it and the token it returns. -/
def scanOp (sc : PjScanner) : ScanOp → Except Stop (PjScanner × Option PjStr)
  | .skipWhitespace => do let sc ← pjScanSkipWhitespace sc; return (sc, none)
  | .skipLine => do let sc ← pjScanSkipLine sc; return (sc, none)
  | .peek spec => do let r ← pjScanPeek sc spec; return (sc, some r.1)
  | .peekN len => do let r ← pjScanPeekN sc len; return (sc, some r.1)
  | .peekUntil spec => do let r ← pjScanPeekUntil sc spec; return (sc, some r.1)
  | .get spec => do let r ← pjScanGet sc spec; return (r.1, some r.2)
  | .getUnescape spec => do let r ← pjScanGetUnescape sc spec; return (r.1, some r.2)
  | .getQuote b e => do let r ← pjScanGetQuote sc b e; return (r.1, some r.2)
  | .getQuotes quotes => do let r ← pjScanGetQuotes sc quotes; return (r.1, some r.2)
  | .getN n => do let r ← pjScanGetN sc n; return (r.1, some r.2)
  | .getChar => do let r ← pjScanGetChar sc; return (r.1, none)
  | .getNewline => do let sc ← pjScanGetNewline sc; return (sc, none)
  | .getUntil spec => do let r ← pjScanGetUntil sc spec; return (r.1, some r.2)
  | .getUntilCh c => do let r ← pjScanGetUntilCh sc c; return (r.1, some r.2)
  | .getUntilChr spec => do let r ← pjScanGetUntilChr sc spec; return (r.1, some r.2)
  | .advanceN n skipWs => do let sc ← pjScanAdvanceN sc n skipWs; return (sc, none)

/-- A scanner and the tokens it has returned so far. -/
structure ScanSys where
  sc : PjScanner
  tokens : List PjStr

/-- One step of a run. After a syntax error whose callback returns, the scanner is as before. -/
def scanStep (s : ScanSys) (op : ScanOp) : Except Stop ScanSys :=
  match scanOp s.sc op with
  | .ok (sc, out) => .ok ⟨sc, s.tokens ++ out.toList⟩
  | .error .syntaxErr => .ok s
  | .error e => .error e

/-- The pair of quotes can be searched for: neither is NUL, and a backslash as begin quote has a
byte before it. -/
def quoteAllowed (sc : PjScanner) (q : UInt8 × UInt8) : Prop :=
  q.1 ≠ 0 ∧ q.2 ≠ 0 ∧ (q.1 = 92 → sc.curptr ≠ 0)

instance (sc : PjScanner) (q : UInt8 × UInt8) : Decidable (quoteAllowed sc q) :=
  inferInstanceAs (Decidable (_ ∧ _ ∧ _))

/-- The condition under which the scanner stays inside its buffer: it does not unescape into a `%`
that is the last byte, and it is not asked for quotes that are NUL. -/
def opAllowed (s : ScanSys) : ScanOp → Prop
  | .getUnescape spec => spec.mem 37 = false ∧
      trailingPercent spec.mem (s.sc.buf.drop s.sc.curptr) = false
  | .getQuote b e => quoteAllowed s.sc (b, e)
  | .getQuotes quotes => quotes ≠ [] ∧ ∀ q ∈ quotes, quoteAllowed s.sc q
  | _ => True

instance (s : ScanSys) : (op : ScanOp) → Decidable (opAllowed s op)
  | .getUnescape _ => inferInstanceAs (Decidable (_ ∧ _))
  | .getQuote _ _ => inferInstanceAs (Decidable (quoteAllowed _ _))
  | .getQuotes _ => inferInstanceAs (Decidable (_ ∧ _))
  | .skipWhitespace => isTrue trivial
  | .skipLine => isTrue trivial
  | .peek _ => isTrue trivial
  | .peekN _ => isTrue trivial
  | .peekUntil _ => isTrue trivial
  | .get _ => isTrue trivial
  | .getN _ => isTrue trivial
  | .getChar => isTrue trivial
  | .getNewline => isTrue trivial
  | .getUntil _ => isTrue trivial
  | .getUntilCh _ => isTrue trivial
  | .getUntilChr _ => isTrue trivial
  | .advanceN _ _ => isTrue trivial

/-- The invariant of a run over a buffer of `len` bytes. -/
structure CursorInv (len : Nat) (s : ScanSys) : Prop where
  length : s.sc.buf.length = len
  cursor : s.sc.curptr ≤ len
  tokens : ∀ t ∈ s.tokens, t.ptr + t.slen ≤ len

/-- One allowed operation keeps the cursor and its token inside the buffer. -/
theorem scanOp_inside {s : ScanSys} (hcur : s.sc.curptr ≤ s.sc.buf.length) {op : ScanOp}
    (hop : opAllowed s op) :
    Holds (fun r => Inside s.sc.buf.length r.1 r.2) OnlySyntaxErr (scanOp s.sc op) := by
  -- an operation that returns no token, one that returns a token, and a peek
  have plain : ∀ {x : Except Stop PjScanner},
      Holds (fun sc' => Inside s.sc.buf.length sc' none) OnlySyntaxErr x →
      Holds (fun r => Inside s.sc.buf.length r.1 r.2) OnlySyntaxErr
        (do let sc ← x; return ((sc, none) : PjScanner × Option PjStr)) :=
    fun hx => hx.bind fun _ h => Holds.pure h
  have token : ∀ {x : Except Stop (PjScanner × PjStr)},
      Holds (fun r => Inside s.sc.buf.length r.1 (some r.2)) OnlySyntaxErr x →
      Holds (fun r => Inside s.sc.buf.length r.1 r.2) OnlySyntaxErr
        (do let r ← x; return ((r.1, some r.2) : PjScanner × Option PjStr)) :=
    fun hx => hx.bind fun _ h => Holds.pure h
  have peeked : ∀ {x : Except Stop (PjStr × UInt8)},
      Holds (fun r => r.1.ptr + r.1.slen ≤ s.sc.buf.length) OnlySyntaxErr x →
      Holds (fun r => Inside s.sc.buf.length r.1 r.2) OnlySyntaxErr
        (do let r ← x; return ((s.sc, some r.1) : PjScanner × Option PjStr)) :=
    fun hx => hx.bind fun _ h =>
      Holds.pure ⟨rfl, hcur, fun t ht => by cases ht; exact h⟩
  cases op with
  | skipWhitespace =>
      refine plain ((holds_of_never (skipWhitespace_spec hcur)).mono fun sc' h => ?_)
      exact ⟨by rw [h.buf], h.inside, by simp⟩
  | skipLine => exact plain (skipLine_spec hcur)
  | peek spec => exact peeked (peek_spec hcur spec)
  | peekN len => exact peeked (peekN_spec len)
  | peekUntil spec => exact peeked (peekUntil_spec hcur spec)
  | get spec => exact token (get_spec hcur spec)
  | getUnescape spec => exact token (getUnescape_spec hcur hop.1 hop.2)
  | getQuote b e =>
      exact token (getQuotes_spec hcur (by simp) fun q hq => by
        rw [List.mem_singleton.1 hq]
        exact hop)
  | getQuotes quotes => exact token (getQuotes_spec hcur hop.1 hop.2)
  | getN n => exact token (getN_spec n)
  | getChar => exact (getChar_spec hcur).bind fun _ h => Holds.pure h
  | getNewline => exact plain (getNewline_spec hcur)
  | getUntil spec => exact token (scanUntil_spec hcur _)
  | getUntilCh c => exact token (scanUntil_spec hcur _)
  | getUntilChr spec => exact token (scanUntil_spec hcur _)
  | advanceN n skipWs => exact plain (advanceN_spec n skipWs)

theorem scanStep_inv {len : Nat} (s : ScanSys) (op : ScanOp) (h : CursorInv len s)
    (hop : opAllowed s op) : ∃ s', scanStep s op = .ok s' ∧ CursorInv len s' := by
  have hcur : s.sc.curptr ≤ s.sc.buf.length := h.length ▸ h.cursor
  have hin := scanOp_inside hcur hop
  unfold scanStep
  cases hx : scanOp s.sc op with
  | error e =>
      rw [hx] at hin
      have he : e = .syntaxErr := hin
      subst he
      exact ⟨s, rfl, h⟩
  | ok r =>
      rw [hx] at hin
      have hr : Inside s.sc.buf.length r.1 r.2 := hin
      rw [h.length] at hr
      refine ⟨_, rfl, hr.length, hr.cursor, fun t ht => ?_⟩
      rcases List.mem_append.1 ht with ht | ht
      · exact h.tokens t ht
      · exact hr.token t (by simpa using ht)

theorem scanInit_inv (buf : List UInt8) (options : Nat) :
    ∃ sc, pjScanInit buf options = .ok sc ∧ CursorInv buf.length ⟨sc, []⟩ := by
  unfold pjScanInit
  set sc : PjScanner :=
    { buf := buf, curptr := 0, line := 1, startLine := 0, skipWs := options } with hsc
  have hcur : sc.curptr ≤ sc.endPos := Nat.zero_le _
  by_cases hskip : sc.skips = true
  · have h := skipWhitespace_spec hcur
    simp only [hskip, if_true]
    cases hx : pjScanSkipWhitespace sc with
    | error e => rw [hx] at h; exact absurd h id
    | ok sc' =>
        rw [hx] at h
        have hadv : Advanced sc sc' := h
        exact ⟨sc', rfl, by rw [hadv.buf], hadv.inside, by simp⟩
  · simp only [hskip, Bool.false_eq_true, if_false]
    exact ⟨sc, rfl, rfl, Nat.zero_le _, by simp⟩

/-- **The cursor of the scanner stays inside the buffer over whole runs.** From `pj_scan_init` on
any buffer and with any options, every run of allowed operations reads nothing beyond the
terminating NUL, leaves the cursor between `begin` and `end`, and returns only tokens inside the
buffer. -/
theorem scanner_run_inside (buf : List UInt8) (options : Nat) (ops : List ScanOp)
    (hok : ∀ sc, pjScanInit buf options = .ok sc → Meets scanStep opAllowed ⟨sc, []⟩ ops) :
    ∃ sc s, pjScanInit buf options = .ok sc ∧ run scanStep ⟨sc, []⟩ ops = .ok s ∧
      s.sc.buf.length = buf.length ∧ s.sc.curptr ≤ buf.length ∧
      ∀ t ∈ s.tokens, t.ptr + t.slen ≤ buf.length := by
  obtain ⟨sc, hinit, hinv⟩ := scanInit_inv buf options
  obtain ⟨s, hrun, hs⟩ := run_invariant scanStep_inv ops _ hinv (hok sc hinit)
  exact ⟨sc, s, hinit, hrun, hs.length, hs.cursor, hs.tokens⟩

/-- Letters and digits, as `pj_cis_add_alpha` and `pj_cis_add_num` make them. -/
def alnum : PjCis where
  mem c := (97 ≤ c && c ≤ 122) || (65 ≤ c && c ≤ 90) || (48 ≤ c && c ≤ 57)
  mem_zero := by decide

/-- The text `a%41b%4 "x\""` and a folded line behind it: an escape, a `%` that is not the last
byte, a quoted string with an escaped quote and a header continuation. -/
theorem scanner_run_inside_folded :
    ∃ sc s, pjScanInit [97, 37, 52, 49, 98, 37, 52, 32, 34, 120, 92, 34, 34, 13, 10, 32, 99] 3 =
        .ok sc ∧
      run scanStep ⟨sc, []⟩
        [.getUnescape alnum, .peek alnum, .getQuote 34 34, .get alnum, .getChar] = .ok s ∧
      s.sc.buf.length = 17 ∧ s.sc.curptr ≤ 17 ∧ ∀ t ∈ s.tokens, t.ptr + t.slen ≤ 17 := by
  refine scanner_run_inside
    [97, 37, 52, 49, 98, 37, 52, 32, 34, 120, 92, 34, 34, 13, 10, 32, 99] 3 _ fun sc hsc => ?_
  have hinit : pjScanInit
      [97, 37, 52, 49, 98, 37, 52, 32, 34, 120, 92, 34, 34, 13, 10, 32, 99] 3 =
      .ok ⟨[97, 37, 52, 49, 98, 37, 52, 32, 34, 120, 92, 34, 34, 13, 10, 32, 99], 0, 1, 0, 3⟩ := by
    decide
  rw [hinit] at hsc
  cases hsc
  have hmeets := checkRun_sound scanStep (fun s op => decide (opAllowed s op)) (fun _ => true)
    [.getUnescape alnum, .peek alnum, .getQuote 34 34, .get alnum, .getChar]
    ⟨⟨[97, 37, 52, 49, 98, 37, 52, 32, 34, 120, 92, 34, 34, 13, 10, 32, 99], 0, 1, 0, 3⟩, []⟩
    (by decide)
  exact Meets.mono (fun _ _ h => of_decide_eq_true h) _ _ hmeets.1

/-- On the one byte `%`, `pj_scan_get_unescape` copies the `%` and the NUL behind it: its position
is then one beyond `end`, and the next read is outside the buffer. -/
theorem unescape_percent :
    ∃ sc, pjScanInit [37] 0 = .ok sc ∧ sc.endPos = 1 ∧
      (∃ r, unescapeLoop alnum sc.fuel sc sc.curptr sc.curptr = .ok r ∧ r.2.1 = 2) ∧
      run scanStep ⟨sc, []⟩ [.getUnescape alnum] = .error .outOfBounds := by
  refine ⟨⟨[37], 0, 1, 0, 0⟩, by decide, by decide, ?_, ?_⟩
  · exact ⟨(⟨[37], 0, 1, 0, 0⟩, 2, 2), by decide, rfl⟩
  · rfl

end Scan
