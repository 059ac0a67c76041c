import PjProject.Scan.Runs
import PjProject.Sdp.Parse
import Mathlib.Data.List.ModifyLast

set_option autoImplicit false

/-! # The limits of a parsed session

`pjmedia_sdp_parse` reads a line and stores what it has read. `linesRead` are the lines up to the end
of the buffer or to the first one that is refused; every one of them moves the cursor
(`readLine_spec`), so reading comes to an end.

What is stored stays inside the arrays of a session, with one exception: the `b=` lines are stored
without a look at their number. `sdpParse_limits_iff` says that this is the only thing that can go wrong.
-/

namespace Sdp

open Outcome Scan MachineInt

/-! ## The cursor -/

/-- A scanner over `buf` that skips no whitespace by itself, with its cursor at `n` or behind it. -/
structure Behind (buf : Str) (n : Nat) (sc : PjScanner) : Prop where
  source : sc.buf = buf
  skipWs : sc.skipWs = 0
  ge : n ≤ sc.curptr
  le : sc.curptr ≤ buf.length

section

variable {buf : Str} {n m : Nat} {sc : PjScanner}

theorem Behind.mono (h : Behind buf n sc) (hm : m ≤ n) : Behind buf m sc :=
  ⟨h.source, h.skipWs, Nat.le_trans hm h.ge, h.le⟩

theorem Behind.charAt (h : Behind buf n sc) {s : Nat} (hs : s ≤ buf.length) :
    sc.charAt s = .ok (buf.getD s 0) := by
  rw [charAt_ok (by rw [PjScanner.endPos, h.source]; exact hs), h.source]

theorem autoSkip_none {sc : PjScanner} (h : sc.curptr ≤ sc.endPos) : autoSkip sc false = .ok sc := by
  unfold autoSkip
  rw [charAt_ok h, ok_bind]
  simp [Pure.pure, Except.pure]

/-- The cursor is moved, and nothing is skipped. -/
theorem Behind.move (h : Behind buf n sc) {p : Nat} (hp : m ≤ p) (hle : p ≤ buf.length)
    {skip : Bool} (hskip : skip = false) :
    autoSkip { sc with curptr := p } skip = .ok { sc with curptr := p } ∧
      Behind buf m { sc with curptr := p } := by
  refine ⟨?_, ⟨h.source, h.skipWs, hp, hle⟩⟩
  rw [hskip]
  apply autoSkip_none
  rw [PjScanner.endPos, h.source]
  exact hle

theorem Behind.skips (h : Behind buf n sc) : sc.skips = false := by
  simp [PjScanner.skips, h.skipWs]

theorem advanceN_behind (h : Behind buf n sc) (k : Nat) :
    Holds (Behind buf (n + k)) OnlySyntaxErr (pjScanAdvanceN sc k false) := by
  unfold pjScanAdvanceN
  refine Holds.ite (fun _ => rfl) fun hk => ?_
  have hge := h.ge
  rw [PjScanner.endPos, h.source] at hk
  rcases h.move (m := n + k) (p := sc.curptr + k) (by omega) (by omega) rfl with ⟨hskip, hmoved⟩
  rw [hskip]
  exact hmoved

theorem getChar_nonzero (h : Behind buf n sc) (hc : buf.getD sc.curptr 0 ≠ 0) :
    Holds (fun r => Behind buf (n + 1) r.1) Never (pjScanGetChar sc) := by
  unfold pjScanGetChar
  rw [h.charAt h.le, ok_bind, if_neg hc]
  have hge := h.ge
  have hlt := lt_of_char_ne hc
  rcases h.move (m := n + 1) (p := sc.curptr + 1) (by omega) hlt h.skips with ⟨hskip, hmoved⟩
  rw [hskip, ok_bind]
  exact hmoved

theorem getChar_behind (h : Behind buf n sc) :
    Holds (fun r => Behind buf (n + 1) r.1) OnlySyntaxErr (pjScanGetChar sc) := by
  by_cases hc : buf.getD sc.curptr 0 = 0
  · unfold pjScanGetChar
    rw [h.charAt h.le, ok_bind, if_pos hc]
    rfl
  · exact holds_of_never (getChar_nonzero h hc)

theorem Behind.skipWhile (h : Behind buf n sc) {p : UInt8 → Bool} (hp : p 0 = false) {s : Nat}
    (hn : m ≤ s) (hs : s ≤ buf.length) :
    ∃ t, sc.skipWhile p sc.fuel s = .ok t ∧ m ≤ t ∧ t ≤ buf.length := by
  have hs' : s ≤ sc.endPos := by
    rw [PjScanner.endPos, h.source]
    exact hs
  have hle := run_le sc p hs'
  rw [skipWhile_eq sc hp _ _ hs' (endPos_lt_fuel _ _)]
  rw [PjScanner.endPos, h.source] at hle
  rw [h.source]
  exact ⟨_, rfl, by omega, hle⟩

theorem Behind.skipWhileIn (h : Behind buf n sc) (p : UInt8 → Bool) :
    ∃ t, sc.skipWhileIn p sc.fuel sc.curptr = .ok t ∧ n ≤ t ∧ t ≤ buf.length := by
  have hs' : sc.curptr ≤ sc.endPos := by
    rw [PjScanner.endPos, h.source]
    exact h.le
  have hge := h.ge
  have hle := run_le sc p hs'
  rw [skipWhileIn_eq sc _ _ _ hs' (endPos_lt_fuel _ _)]
  rw [PjScanner.endPos, h.source] at hle
  rw [h.source]
  exact ⟨_, rfl, by omega, hle⟩

theorem get_behind (h : Behind buf n sc) (spec : PjCis) :
    Holds (fun r => Behind buf (n + 1) r.1) OnlySyntaxErr (pjScanGet sc spec) := by
  unfold pjScanGet
  rw [h.charAt h.le, ok_bind]
  refine Holds.ite (fun _ => rfl) fun hc => ?_
  have hge := h.ge
  have hlt : sc.curptr < buf.length := lt_of_char_ne fun h0 => by
    rw [h0] at hc
    exact hc spec.mem_zero
  rcases h.skipWhile (m := n + 1) spec.mem_zero (by omega) hlt with ⟨t, ht, hn, hle⟩
  rcases h.move hn hle h.skips with ⟨hskip, hmoved⟩
  rw [ht, ok_bind, hskip, ok_bind]
  exact hmoved

theorem scanUntil_behind (h : Behind buf n sc) (stop : UInt8 → Bool) :
    Holds (fun r => Behind buf n r.1) OnlySyntaxErr (scanUntil sc stop) := by
  unfold scanUntil
  refine Holds.ite (fun _ => rfl) fun _ => ?_
  rcases h.skipWhileIn fun c => !stop c with ⟨t, ht, hn, hle⟩
  rcases h.move hn hle h.skips with ⟨hskip, hmoved⟩
  rw [ht, ok_bind, hskip, ok_bind]
  exact hmoved

/-- The rest of the line is at least one character when there is one. -/
theorem skipLine_moved (h : Behind buf n sc) (hm : m ≤ n + 1) (hend : m ≤ buf.length) :
    Holds (Behind buf m) OnlySyntaxErr (pjScanSkipLine sc) := by
  unfold pjScanSkipLine
  rcases h.skipWhile (p := fun c => c != 10 && c != 0) rfl h.ge h.le with ⟨t, ht, hn, hle⟩
  rw [ht, ok_bind, h.charAt hle, ok_bind]
  refine Holds.ite (fun hc => ?_) fun _ => ?_
  · exact ⟨h.source, h.skipWs, Nat.le_trans hm (Nat.succ_le_succ hn),
      lt_of_char_ne (by rw [hc]; decide)⟩
  · refine ⟨h.source, h.skipWs, ?_, ?_⟩
    · simp only [PjScanner.endPos, h.source]
      exact hend
    · simp [PjScanner.endPos, h.source]

theorem skipLine_behind (h : Behind buf n sc) :
    Holds (Behind buf n) OnlySyntaxErr (pjScanSkipLine sc) :=
  skipLine_moved h (Nat.le_succ n) (Nat.le_trans h.ge h.le)

theorem getNewline_behind (h : Behind buf n sc) :
    Holds (Behind buf n) OnlySyntaxErr (pjScanGetNewline sc) := by
  unfold pjScanGetNewline
  rw [h.charAt h.le, ok_bind]
  refine Holds.ite (fun _ => rfl) fun _ => ?_
  have hge := h.ge
  have hcr : (if buf.getD sc.curptr 0 = 13 then sc.curptr + 1 else sc.curptr) ≤ buf.length := by
    split
    · exact lt_of_char_ne (by rw [‹buf.getD sc.curptr 0 = 13›]; decide)
    · exact h.le
  have hcr' : n ≤ if buf.getD sc.curptr 0 = 13 then sc.curptr + 1 else sc.curptr := by
    split
    · omega
    · exact hge
  generalize (if buf.getD sc.curptr 0 = 13 then sc.curptr + 1 else sc.curptr) = p at hcr hcr'
  dsimp only
  rw [h.charAt hcr, ok_bind]
  refine Holds.pure ⟨h.source, h.skipWs, ?_, ?_⟩
  · simp only
    split
    · omega
    · exact hcr'
  · simp only
    split
    · exact lt_of_char_ne (by rw [‹buf.getD p 0 = 10›]; decide)
    · exact hcr

/-! ## Fields -/

theorem checkEqual_ok (h : Behind buf n sc) (hlt : sc.curptr < buf.length) :
    Holds (fun _ => buf.getD (sc.curptr + 1) 0 = 61) OnlySyntaxErr (checkEqual sc) := by
  unfold checkEqual
  rw [h.charAt hlt, ok_bind]
  refine Holds.ite (fun hc => ?_) fun _ => rfl
  exact Holds.pure hc

theorem untilCh_behind (h : Behind buf n sc) (ch : Int) :
    Holds (fun r => Behind buf n r.1) OnlySyntaxErr (untilCh sc ch) :=
  Holds.bind (scanUntil_behind h _) fun _ hr => Holds.pure hr

theorem untilChr_behind (h : Behind buf n sc) (spec : Str) :
    Holds (fun r => Behind buf n r.1) OnlySyntaxErr (untilChr sc spec) :=
  Holds.bind (scanUntil_behind h _) fun _ hr => Holds.pure hr

theorem getToken_behind (h : Behind buf n sc) :
    Holds (fun r => Behind buf (n + 1) r.1) OnlySyntaxErr (getToken sc) :=
  Holds.bind (get_behind h csToken) fun _ hr => Holds.pure hr

theorem fieldAndSpace_behind (h : Behind buf n sc) :
    Holds (fun r => Behind buf n r.1) OnlySyntaxErr (fieldAndSpace sc) := by
  apply Holds.bind (untilCh_behind h 32)
  intro r hr
  apply Holds.bind (getChar_behind hr)
  intro c hc
  exact Holds.pure (hc.mono (by omega))

theorem parsePortCount_behind (h : Behind buf n sc) :
    Holds (fun r => Behind buf n r.1) OnlySyntaxErr (parsePortCount sc) := by
  unfold parsePortCount
  rw [h.charAt h.le, ok_bind]
  refine Holds.ite (fun _ => ?_) fun _ => Holds.pure h
  apply Holds.bind (getChar_behind h)
  intro r hr
  apply Holds.bind (getToken_behind hr)
  intro t ht
  exact Holds.pure (ht.mono (by omega))

theorem expectSpace_behind (h : Behind buf n sc) :
    Holds (Behind buf n) OnlySyntaxErr (expectSpace sc) := by
  apply Holds.bind (getChar_behind h)
  intro r hr
  refine Holds.ite (fun _ => ?_) fun _ => rfl
  exact Holds.pure (hr.mono (by omega))

/-- The list of formats comes to an end, and is never too long. -/
theorem parseFmts_behind (fuel : Nat) : ∀ (sc : PjScanner) (n : Nat) (fmt : List Str),
    Behind buf n sc → buf.length < n + fuel → fmt.length ≤ maxFmt →
    Holds (fun r => Behind buf n r.1 ∧ r.2.length ≤ maxFmt) OnlySyntaxErr
      (parseFmts fuel sc fmt) := by
  induction fuel with
  | zero =>
      intro sc n fmt h hfuel _
      have hge := h.ge
      have hle := h.le
      omega
  | succ fuel ih =>
      intro sc n fmt h hfuel hfmt
      unfold parseFmts
      rw [h.charAt h.le, ok_bind]
      refine Holds.ite (fun _ => ?_) fun _ => Holds.pure ⟨h, hfmt⟩
      apply Holds.bind (getChar_behind h)
      intro r hr
      rw [hr.charAt hr.le, ok_bind]
      refine Holds.ite (fun _ => Holds.pure ⟨hr.mono (by omega), hfmt⟩) fun _ => ?_
      apply Holds.bind (getToken_behind hr)
      intro t ht
      have hfmt' : (if fmt.length < maxFmt then fmt ++ [t.2] else fmt).length ≤ maxFmt := by
        split
        · rw [List.length_append]
          simpa using ‹fmt.length < maxFmt›
        · exact hfmt
      apply (ih t.1 (n + 1 + 1) _ ht (by omega) hfmt').mono
      rintro r ⟨hr, hlen⟩
      exact ⟨hr.mono (by omega), hlen⟩

theorem skipColon_behind (h : Behind buf n sc) :
    Holds (Behind buf n) OnlySyntaxErr (skipColon sc) := by
  unfold skipColon
  rw [h.charAt h.le, ok_bind]
  refine Holds.ite (fun _ => ?_) fun _ => Holds.pure h
  apply Holds.bind (getChar_behind h)
  intro r hr
  exact Holds.pure (hr.mono (by omega))

theorem parseAttrValue_behind (h : Behind buf n sc) :
    Holds (fun r => Behind buf n r.1) OnlySyntaxErr (parseAttrValue sc) := by
  unfold parseAttrValue
  rw [h.charAt h.le, ok_bind]
  refine Holds.ite (fun _ => ?_) fun _ => Holds.pure h
  apply Holds.bind (skipColon_behind h)
  intro sc' h'
  rw [h'.charAt h'.le, ok_bind]
  exact Holds.ite (fun _ => untilChr_behind h' _) fun _ => Holds.pure h'

/-! ## Line parsers -/

/-- The first two characters of a line. -/
theorem lineStart_behind (h : Behind buf n sc) (hlt : sc.curptr < buf.length) {α : Type}
    {f : PjScanner → Except Stop α} {Q : α → Prop}
    (hf : ∀ sc', Behind buf (n + 1) sc' → Holds Q OnlySyntaxErr (f sc')) :
    Holds Q OnlySyntaxErr (do
      checkEqual sc
      let sc ← pjScanAdvanceN sc 2 false
      f sc) := by
  apply Holds.bind (checkEqual_ok h hlt)
  intro _ _
  apply Holds.bind (advanceN_behind h 2)
  intro sc' h'
  exact hf sc' (h'.mono (by omega))

theorem parseVersion_behind (h : Behind buf n sc) (hlt : sc.curptr < buf.length) :
    Holds (Behind buf (n + 1)) OnlySyntaxErr (parseVersion sc) := by
  apply Holds.bind (checkEqual_ok h hlt)
  intro _ heq
  have hlt' : sc.curptr + 1 < buf.length := lt_of_char_ne (by rw [heq]; decide)
  have hge := h.ge
  rw [h.charAt hlt', ok_bind]
  refine Holds.ite (fun _ => ?_) fun _ => rfl
  exact skipLine_moved h (Nat.le_refl _) (by omega)

theorem parseOrigin_behind (h : Behind buf n sc) (hlt : sc.curptr < buf.length) :
    Holds (fun r => Behind buf (n + 1) r.1) OnlySyntaxErr (parseOrigin sc) := by
  apply lineStart_behind h hlt
  intro sc' h'
  apply Holds.bind (fieldAndSpace_behind h')
  intro user huser
  apply Holds.bind (fieldAndSpace_behind huser)
  intro id hid
  apply Holds.bind (fieldAndSpace_behind hid)
  intro version hversion
  apply Holds.bind (fieldAndSpace_behind hversion)
  intro netType hnet
  apply Holds.bind (fieldAndSpace_behind hnet)
  intro addrType htype
  apply Holds.bind (untilChr_behind htype _)
  intro addr haddr
  exact Holds.bind (skipLine_behind haddr) fun _ hs => Holds.pure hs

theorem parseTime_behind (h : Behind buf n sc) (hlt : sc.curptr < buf.length) :
    Holds (fun r => Behind buf (n + 1) r.1) OnlySyntaxErr (parseTime sc) := by
  apply lineStart_behind h hlt
  intro sc' h'
  apply Holds.bind (fieldAndSpace_behind h')
  intro start hstart
  apply Holds.bind (untilChr_behind hstart _)
  intro stop hstop
  exact Holds.bind (skipLine_behind hstop) fun _ hs => Holds.pure hs

theorem parseGenericLine_behind (h : Behind buf n sc) (hlt : sc.curptr < buf.length) :
    Holds (fun r => Behind buf (n + 1) r.1) OnlySyntaxErr (parseGenericLine sc) := by
  apply lineStart_behind h hlt
  intro sc' h'
  apply Holds.bind (untilChr_behind h' _)
  intro s hs
  exact Holds.bind (getNewline_behind hs) fun _ hs => Holds.pure hs

theorem parseConnectionInfo_behind (h : Behind buf n sc) :
    Holds (fun r => Behind buf (n + 1) r.1) OnlySyntaxErr (parseConnectionInfo sc) := by
  apply Holds.bind (advanceN_behind h 2)
  intro sc' h'
  apply Holds.bind (fieldAndSpace_behind h')
  intro netType hnet
  apply Holds.bind (fieldAndSpace_behind hnet)
  intro addrType htype
  apply Holds.bind (untilChr_behind htype _)
  intro addr haddr
  apply Holds.bind (skipLine_behind haddr)
  intro sc'' hs
  exact Holds.pure (hs.mono (by omega))

theorem parseBandwidthInfo_behind (h : Behind buf n sc) :
    Holds (fun r => Behind buf (n + 1) r.1) OnlySyntaxErr (parseBandwidthInfo sc) := by
  apply Holds.bind (advanceN_behind h 2)
  intro sc' h'
  apply Holds.bind (untilCh_behind h' 58)
  intro modifier hmod
  apply Holds.bind (getChar_behind hmod)
  intro c hc
  apply Holds.bind (untilChr_behind hc _)
  intro value hvalue
  apply Holds.bind (skipLine_behind hvalue)
  intro sc'' hs
  exact Holds.pure (hs.mono (by omega))

theorem parseMedia_behind (h : Behind buf n sc) (hlt : sc.curptr < buf.length) :
    Holds (fun r => Behind buf (n + 1) r.1 ∧ r.2.fmt.length ≤ maxFmt) OnlySyntaxErr
      (parseMedia sc) := by
  apply lineStart_behind h hlt
  intro sc' h'
  apply Holds.bind (fieldAndSpace_behind h')
  intro media hmedia
  apply Holds.bind (getToken_behind hmedia)
  intro port hport
  apply Holds.bind (parsePortCount_behind hport)
  intro count hcount
  apply Holds.bind (expectSpace_behind hcount)
  intro sc1 h1
  apply Holds.bind (untilChr_behind h1 _)
  intro transport htransport
  have hfuel : buf.length < n + 1 + 1 + transport.1.fuel := by
    unfold PjScanner.fuel
    rw [htransport.source]
    omega
  apply Holds.bind (parseFmts_behind _ _ _ [] htransport hfuel (Nat.zero_le _))
  rintro fmt ⟨hfmt, hlen⟩
  apply Holds.bind (skipLine_behind hfmt)
  intro sc2 h2
  exact Holds.pure ⟨h2.mono (by omega), hlen⟩

theorem parseAttr_behind (h : Behind buf n sc) (hlt : sc.curptr < buf.length) :
    Holds (fun r => Behind buf (n + 1) r.1) OnlySyntaxErr (parseAttr sc) := by
  apply lineStart_behind h hlt
  intro sc' h'
  apply Holds.bind (getToken_behind h')
  intro name hname
  apply Holds.bind (parseAttrValue_behind hname)
  intro value hvalue
  apply Holds.bind (skipLine_behind hvalue)
  intro sc'' hs
  exact Holds.pure (hs.mono (by omega))

theorem trailingNewlines_behind (fuel : Nat) : ∀ (sc : PjScanner) (n : Nat),
    Behind buf n sc → buf.length < n + fuel →
    Holds (Behind buf n) OnlySyntaxErr (trailingNewlines fuel sc) := by
  induction fuel with
  | zero =>
      intro sc n h hfuel
      have hge := h.ge
      have hle := h.le
      omega
  | succ fuel ih =>
      intro sc n h hfuel
      unfold trailingNewlines
      refine Holds.ite (fun _ => h) fun _ => ?_
      rw [h.charAt h.le, ok_bind]
      refine Holds.ite (fun _ => rfl) fun _ => ?_
      apply Holds.bind (getChar_behind h)
      intro r hr
      apply (ih r.1 (n + 1) hr (by omega)).mono
      intro sc' h'
      exact h'.mono (by omega)

/-- A newline in front of the message never leads to an error. -/
theorem leadingNewlines_behind (fuel : Nat) : ∀ (sc : PjScanner) (n : Nat),
    Behind buf n sc → buf.length < n + fuel →
    Holds (Behind buf n) Never (leadingNewlines fuel sc) := by
  induction fuel with
  | zero =>
      intro sc n h hfuel
      have hge := h.ge
      have hle := h.le
      omega
  | succ fuel ih =>
      intro sc n h hfuel
      unfold leadingNewlines
      rw [h.charAt h.le, ok_bind]
      refine Holds.ite (fun hc => ?_) fun _ => Holds.pure h
      have hne : buf.getD sc.curptr 0 ≠ 0 := by
        rcases hc with hc | hc
        · rw [hc]
          decide
        · rw [hc]
          decide
      apply Holds.bind (getChar_nonzero h hne)
      intro r hr
      apply (ih r.1 (n + 1) hr (by omega)).mono
      intro sc' h'
      exact h'.mono (by omega)

end

/-! ## Lines -/

/-- What a line of a session description is. -/
inductive SdpLine where
  | attr (a : Attr)
  | origin (o : Origin)
  | name (s : Str)
  | conn (c : Conn)
  | time (start stop : Nat)
  | media (d : MediaDesc)
  | bandw (b : Bandw)
  -- a version, newlines at the end, or a line of another type
  | other
  deriving DecidableEq

/-- A line is read. -/
def readLine (sc : PjScanner) : Except ParseStop (PjScanner × SdpLine) := do
  let c ← onLine .einsdp (sc.charAt sc.curptr)
  if c = 97 then
    let r ← onLine .einattr (parseAttr sc)
    return (r.1, .attr r.2)
  else if c = 111 then
    let r ← onLine .einorigin (parseOrigin sc)
    return (r.1, .origin r.2)
  else if c = 115 then
    let r ← onLine .einsdp (parseGenericLine sc)
    return (r.1, .name r.2)
  else if c = 99 then
    let r ← onLine .einconn (parseConnectionInfo sc)
    return (r.1, .conn r.2)
  else if c = 116 then
    let r ← onLine .eintime (parseTime sc)
    return (r.1, .time r.2.1 r.2.2)
  else if c = 109 then
    let r ← onLine .einmedia (parseMedia sc)
    return (r.1, .media r.2)
  else if c = 118 then
    let sc ← onLine .einver (parseVersion sc)
    return (sc, .other)
  else if c = 13 ∨ c = 10 then
    let r ← onLine .einsdp (pjScanGetChar sc)
    let sc ← onLine .einsdp (trailingNewlines r.1.fuel r.1)
    return (sc, .other)
  else if c = 98 then
    let r ← onLine .einbandw (parseBandwidthInfo sc)
    return (r.1, .bandw r.2)
  else if 97 ≤ c ∧ c ≤ 122 then
    let r ← onLine .einsdp (parseGenericLine sc)
    return (r.1, .other)
  else .error (.status .einsdp)

/-- What has been read is stored. -/
def ParseState.store (st : ParseState) : SdpLine → Except ParseStop ParseState
  | .attr a => .ok (st.addAttr a)
  | .origin o => .ok { st with session := { st.session with origin := o } }
  | .name s => .ok { st with session := { st.session with name := s } }
  | .conn c => .ok (st.setConn c)
  | .time start stop => .ok { st with session := { st.session with start := start, stop := stop } }
  | .media d => .ok (st.addMedia d)
  | .bandw b => st.addBandw b
  | .other => .ok st

theorem ite_bind_eq {ε α β : Type} {c : Prop} [Decidable c] {x y : Except ε α}
    {f : α → Except ε β} {x' y' : Except ε β} (hx : x' = x >>= f) (hy : y' = y >>= f) :
    (if c then x' else y') = (if c then x else y) >>= f := by
  split
  · exact hx
  · exact hy

/-- A line is read and then stored. -/
theorem parseLine_eq (sc : PjScanner) (st : ParseState) :
    parseLine sc st = (do
      let r ← readLine sc
      let st ← st.store r.2
      return (r.1, st)) := by
  unfold parseLine readLine
  rw [bind_assoc]
  congr 1
  funext c
  -- one case for each kind of line
  apply ite_bind_eq
  · rw [bind_assoc]
    rfl
  apply ite_bind_eq
  · rw [bind_assoc]
    rfl
  apply ite_bind_eq
  · rw [bind_assoc]
    rfl
  apply ite_bind_eq
  · rw [bind_assoc]
    rfl
  apply ite_bind_eq
  · rw [bind_assoc]
    rfl
  apply ite_bind_eq
  · rw [bind_assoc]
    rfl
  apply ite_bind_eq
  · rw [bind_assoc]
    rfl
  apply ite_bind_eq
  · rw [bind_assoc]
    congr 1
    funext r
    rw [bind_assoc]
    rfl
  apply ite_bind_eq
  · rw [bind_assoc]
    rfl
  apply ite_bind_eq
  · rw [bind_assoc]
    rfl
  · rfl

/-- An error of a line. -/
def IsStatus (e : ParseStop) : Prop := ∃ s, e = .status s

theorem onLine_spec {α : Type} {Q : α → Prop} {x : Except Stop α} (e : Status)
    (h : Holds Q OnlySyntaxErr x) : Holds Q IsStatus (onLine e x) := by
  cases x with
  | ok a => exact h
  | error s =>
      cases h
      exact ⟨e, rfl⟩

section

variable {buf : Str} {n : Nat} {sc : PjScanner}

/-- The formats of a line fit a media description. -/
def SdpLine.FmtsFit : SdpLine → Prop
  | .media d => d.fmt.length ≤ maxFmt
  | _ => True

/-- A line moves the cursor, or it is refused. -/
theorem readLine_spec (h : Behind buf n sc) (hlt : sc.curptr < buf.length) :
    Holds (fun r => Behind buf (n + 1) r.1 ∧ r.2.FmtsFit) IsStatus (readLine sc) := by
  unfold readLine
  have hc : onLine .einsdp (sc.charAt sc.curptr) = .ok (buf.getD sc.curptr 0) := by
    rw [h.charAt h.le]
    rfl
  rw [hc, ok_bind]
  refine Holds.ite (fun _ => ?_) fun _ => ?_
  · exact Holds.bind (onLine_spec _ (parseAttr_behind h hlt)) fun _ hr => Holds.pure ⟨hr, trivial⟩
  refine Holds.ite (fun _ => ?_) fun _ => ?_
  · exact Holds.bind (onLine_spec _ (parseOrigin_behind h hlt)) fun _ hr => Holds.pure ⟨hr, trivial⟩
  refine Holds.ite (fun _ => ?_) fun _ => ?_
  · exact Holds.bind (onLine_spec _ (parseGenericLine_behind h hlt))
      fun _ hr => Holds.pure ⟨hr, trivial⟩
  refine Holds.ite (fun _ => ?_) fun _ => ?_
  · exact Holds.bind (onLine_spec _ (parseConnectionInfo_behind h))
      fun _ hr => Holds.pure ⟨hr, trivial⟩
  refine Holds.ite (fun _ => ?_) fun _ => ?_
  · exact Holds.bind (onLine_spec _ (parseTime_behind h hlt)) fun _ hr => Holds.pure ⟨hr, trivial⟩
  refine Holds.ite (fun _ => ?_) fun _ => ?_
  · exact Holds.bind (onLine_spec _ (parseMedia_behind h hlt)) fun _ hr => Holds.pure hr
  refine Holds.ite (fun _ => ?_) fun _ => ?_
  · exact Holds.bind (onLine_spec _ (parseVersion_behind h hlt))
      fun _ hr => Holds.pure ⟨hr, trivial⟩
  refine Holds.ite (fun _ => ?_) fun _ => ?_
  · apply Holds.bind (onLine_spec _ (getChar_behind h))
    intro r hr
    have hfuel : buf.length < n + 1 + r.1.fuel := by
      unfold PjScanner.fuel
      rw [hr.source]
      omega
    exact Holds.bind (onLine_spec _ (trailingNewlines_behind _ _ _ hr hfuel))
      fun _ hr => Holds.pure ⟨hr, trivial⟩
  refine Holds.ite (fun _ => ?_) fun _ => ?_
  · exact Holds.bind (onLine_spec _ (parseBandwidthInfo_behind h))
      fun _ hr => Holds.pure ⟨hr, trivial⟩
  refine Holds.ite (fun _ => ?_) fun _ => ⟨_, rfl⟩
  exact Holds.bind (onLine_spec _ (parseGenericLine_behind h hlt))
    fun _ hr => Holds.pure ⟨hr, trivial⟩

end

/-! ## Storing -/

/-- The counts of a media description are within the arrays. -/
structure Media.Fits (m : Media) : Prop where
  fmt : m.desc.fmt.length ≤ maxFmt
  bandw : m.bandw.length ≤ maxBandw
  attr : m.attr.length ≤ maxAttr

/-- The counts of a session are within the arrays. -/
structure Session.Fits (s : Session) : Prop where
  media : s.media.length ≤ maxMedia
  bandw : s.bandw.length ≤ maxBandw
  attr : s.attr.length ≤ maxAttr
  each : ∀ m ∈ s.media, m.Fits

/-- The counts of what has been stored, and of a media line that is ignored. -/
structure ParseState.Fits (st : ParseState) : Prop where
  session : st.session.Fits
  last : st.target = .media → st.session.media ≠ []
  ignored : ∀ m, st.target = .ignored m → m.Fits

def SdpLine.isBandw : SdpLine → Bool
  | .bandw _ => true
  | _ => false

def SdpLine.isMedia : SdpLine → Bool
  | .media _ => true
  | _ => false

/-- The number of `b=` lines of the section after a line. -/
def SdpLine.next (n : Nat) : SdpLine → Nat
  | .bandw _ => n + 1
  | .media _ => 0
  | _ => n

theorem attrAdd_fits {l : List Attr} (h : l.length ≤ maxAttr) (a : Attr) :
    (attrAdd l a).length ≤ maxAttr := by
  unfold attrAdd
  split
  · rw [List.length_append]
    simpa using ‹l.length < maxAttr›
  · exact h

theorem Media.Fits.addAttr {m : Media} (h : m.Fits) (a : Attr) : (m.addAttr a).Fits :=
  ⟨h.fmt, h.bandw, attrAdd_fits h.attr a⟩

/-- What storing a line has to leave. -/
structure Stored (st' : ParseState) (n : Nat) : Prop where
  fits : st'.Fits
  count : st'.bandw.length = n

section

variable {st : ParseState}

/-- The last media line is changed. -/
theorem ParseState.Fits.onMedia (h : st.Fits) (ht : st.target = .media) {f : Media → Media}
    {g : Nat → Nat} (hf : ∀ m, m.Fits → st.bandw = m.bandw → (f m).Fits)
    (hg : ∀ m, (f m).bandw.length = g m.bandw.length) :
    Stored (st.onMedia f) (g st.bandw.length) := by
  rcases List.eq_nil_or_concat st.session.media with hnil | ⟨l, m, hlm⟩
  · exact absurd hnil (h.last ht)
  · have hmedia : (st.onMedia f).session.media = l ++ [f m] := by
      simp [ParseState.onMedia, hlm, List.modifyLast_concat]
    have htarget : (st.onMedia f).target = .media := ht
    have hbandw : st.bandw = m.bandw := by simp [ParseState.bandw, ht, hlm]
    have hm : m.Fits := h.session.each m (by simp [hlm])
    refine ⟨⟨⟨?_, h.session.bandw, h.session.attr, ?_⟩, ?_, ?_⟩, ?_⟩
    · have hlen := h.session.media
      rw [hlm] at hlen
      rw [hmedia]
      simpa using hlen
    · intro m' hm'
      rw [hmedia, List.mem_append, List.mem_singleton] at hm'
      rcases hm' with hm' | rfl
      · exact h.session.each m' (by simp [hlm, hm'])
      · exact hf m hm hbandw
    · intro _
      simp [hmedia]
    · intro m' hm'
      rw [htarget] at hm'
      cases hm'
    · rw [hbandw, ← hg m]
      simp [ParseState.bandw, htarget, hmedia]

theorem ParseState.Fits.addAttr (h : st.Fits) (a : Attr) :
    Stored (st.addAttr a) st.bandw.length := by
  unfold ParseState.addAttr
  cases ht : st.target with
  | session =>
      refine ⟨⟨⟨h.session.media, h.session.bandw, attrAdd_fits h.session.attr a, h.session.each⟩,
        nofun, nofun⟩, ?_⟩
      simp [ParseState.bandw, ht]
  | media => exact h.onMedia ht (g := id) (fun m hm _ => hm.addAttr a) fun _ => rfl
  | ignored m =>
      refine ⟨⟨h.session, nofun, ?_⟩, ?_⟩
      · intro m' hm'
        cases hm'
        exact (h.ignored m ht).addAttr a
      · simp [ParseState.bandw, ht, Media.addAttr]

theorem ParseState.Fits.setConn (h : st.Fits) (c : Conn) :
    Stored (st.setConn c) st.bandw.length := by
  unfold ParseState.setConn
  cases ht : st.target with
  | session =>
      refine ⟨⟨⟨h.session.media, h.session.bandw, h.session.attr, h.session.each⟩, nofun, nofun⟩, ?_⟩
      simp [ParseState.bandw, ht]
  | media =>
      exact h.onMedia ht (g := id) (fun m hm _ => ⟨hm.fmt, hm.bandw, hm.attr⟩) fun _ => rfl
  | ignored m =>
      have hm := h.ignored m ht
      refine ⟨⟨h.session, nofun, ?_⟩, ?_⟩
      · intro m' hm'
        cases hm'
        exact ⟨hm.fmt, hm.bandw, hm.attr⟩
      · simp [ParseState.bandw, ht]

theorem ParseState.Fits.addMedia (h : st.Fits) {d : MediaDesc} (hd : d.fmt.length ≤ maxFmt) :
    Stored (st.addMedia d) 0 := by
  have hm : (⟨d, none, [], []⟩ : Media).Fits := ⟨hd, Nat.zero_le _, Nat.zero_le _⟩
  unfold ParseState.addMedia
  dsimp only
  split
  · refine ⟨⟨⟨?_, h.session.bandw, h.session.attr, ?_⟩, ?_, nofun⟩, ?_⟩
    · rw [List.length_append]
      simpa using ‹st.session.media.length < maxMedia›
    · intro m hmem
      rcases List.mem_append.mp hmem with hmem | hmem
      · exact h.session.each m hmem
      · rcases List.mem_singleton.mp hmem with rfl
        exact hm
    · intro _
      simp
    · simp [ParseState.bandw]
  · refine ⟨⟨h.session, nofun, ?_⟩, ?_⟩
    · intro m' hm'
      cases hm'
      exact hm
    · simp [ParseState.bandw]

/-- The store without a check. -/
theorem ParseState.Fits.addBandw (h : st.Fits) (b : Bandw) :
    (st.bandw.length < maxBandw ∧
        ∃ st', st.addBandw b = .ok st' ∧ Stored st' (st.bandw.length + 1)) ∨
      (maxBandw ≤ st.bandw.length ∧ st.addBandw b = .error (.scanner .outOfBounds)) := by
  by_cases hroom : st.bandw.length < maxBandw
  · left
    refine ⟨hroom, _, if_pos hroom, ?_⟩
    cases ht : st.target with
    | session =>
        have hb : st.bandw = st.session.bandw := by simp [ParseState.bandw, ht]
        rw [hb] at hroom ⊢
        refine ⟨⟨⟨h.session.media, ?_, h.session.attr, h.session.each⟩, nofun, nofun⟩, ?_⟩
        · simpa using hroom
        · simp [ParseState.bandw]
    | media =>
        apply h.onMedia ht (g := (· + 1))
        · intro m hm hb
          rw [hb] at hroom
          exact ⟨hm.fmt, by simpa using hroom, hm.attr⟩
        · intro m
          simp
    | ignored m =>
        have hm := h.ignored m ht
        have hb : st.bandw = m.bandw := by simp [ParseState.bandw, ht]
        rw [hb] at hroom ⊢
        refine ⟨⟨h.session, nofun, ?_⟩, ?_⟩
        · intro m' hm'
          cases hm'
          exact ⟨hm.fmt, by simpa using hroom, hm.attr⟩
        · simp [ParseState.bandw]
  · right
    exact ⟨by omega, if_neg hroom⟩

/-- A line is stored, unless it is a `b=` line too many. -/
theorem ParseState.Fits.store (h : st.Fits) {l : SdpLine} (hl : l.FmtsFit) :
    (∃ st', st.store l = .ok st' ∧ Stored st' (l.next st.bandw.length)) ∨
      (l.isBandw = true ∧ maxBandw ≤ st.bandw.length ∧
        st.store l = .error (.scanner .outOfBounds)) := by
  cases l with
  | attr a => exact .inl ⟨_, rfl, h.addAttr a⟩
  | origin o =>
      have hs : Session.Fits { st.session with origin := o } :=
        ⟨h.session.media, h.session.bandw, h.session.attr, h.session.each⟩
      exact .inl ⟨_, rfl, ⟨hs, h.last, h.ignored⟩, rfl⟩
  | name s =>
      have hs : Session.Fits { st.session with name := s } :=
        ⟨h.session.media, h.session.bandw, h.session.attr, h.session.each⟩
      exact .inl ⟨_, rfl, ⟨hs, h.last, h.ignored⟩, rfl⟩
  | conn c => exact .inl ⟨_, rfl, h.setConn c⟩
  | time start stop =>
      have hs : Session.Fits { st.session with start := start, stop := stop } :=
        ⟨h.session.media, h.session.bandw, h.session.attr, h.session.each⟩
      exact .inl ⟨_, rfl, ⟨hs, h.last, h.ignored⟩, rfl⟩
  | media d => exact .inl ⟨_, rfl, h.addMedia hl⟩
  | bandw b =>
      rcases h.addBandw b with ⟨-, st', hst, hstored⟩ | ⟨hfull, hst⟩
      · exact .inl ⟨st', hst, hstored⟩
      · exact .inr ⟨rfl, hfull, hst⟩
  | other => exact .inl ⟨st, rfl, h, rfl⟩

theorem ParseState.Fits.bandw_le (h : st.Fits) : st.bandw.length ≤ maxBandw := by
  unfold ParseState.bandw
  cases ht : st.target with
  | session => exact h.session.bandw
  | media =>
      cases hlast : st.session.media.getLast? with
      | none => simp
      | some m =>
          have hm := h.session.each m (List.mem_of_getLast? hlast)
          simpa using hm.bandw
  | ignored m => exact (h.ignored m ht).bandw

end

/-! ## Sections -/

/-- No section of the lines, that is the session or one of the media descriptions, has more `b=`
lines than the array has elements. -/
def SectionsFit (lines : List SdpLine) : Prop :=
  ∀ sec ∈ lines.splitOnP SdpLine.isMedia, sec.countP SdpLine.isBandw ≤ maxBandw

/-- The same behind `n` lines of the first section. -/
def SectionsFrom (n : Nat) (lines : List SdpLine) : Prop :=
  ∀ first rest, lines.splitOnP SdpLine.isMedia = first :: rest →
    n + first.countP SdpLine.isBandw ≤ maxBandw ∧
      ∀ sec ∈ rest, sec.countP SdpLine.isBandw ≤ maxBandw

section

variable {n : Nat} {l : SdpLine} {ls : List SdpLine} {st : ParseState}

theorem splitOnP_exists (ls : List SdpLine) :
    ∃ first rest, ls.splitOnP SdpLine.isMedia = first :: rest :=
  List.exists_cons_of_ne_nil (List.splitOnP_ne_nil SdpLine.isMedia ls)

theorem sectionsFrom_zero : SectionsFrom 0 ls ↔ SectionsFit ls := by
  rcases splitOnP_exists ls with ⟨first, rest, hsplit⟩
  unfold SectionsFrom SectionsFit
  rw [hsplit]
  simp

theorem SectionsFrom.le (h : SectionsFrom n ls) : n ≤ maxBandw := by
  rcases splitOnP_exists ls with ⟨first, rest, hsplit⟩
  have hfirst := (h first rest hsplit).1
  omega

/-- One line more. -/
theorem sectionsFrom_cons (hn : n ≤ maxBandw) :
    SectionsFrom n (l :: ls) ↔ SectionsFrom (l.next n) ls := by
  rcases splitOnP_exists ls with ⟨first, rest, hsplit⟩
  unfold SectionsFrom
  cases l with
  | media d =>
      have hmedia : SdpLine.isMedia (.media d) = true := rfl
      simp [List.splitOnP_cons_eq_if_modifyHead, hmedia, hsplit, SdpLine.next, hn]
  | bandw b =>
      have hmedia : SdpLine.isMedia (.bandw b) = false := rfl
      have hbandw : SdpLine.isBandw (.bandw b) = true := rfl
      simp [List.splitOnP_cons_eq_if_modifyHead, hmedia, hsplit, SdpLine.next, hbandw]
      omega
  | _ =>
      simp [List.splitOnP_cons_eq_if_modifyHead, SdpLine.isMedia, hsplit, SdpLine.next,
        SdpLine.isBandw]

/-- Lines are stored one after the other. -/
def storeAll : List SdpLine → ParseState → Except ParseStop ParseState
  | [], st => .ok st
  | l :: ls, st => do
      let st ← st.store l
      storeAll ls st

/-- Storing goes well if and only if the sections fit. -/
theorem storeAll_spec (ls : List SdpLine) : ∀ st : ParseState, st.Fits → (∀ l ∈ ls, l.FmtsFit) →
    (SectionsFrom st.bandw.length ls ∧ ∃ st', storeAll ls st = .ok st' ∧ st'.Fits) ∨
      (¬ SectionsFrom st.bandw.length ls ∧
        storeAll ls st = .error (.scanner .outOfBounds)) := by
  induction ls with
  | nil =>
      intro st h _
      left
      refine ⟨?_, st, rfl, h⟩
      intro first rest hsplit
      cases hsplit
      exact ⟨h.bandw_le, nofun⟩
  | cons l ls ih =>
      intro st h hfmts
      rw [sectionsFrom_cons h.bandw_le]
      rcases h.store (hfmts l List.mem_cons_self) with ⟨st', hst, hstored⟩ | ⟨hl, hfull, hst⟩
      · have hrest := ih st' hstored.fits fun l' hl' => hfmts l' (List.mem_cons_of_mem l hl')
        rw [hstored.count] at hrest
        simp only [storeAll, hst, ok_bind]
        exact hrest
      · right
        refine ⟨fun hfit => ?_, by simp only [storeAll, hst]; rfl⟩
        have hle := hfit.le
        cases l with
        | bandw b =>
            simp only [SdpLine.next] at hle
            omega
        | _ => cases hl

end

/-! ## The message -/

/-- The lines up to the end, or to the first one that is refused, and how reading stops there. -/
def readLines : Nat → PjScanner → List SdpLine × Option ParseStop
  | 0, _ => ([], some (.scanner .diverges))
  | fuel + 1, sc =>
      if sc.curptr ≥ sc.endPos then ([], none)
      else
        match readLine sc with
        | .error e => ([], some e)
        | .ok r => (r.2 :: (readLines fuel r.1).1, (readLines fuel r.1).2)

/-- How reading stops. -/
def stopAt {α : Type} (stop : Option ParseStop) (a : α) : Except ParseStop α :=
  match stop with
  | none => .ok a
  | some e => .error e

theorem parseLoop_eq (fuel : Nat) : ∀ (sc : PjScanner) (st : ParseState),
    parseLoop fuel sc st =
      storeAll (readLines fuel sc).1 st >>= stopAt (readLines fuel sc).2 := by
  induction fuel with
  | zero =>
      intro sc st
      rfl
  | succ fuel ih =>
      intro sc st
      unfold parseLoop readLines
      by_cases heof : sc.curptr ≥ sc.endPos
      · rw [if_pos heof, if_pos heof]
        rfl
      · rw [if_neg heof, if_neg heof, parseLine_eq]
        cases hread : readLine sc with
        | error e => rfl
        | ok r =>
            simp only [bind_assoc, ok_bind, pure_bind, storeAll]
            congr 1
            funext st'
            exact ih r.1 st'

/-- Reading ends at the end of the buffer or with the status of a line. -/
theorem readLines_spec {buf : Str} (fuel : Nat) : ∀ (sc : PjScanner) (n : Nat),
    Behind buf n sc → buf.length < n + fuel →
    (∀ l ∈ (readLines fuel sc).1, l.FmtsFit) ∧ ∀ e ∈ (readLines fuel sc).2, IsStatus e := by
  induction fuel with
  | zero =>
      intro sc n h hfuel
      have hge := h.ge
      have hle := h.le
      omega
  | succ fuel ih =>
      intro sc n h hfuel
      unfold readLines
      by_cases heof : sc.curptr ≥ sc.endPos
      · rw [if_pos heof]
        exact ⟨nofun, nofun⟩
      · rw [if_neg heof]
        have hlt : sc.curptr < buf.length := by
          rw [PjScanner.endPos, h.source] at heof
          omega
        have hspec := readLine_spec h hlt
        cases hread : readLine sc with
        | error e =>
            rw [hread] at hspec
            refine ⟨nofun, ?_⟩
            intro e' he'
            cases he'
            exact hspec
        | ok r =>
            rw [hread] at hspec
            rcases ih r.1 (n + 1) hspec.1 (by omega) with ⟨hfmts, hstop⟩
            refine ⟨?_, hstop⟩
            intro l hl
            rcases List.mem_cons.mp hl with rfl | hl
            · exact hspec.2
            · exact hfmts l hl

/-- The direction of the session fits the media descriptions that it is added to. -/
theorem applyMediaDirection_fits {s : Session} (h : s.Fits) : (applyMediaDirection s).Fits := by
  unfold applyMediaDirection
  split
  · exact h
  · rename_i a _
    refine ⟨?_, h.bandw, ?_, ?_⟩
    · simpa using h.media
    · exact Nat.le_trans (List.length_eraseP_le) h.attr
    · intro m hm
      rcases List.mem_map.mp hm with ⟨m', hm', rfl⟩
      split
      · exact h.each m' hm'
      · exact (h.each m' hm').addAttr a

/-- The lines of a message. -/
def linesRead (buf : Str) : List SdpLine :=
  match (do
    let sc ← pjScanInit buf 0
    leadingNewlines sc.fuel sc) with
  | .ok sc => (readLines sc.fuel sc).1
  | .error _ => []

/-- A message is read, and its lines are stored. -/
theorem sdpParse_lines (buf : Str) :
    ∃ stop, (∀ l ∈ linesRead buf, l.FmtsFit) ∧ (∀ e ∈ stop, IsStatus e) ∧
      sdpParse buf = (do
        let st ← storeAll (linesRead buf) ⟨.zero, .session⟩
        let st ← stopAt stop st
        return applyMediaDirection st.session) := by
  have hinit : pjScanInit buf 0 = .ok ⟨buf, 0, 1, 0, 0⟩ := rfl
  have hbegin : Behind buf 0 ⟨buf, 0, 1, 0, 0⟩ := ⟨rfl, rfl, Nat.le_refl 0, Nat.zero_le _⟩
  have hfuel : ∀ sc : PjScanner, sc.buf = buf → buf.length < 0 + sc.fuel := by
    intro sc hsc
    unfold PjScanner.fuel
    rw [hsc]
    omega
  have hlead := leadingNewlines_behind _ _ 0 hbegin (hfuel ⟨buf, 0, 1, 0, 0⟩ rfl)
  cases hnew : leadingNewlines (PjScanner.fuel ⟨buf, 0, 1, 0, 0⟩) ⟨buf, 0, 1, 0, 0⟩ with
  | error e =>
      rw [hnew] at hlead
      exact absurd hlead id
  | ok sc =>
      rw [hnew] at hlead
      have hlines : linesRead buf = (readLines sc.fuel sc).1 := by
        unfold linesRead
        rw [hinit, ok_bind, hnew]
      rcases readLines_spec sc.fuel sc 0 hlead (hfuel sc hlead.source) with ⟨hfmts, hstop⟩
      refine ⟨(readLines sc.fuel sc).2, ?_, hstop, ?_⟩
      · rw [hlines]
        exact hfmts
      · unfold sdpParse
        rw [hinit]
        simp only [onLine, ok_bind, hnew, parseLoop_eq, hlines, bind_assoc]

theorem parseState_begins : ParseState.Fits ⟨.zero, .session⟩ :=
  ⟨⟨Nat.zero_le _, Nat.zero_le _, Nat.zero_le _, nofun⟩, nofun, nofun⟩

/-- What parsing should do: it ends with a session within the limits, or with an error. -/
def ParsesWithinLimits (buf : Str) : Prop := Holds Session.Fits IsStatus (sdpParse buf)

/-- **The limits of a parsed session** are kept if and only if no section of the lines that are read
has more than `PJMEDIA_MAX_SDP_BANDW` bandwidths. -/
theorem sdpParse_limits_iff (buf : Str) : ParsesWithinLimits buf ↔ SectionsFit (linesRead buf) := by
  rcases sdpParse_lines buf with ⟨stop, hfmts, hstop, hparse⟩
  rw [ParsesWithinLimits, hparse, ← sectionsFrom_zero]
  rcases storeAll_spec (linesRead buf) _ parseState_begins hfmts with ⟨hfit, st, hst, hfits⟩ | ⟨hfit, hst⟩
  · have hgood : Holds Session.Fits IsStatus (do
        let st ← stopAt stop st
        return applyMediaDirection st.session) := by
      cases stop with
      | none => exact applyMediaDirection_fits hfits.session
      | some e => exact hstop e rfl
    rw [hst, ok_bind]
    exact ⟨fun _ => hfit, fun _ => hgood⟩
  · rw [hst]
    constructor
    · rintro ⟨s, hs⟩
      cases hs
    · intro h
      exact absurd h hfit

/-- Parsing ends for every message. -/
theorem sdpParse_terminates (buf : Str) : sdpParse buf ≠ .error (.scanner .diverges) := by
  rcases sdpParse_lines buf with ⟨stop, hfmts, hstop, hparse⟩
  rw [hparse]
  rcases storeAll_spec (linesRead buf) _ parseState_begins hfmts with ⟨-, st, hst, -⟩ | ⟨-, hst⟩
  · rw [hst, ok_bind]
    cases stop with
    | none => exact nofun
    | some e =>
        rcases hstop e rfl with ⟨s, rfl⟩
        exact nofun
  · rw [hst]
    exact nofun

/-- Five `b=` lines, `b=A:1`. -/
def fiveBandwidths : Str :=
  (List.replicate 5 ([98, 61, 65, 58, 49] ++ [13, 10])).flatten

/-- The fifth bandwidth is stored behind the array. -/
theorem fiveBandwidths_outOfBounds :
    sdpParse fiveBandwidths = .error (.scanner .outOfBounds) ∧
      ¬ ParsesWithinLimits fiveBandwidths := by
  have hparse : sdpParse fiveBandwidths = .error (.scanner .outOfBounds) := by decide
  refine ⟨hparse, ?_⟩
  rw [ParsesWithinLimits, hparse]
  rintro ⟨s, hs⟩
  cases hs

end Sdp
