import PjProject.Sdp.Print

set_option autoImplicit false

/-! # The room of a printed session

`print_session` compares the room left with a number that it counts by hand, once for each line or
for a pair of them, and then writes without looking at the buffer again. A session is printed as the
list `sessionLines` of such numbers with their texts (`printSession_lines`), and what is written stays
inside the buffer if and only if every number that passes its check covers its text
(`sdpPrint_inside_iff`).

`RoomCounted` says what this comes to: only the `o=`, `t=` and `m=` lines can be longer than their
numbers. Sizes and lengths are below `2 ^ 31`: `print_session` returns an `int`.
-/

namespace Sdp

/-- A text and the room that is asked for before it is written. -/
structure PrintedLine where
  room : Nat
  text : Str

/-- The check and the text of a line. -/
def printLine (size : Nat) (l : PrintedLine) (out : Str) : Except PrintStop Str := do
  need size out l.room
  put size out l.text

/-! ## A session as lines -/

def connLine (c : Conn) : PrintedLine := ⟨(connText c).length + 1, connText c⟩

def connLines : Option Conn → List PrintedLine
  | some c => [connLine c]
  | none => []

def bandwLine (b : Bandw) : PrintedLine := ⟨b.modifier.length + 10 + 5, bandwText b⟩

def attrLine (a : Attr) : PrintedLine := ⟨a.name.length + a.value.length + 10, attrText a⟩

def descLine (d : MediaDesc) : PrintedLine :=
  ⟨d.media.length + d.transport.length + 12 + 24, mediaLine d⟩

/-- The `v=` and the `o=` line, for which there is one check. -/
def originLine (o : Origin) : PrintedLine :=
  ⟨5 + 2 + o.user.length + 18 + o.netType.length + o.addr.length + 2, versionText ++ originText o⟩

def nameLine (name : Str) : PrintedLine := ⟨8 + name.length, nameText name⟩

def timeLine (ses : Session) : PrintedLine := ⟨24, timeText ses.start ses.stop⟩

def mediaLines (m : Media) : List PrintedLine :=
  descLine m.desc :: (connLines m.conn ++ m.bandw.map bandwLine ++ m.attr.map attrLine)

/-- The lines before the `t=` line. -/
def headLines (ses : Session) : List PrintedLine :=
  originLine ses.origin :: nameLine ses.name :: (connLines ses.conn ++ ses.bandw.map bandwLine)

/-- The lines of a session. -/
def sessionLines (ses : Session) : List PrintedLine :=
  headLines ses ++ timeLine ses :: (ses.attr.map attrLine ++ ses.media.flatMap mediaLines)

section

variable {size : Nat} {out : Str} {α β : Type}

theorem printAll_cons (print : α → Str → Except PrintStop Str) (a : α) (l : List α) :
    printAll print (a :: l) = fun out => print a out >>= printAll print l := rfl

theorem printAll_append (print : α → Str → Except PrintStop Str) (l l' : List α) :
    printAll print (l ++ l') = fun out => printAll print l out >>= printAll print l' := by
  induction l with
  | nil => rfl
  | cons a l ih => simp only [List.cons_append, printAll_cons, ih, bind_assoc]

theorem printAll_map (print : β → Str → Except PrintStop Str) (f : α → β) (l : List α) :
    printAll print (l.map f) = printAll (fun a => print (f a)) l := by
  induction l with
  | nil => rfl
  | cons a l ih =>
      simp only [List.map_cons, printAll_cons, ih]

theorem printAll_flatMap (print : β → Str → Except PrintStop Str) (f : α → List β) (l : List α) :
    printAll print (l.flatMap f) = printAll (fun a => printAll print (f a)) l := by
  induction l with
  | nil => rfl
  | cons a l ih =>
      simp only [List.flatMap_cons, printAll_append, printAll_cons, ih]

/-- Two texts behind one check. -/
theorem put_put (size : Nat) (out a b : Str) :
    (put size out a >>= fun out' => put size out' b) = put size out (a ++ b) := by
  unfold put
  by_cases ha : (out ++ a).length ≤ size
  · rw [if_pos ha, ← List.append_assoc]
    rfl
  · have hab : ¬ (out ++ (a ++ b)).length ≤ size := by
      simp only [List.length_append] at ha ⊢
      omega
    rw [if_neg ha, if_neg hab]
    rfl

theorem printConn?_lines (c : Option Conn) (out : Str) :
    printConn? size c out = printAll (printLine size) (connLines c) out := by
  cases c with
  | none => rfl
  | some c =>
      simp only [printConn?, printConnectionInfo, connLines, connLine, printAll, printLine, need, put]
      by_cases hroom : (connText c).length ≥ size - out.length
      · rw [if_pos hroom, if_pos (by omega)]
        rfl
      · have hfits : (out ++ connText c).length ≤ size := by
          rw [List.length_append]
          omega
        rw [if_neg hroom, if_neg (by omega), if_pos hfits]
        rfl

theorem printMediaDesc_lines (m : Media) (out : Str) :
    printMediaDesc size m out = printAll (printLine size) (mediaLines m) out := by
  simp only [mediaLines, printAll_cons, printAll_append, printAll_map, ← printConn?_lines, printLine,
    bind_assoc]
  rfl

/-- A session is printed line by line. -/
theorem printSession_lines (ses : Session) (size : Nat) :
    printSession ses size = printAll (printLine size) (sessionLines ses) [] := by
  have hmedia : printMediaDesc size = fun m => printAll (printLine size) (mediaLines m) := by
    funext m out
    exact printMediaDesc_lines m out
  simp only [sessionLines, headLines, List.cons_append, printAll_cons, printAll_append,
    printAll_map, printAll_flatMap, ← printConn?_lines, ← hmedia, bind_assoc]
  simp only [printLine, originLine, ← put_put, bind_assoc]
  rfl

end

/-! ## The numbers cover the texts -/

/-- From `n` bytes on, every number that passes its check covers its text. -/
def Counted (size : Nat) : (n : Nat) → List PrintedLine → Prop
  | _, [] => True
  | n, l :: ls =>
      (n + l.room ≤ size → n + l.text.length ≤ size) ∧ Counted size (n + l.text.length) ls

/-- The number covers the text whatever the size is. -/
def PrintedLine.Safe (l : PrintedLine) : Prop := l.text.length ≤ l.room

/-- The number is at most `k` more than the text has bytes. -/
def PrintedLine.Slack (k : Nat) (l : PrintedLine) : Prop := l.room ≤ l.text.length + k

/-- The bytes of the texts. -/
def bytes (ls : List PrintedLine) : Nat := (ls.map fun l => l.text.length).sum

section

variable {size n : Nat} {l : PrintedLine} {ls ls' : List PrintedLine} {out : Str}

@[simp] theorem bytes_nil : bytes [] = 0 := rfl

@[simp] theorem bytes_cons (l : PrintedLine) (ls : List PrintedLine) :
    bytes (l :: ls) = l.text.length + bytes ls := by
  simp [bytes]

@[simp] theorem bytes_append (ls ls' : List PrintedLine) : bytes (ls ++ ls') = bytes ls + bytes ls' := by
  simp [bytes]

theorem counted_append (ls ls' : List PrintedLine) (n : Nat) :
    Counted size n (ls ++ ls') ↔ Counted size n ls ∧ Counted size (n + bytes ls) ls' := by
  induction ls generalizing n with
  | nil => simp [Counted]
  | cons l ls ih => simp [Counted, ih, and_assoc, Nat.add_assoc]

theorem counted_safe (h : ∀ l ∈ ls, l.Safe) (n : Nat) : Counted size n ls := by
  induction ls generalizing n with
  | nil => trivial
  | cons l ls ih =>
      have hl : l.text.length ≤ l.room := h l List.mem_cons_self
      refine ⟨fun hroom => by omega, ih (fun l' hl' => h l' (List.mem_cons_of_mem l hl')) _⟩

/-- Where a check has failed, those of the longer lines behind it fail, too. -/
theorem counted_full (h : ∀ l ∈ ls, l.Safe ∨ size < n + l.room) : Counted size n ls := by
  induction ls generalizing n with
  | nil => trivial
  | cons l ls ih =>
      constructor
      · intro hroom
        rcases h l List.mem_cons_self with hsafe | hfull
        · have hsafe : l.text.length ≤ l.room := hsafe
          omega
        · omega
      · apply ih
        intro l' hl'
        rcases h l' (List.mem_cons_of_mem l hl') with hsafe | hfull
        · exact .inl hsafe
        · exact .inr (by omega)

/-- The line that is checked for less than it may need is not reached when a line before it has been
refused. -/
def Ordered (ls : List PrintedLine) : Prop := ls.Pairwise fun a b => b.Safe ∨ a.Slack b.room

/-- What becomes of a line. -/
theorem printLine_cases (hpos : 0 < l.room) (size : Nat) (out : Str) :
    (size < out.length + l.room ∧ printLine size l out = .error .tooSmall) ∨
      (out.length + l.room ≤ size ∧ out.length + l.text.length ≤ size ∧
        printLine size l out = .ok (out ++ l.text)) ∨
      (out.length + l.room ≤ size ∧ size < out.length + l.text.length ∧
        printLine size l out = .error .outOfBounds) := by
  unfold printLine need put
  rw [List.length_append]
  by_cases hroom : size - out.length < l.room
  · left
    refine ⟨by omega, ?_⟩
    rw [if_pos hroom]
    rfl
  · right
    rw [if_neg hroom]
    by_cases hfits : out.length + l.text.length ≤ size
    · left
      refine ⟨by omega, hfits, ?_⟩
      rw [if_pos hfits]
      rfl
    · right
      refine ⟨by omega, by omega, ?_⟩
      rw [if_neg hfits]
      rfl

theorem printLines_length {out' : Str} (hpos : ∀ l ∈ ls, 0 < l.room) (hout : out.length ≤ size)
    (h : printAll (printLine size) ls out = .ok out') : out'.length ≤ size := by
  induction ls generalizing out with
  | nil =>
      cases h
      exact hout
  | cons l ls ih =>
      simp only [printAll_cons] at h
      rcases printLine_cases (hpos l List.mem_cons_self) size out with
        ⟨-, hline⟩ | ⟨-, hfits, hline⟩ | ⟨-, -, hline⟩
      · rw [hline] at h
        cases h
      · rw [hline] at h
        exact ih (fun l' hl' => hpos l' (List.mem_cons_of_mem l hl')) (by simpa using hfits) h
      · rw [hline] at h
        cases h

/-- The printer stays in the buffer as long as the numbers cover the texts. -/
theorem printLines_of_counted (hpos : ∀ l ∈ ls, 0 < l.room) (h : Counted size out.length ls) :
    printAll (printLine size) ls out ≠ .error .outOfBounds := by
  induction ls generalizing out with
  | nil => exact nofun
  | cons l ls ih =>
      simp only [printAll_cons]
      rcases printLine_cases (hpos l List.mem_cons_self) size out with
        ⟨-, hline⟩ | ⟨-, -, hline⟩ | ⟨hroom, hlong, -⟩
      · rw [hline]
        exact nofun
      · rw [hline]
        apply ih (fun l' hl' => hpos l' (List.mem_cons_of_mem l hl'))
        rw [List.length_append]
        exact h.2
      · have hfits := h.1 hroom
        omega

/-- And only so long. -/
theorem counted_of_printLines (hpos : ∀ l ∈ ls, 0 < l.room) (hord : Ordered ls)
    (h : printAll (printLine size) ls out ≠ .error .outOfBounds) : Counted size out.length ls := by
  induction ls generalizing out with
  | nil => trivial
  | cons l ls ih =>
      rcases List.pairwise_cons.mp hord with ⟨hl, hls⟩
      simp only [printAll_cons] at h
      rcases printLine_cases (hpos l List.mem_cons_self) size out with
        ⟨hfull, -⟩ | ⟨-, hfits, hline⟩ | ⟨-, -, hline⟩
      · -- the line is refused, and nothing behind it is reached
        refine ⟨fun hroom => by omega, counted_full fun l' hl' => ?_⟩
        rcases hl l' hl' with hsafe | hslack
        · exact .inl hsafe
        · have hslack : l.room ≤ l.text.length + l'.room := hslack
          exact .inr (by omega)
      · rw [hline] at h
        have hrest := ih (fun l' hl' => hpos l' (List.mem_cons_of_mem l hl')) hls h
        rw [List.length_append] at hrest
        exact ⟨fun _ => hfits, hrest⟩
      · rw [hline] at h
        exact absurd rfl h

end

/-! ## The lines of a session -/

/-- The values of the `b=` lines are those of a `pj_uint32_t`. -/
def Session.Typed (ses : Session) : Prop :=
  (∀ b ∈ ses.bandw, b.value < 2 ^ 32) ∧ ∀ m ∈ ses.media, ∀ b ∈ m.bandw, b.value < 2 ^ 32

section

variable {l : PrintedLine} {ses : Session}

theorem pjUtoa_pos (n : Nat) : 0 < (pjUtoa n).length := List.length_pos_iff.mpr (pjUtoa_ne_nil n)

theorem PrintedLine.Slack.mono {j k : Nat} (h : l.Slack j) (hle : j ≤ k) : l.Slack k := by
  have h : l.room ≤ l.text.length + j := h
  exact Nat.le_trans h (by omega)

theorem connLines_safe {c : Option Conn} (h : l ∈ connLines c) : l.Safe ∧ l.Slack 1 := by
  cases c with
  | none => cases h
  | some c =>
      rcases List.mem_singleton.mp h with rfl
      simp [PrintedLine.Safe, PrintedLine.Slack, connLine]

theorem bandwLine_safe {b : Bandw} (h : b.value < 2 ^ 32) : (bandwLine b).Safe := by
  have hdigits : (pjUtoa b.value).length ≤ 9 + 1 := pjUtoa_length 9 (by omega)
  simp [PrintedLine.Safe, bandwLine, bandwText, crlf]
  omega

theorem bandwLine_slack (b : Bandw) : (bandwLine b).Slack 9 := by
  have hdigits := pjUtoa_pos b.value
  simp [PrintedLine.Slack, bandwLine, bandwText, crlf]
  omega

theorem attrLine_safe (a : Attr) : (attrLine a).Safe ∧ (attrLine a).Slack 6 := by
  cases a with
  | mk name value =>
      cases value with
      | nil => simp [PrintedLine.Safe, PrintedLine.Slack, attrLine, attrText, crlf]
      | cons c value =>
          simp [PrintedLine.Safe, PrintedLine.Slack, attrLine, attrText, crlf]
          omega

theorem nameLine_safe (name : Str) : (nameLine name).Safe ∧ (nameLine name).Slack 4 := by
  simp [PrintedLine.Safe, PrintedLine.Slack, nameLine, nameText, crlf]
  omega

theorem originLine_slack (o : Origin) : (originLine o).Slack 11 := by
  have hid := pjUtoa_pos o.id
  have hversion := pjUtoa_pos o.version
  simp [PrintedLine.Slack, originLine, originText, versionText, crlf]
  omega

theorem timeLine_slack (ses : Session) : (timeLine ses).Slack 17 := by
  have hstart := pjUtoa_pos ses.start
  have hstop := pjUtoa_pos ses.stop
  simp [PrintedLine.Slack, timeLine, timeText, crlf]
  omega

theorem descLine_slack (d : MediaDesc) : (descLine d).Slack 29 := by
  have hport := pjUtoa_pos d.port
  simp [PrintedLine.Slack, descLine, mediaLine, crlf]
  omega

/-- The lines behind the `t=` line. -/
def tailLines (ses : Session) : List PrintedLine :=
  ses.attr.map attrLine ++ ses.media.flatMap mediaLines

theorem sessionLines_eq (ses : Session) :
    sessionLines ses = headLines ses ++ timeLine ses :: tailLines ses := rfl

/-- The lines of a media description but the `m=` line. -/
theorem mediaLines_safe {m : Media} (hvalues : ∀ b ∈ m.bandw, b.value < 2 ^ 32)
    (h : l ∈ connLines m.conn ++ m.bandw.map bandwLine ++ m.attr.map attrLine) :
    l.Safe ∧ l.Slack 29 := by
  simp only [List.mem_append, List.mem_map] at h
  rcases h with (hconn | ⟨b, hb, rfl⟩) | ⟨a, -, rfl⟩
  · exact ⟨(connLines_safe hconn).1, (connLines_safe hconn).2.mono (by omega)⟩
  · exact ⟨bandwLine_safe (hvalues b hb), (bandwLine_slack b).mono (by omega)⟩
  · exact ⟨(attrLine_safe a).1, (attrLine_safe a).2.mono (by omega)⟩

theorem tailLines_bounds (htyped : ses.Typed) (h : l ∈ tailLines ses) :
    (l.Safe ∨ 36 ≤ l.room) ∧ l.Slack 29 := by
  simp only [tailLines, List.mem_append, List.mem_map, List.mem_flatMap] at h
  rcases h with ⟨a, -, rfl⟩ | ⟨m, hm, hl⟩
  · exact ⟨.inl (attrLine_safe a).1, (attrLine_safe a).2.mono (by omega)⟩
  · rcases List.mem_cons.mp hl with rfl | hl
    · refine ⟨.inr ?_, descLine_slack m.desc⟩
      simp only [descLine]
      omega
    · rcases mediaLines_safe (htyped.2 m hm) hl with ⟨hsafe, hslack⟩
      exact ⟨.inl hsafe, hslack⟩

theorem headLines_bounds (htyped : ses.Typed)
    (h : l ∈ nameLine ses.name :: (connLines ses.conn ++ ses.bandw.map bandwLine)) :
    l.Safe ∧ l.Slack 11 := by
  simp only [List.mem_cons, List.mem_append, List.mem_map] at h
  rcases h with rfl | hconn | ⟨b, hb, rfl⟩
  · exact ⟨(nameLine_safe ses.name).1, (nameLine_safe ses.name).2.mono (by omega)⟩
  · exact ⟨(connLines_safe hconn).1, (connLines_safe hconn).2.mono (by omega)⟩
  · exact ⟨bandwLine_safe (htyped.1 b hb), (bandwLine_slack b).mono (by omega)⟩

theorem headLines_slack (htyped : ses.Typed) (h : l ∈ headLines ses) : l.Slack 11 := by
  rcases List.mem_cons.mp h with rfl | h
  · exact originLine_slack ses.origin
  · exact (headLines_bounds htyped h).2

/-- A line that is checked for less than it may need asks for more room than any line before it
could leave. -/
theorem sessionLines_ordered (htyped : ses.Typed) : Ordered (sessionLines ses) := by
  rw [sessionLines_eq]
  apply List.pairwise_append.mpr
  refine ⟨?_, ?_, ?_⟩
  · -- among the first lines only the very first one may be longer
    apply List.pairwise_cons.mpr
    constructor
    · intro b hb
      exact .inl (headLines_bounds htyped hb).1
    · apply List.pairwise_of_forall_mem_list
      intro a _ b hb
      exact .inl (headLines_bounds htyped hb).1
  · apply List.pairwise_cons.mpr
    constructor
    · intro b hb
      rcases (tailLines_bounds htyped hb).1 with hsafe | hroom
      · exact .inl hsafe
      · exact .inr ((timeLine_slack ses).mono (by omega))
    · apply List.pairwise_of_forall_mem_list
      intro a ha b hb
      rcases (tailLines_bounds htyped hb).1 with hsafe | hroom
      · exact .inl hsafe
      · exact .inr ((tailLines_bounds htyped ha).2.mono (by omega))
  · intro a ha b hb
    have hslack := headLines_slack htyped ha
    rcases List.mem_cons.mp hb with rfl | hb
    · exact .inr (hslack.mono (by simp [timeLine]))
    · rcases (tailLines_bounds htyped hb).1 with hsafe | hroom
      · exact .inl hsafe
      · exact .inr (hslack.mono (by omega))

theorem sessionLines_pos : ∀ l ∈ sessionLines ses, 0 < l.room := by
  intro l hl
  simp only [sessionLines, headLines, mediaLines, List.mem_append, List.mem_cons, List.mem_map,
    List.mem_flatMap] at hl
  have hconn : ∀ c, l ∈ connLines c → 0 < l.room := by
    intro c hc
    cases c with
    | none => cases hc
    | some c =>
        rcases List.mem_singleton.mp hc with rfl
        simp [connLine]
  rcases hl with (rfl | rfl | hc | ⟨b, -, rfl⟩) | rfl | ⟨a, -, rfl⟩ | ⟨m, -, rfl | (hc | ⟨b, -, rfl⟩) | ⟨a, -, rfl⟩⟩
  all_goals first
    | exact hconn _ hc
    | simp [originLine, nameLine, bandwLine, timeLine, attrLine, descLine]

end

/-! ## The session -/

/-- What the printing of a session should do: it writes nothing behind the buffer, and the length it
returns is at most the size. -/
def StaysInside (ses : Session) (size : Nat) : Prop :=
  sdpPrint ses size ≠ .error .outOfBounds ∧
    ∀ text, sdpPrint ses size = .ok text → text.length ≤ size

/-- The bytes before the media lines `before`. -/
def bytesBefore (ses : Session) (before : List Media) : Nat :=
  bytes (headLines ses ++ timeLine ses :: ses.attr.map attrLine) + bytes (before.flatMap mediaLines)

/-- The numbers that pass their checks cover the lines that they are for. -/
structure RoomCounted (ses : Session) (size : Nat) : Prop where
  origin : 27 + ses.origin.user.length + ses.origin.netType.length + ses.origin.addr.length ≤ size →
    (versionText ++ originText ses.origin).length ≤ size
  time : bytes (headLines ses) + 24 ≤ size →
    bytes (headLines ses) + (timeText ses.start ses.stop).length ≤ size
  media : ∀ before m after, ses.media = before ++ m :: after →
    bytesBefore ses before + (m.desc.media.length + m.desc.transport.length + 36) ≤ size →
    bytesBefore ses before + (mediaLine m.desc).length ≤ size

section

variable {size n : Nat} {ses : Session}

theorem counted_mediaLines {m : Media} (hvalues : ∀ b ∈ m.bandw, b.value < 2 ^ 32) :
    Counted size n (mediaLines m) ↔
      (n + (m.desc.media.length + m.desc.transport.length + 36) ≤ size →
        n + (mediaLine m.desc).length ≤ size) := by
  have hrest : Counted size (n + (descLine m.desc).text.length)
      (connLines m.conn ++ m.bandw.map bandwLine ++ m.attr.map attrLine) :=
    counted_safe (fun l hl => (mediaLines_safe hvalues hl).1) _
  simp only [mediaLines, Counted, hrest, and_true]
  rfl

theorem counted_media {media : List Media} (hvalues : ∀ m ∈ media, ∀ b ∈ m.bandw, b.value < 2 ^ 32) :
    Counted size n (media.flatMap mediaLines) ↔
      ∀ before m after, media = before ++ m :: after →
        n + bytes (before.flatMap mediaLines) +
          (m.desc.media.length + m.desc.transport.length + 36) ≤ size →
        n + bytes (before.flatMap mediaLines) + (mediaLine m.desc).length ≤ size := by
  induction media generalizing n with
  | nil => simp [Counted]
  | cons m media ih =>
      rw [List.flatMap_cons, counted_append, counted_mediaLines (hvalues m List.mem_cons_self),
        ih (fun m' hm' => hvalues m' (List.mem_cons_of_mem m hm'))]
      constructor
      · rintro ⟨hfirst, hrest⟩ before m' after hsplit
        cases before with
        | nil =>
            cases hsplit
            simpa using hfirst
        | cons m'' before =>
            rcases List.cons.inj hsplit with ⟨rfl, htail⟩
            simpa [Nat.add_assoc] using hrest before m' after htail
      · intro h
        refine ⟨by simpa using h [] m media rfl, ?_⟩
        intro before m' after hsplit
        simpa [Nat.add_assoc] using h (m :: before) m' after (by rw [hsplit]; rfl)

/-- What the lines come to. -/
theorem counted_session (htyped : ses.Typed) :
    Counted size 0 (sessionLines ses) ↔ RoomCounted ses size := by
  have hhead : Counted size 0 (headLines ses) ↔
      (27 + ses.origin.user.length + ses.origin.netType.length + ses.origin.addr.length ≤ size →
        (versionText ++ originText ses.origin).length ≤ size) := by
    have hrest : Counted size (0 + (originLine ses.origin).text.length)
        (nameLine ses.name :: (connLines ses.conn ++ ses.bandw.map bandwLine)) :=
      counted_safe (fun l hl => (headLines_bounds htyped hl).1) _
    rw [headLines, Counted, and_iff_left hrest]
    simp only [Nat.zero_add, originLine]
    rw [show 5 + 2 + ses.origin.user.length + 18 + ses.origin.netType.length +
      ses.origin.addr.length + 2 = 27 + ses.origin.user.length + ses.origin.netType.length +
        ses.origin.addr.length by omega]
  have hattrs : ∀ n, Counted size n (ses.attr.map attrLine) := by
    apply counted_safe
    intro l hl
    rcases List.mem_map.mp hl with ⟨a, -, rfl⟩
    exact (attrLine_safe a).1
  have hbefore : ∀ before, bytes (headLines ses) + (timeLine ses).text.length +
      bytes (ses.attr.map attrLine) + bytes (before.flatMap mediaLines) =
        bytesBefore ses before := by
    intro before
    simp only [bytesBefore, bytes_append, bytes_cons]
    omega
  rw [sessionLines, counted_append, Counted, counted_append, counted_media htyped.2, hhead]
  simp only [hattrs, true_and, Nat.zero_add, hbefore]
  constructor
  · rintro ⟨horigin, htime, hmedia⟩
    exact ⟨horigin, htime, hmedia⟩
  · rintro ⟨horigin, htime, hmedia⟩
    exact ⟨horigin, htime, hmedia⟩

/-- **Printing stays in the buffer** if and only if the numbers that pass their checks cover the
`o=`, `t=` and `m=` lines. -/
theorem sdpPrint_inside_iff (htyped : ses.Typed) : StaysInside ses size ↔ RoomCounted ses size := by
  rw [← counted_session htyped, StaysInside, sdpPrint, printSession_lines]
  constructor
  · rintro ⟨hinside, -⟩
    exact counted_of_printLines sessionLines_pos (sessionLines_ordered htyped) hinside
  · intro hcounted
    refine ⟨printLines_of_counted sessionLines_pos hcounted, fun text htext => ?_⟩
    exact printLines_length sessionLines_pos (by simp) htext

end

/-- A session without media that starts at `start` and stops at `stop`. -/
def timedSession (start stop : Nat) : Session where
  origin := ⟨[45], 7, 1, strIN, strIP4, [49]⟩
  name := [45]
  conn := none
  bandw := []
  start := start
  stop := stop
  attr := []
  media := []

theorem timedSession_typed (start stop : Nat) : (timedSession start stop).Typed := by
  simp [Session.Typed, timedSession]

/-- An audio call with bandwidths at both levels and an attribute. -/
def audioSession : Session :=
  { timedSession 0 0 with
    conn := some ⟨strIN, strIP4, [49]⟩
    bandw := [⟨[65, 83], 64⟩]
    media := [⟨⟨str ['a', 'u', 'd', 'i', 'o'], 4000, 0, str ['R', 'T', 'P', '/', 'A', 'V', 'P'],
      [[48], [56]]⟩, none, [⟨[84], 4294967295⟩], [⟨[120], [49]⟩]⟩] }

theorem sdpPrint_inside_audio : RoomCounted audioSession 160 := by
  have htyped : audioSession.Typed := by
    refine ⟨?_, ?_⟩
    · decide
    · decide
  refine (sdpPrint_inside_iff htyped).mp ⟨by decide +kernel, fun text htext => ?_⟩
  rw [printSession_eq htext]
  decide +kernel

/-- Two times of ten digits make a `t=` line of 25 bytes, for which 24 bytes are asked. -/
theorem longTimes_outside :
    (timedSession 4294967295 4294967295).Typed ∧
      sdpPrint (timedSession 4294967295 4294967295) 52 = .error .outOfBounds ∧
      ¬ StaysInside (timedSession 4294967295 4294967295) 52 := by
  have houtside : sdpPrint (timedSession 4294967295 4294967295) 52 = .error .outOfBounds := by
    decide
  exact ⟨timedSession_typed _ _, houtside, fun h => h.1 houtside⟩

end Sdp
