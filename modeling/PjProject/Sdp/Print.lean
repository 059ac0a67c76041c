import PjProject.Sdp.Session

set_option autoImplicit false

/-! # Printing a session description

`print_session` of `pjmedia/src/pjmedia/sdp.c` and what it calls. A function gets the size of the
buffer and the text printed so far and returns the text with its own lines added. It returns `-1`
where its check of the room left fails; these checks do not count every field, so a text can still
run over the end of the buffer, which is the outcome `outOfBounds`.

`printSession_eq`: what is printed is `sessionText`.
-/

namespace Sdp

/-- How printing can end other than with a text. -/
inductive PrintStop where
  | tooSmall
  | outOfBounds
  deriving DecidableEq

/-- `"\r\n"`. -/
def crlf : Str := [13, 10]

/-- The digits that `pj_utoa` writes, the last one first. -/
def utoaLoop : Nat → Nat → Str
  | 0, _ => []
  | fuel + 1, val =>
      UInt8.ofNat (val % 10 + 48) :: if val / 10 > 0 then utoaLoop fuel (val / 10) else []

/-- `pj_utoa`. An `unsigned long` has at most 20 digits. -/
def pjUtoa (val : Nat) : Str := (utoaLoop 20 val).reverse

theorem pjUtoa_ne_nil (n : Nat) : pjUtoa n ≠ [] := by
  unfold pjUtoa utoaLoop
  simp

theorem utoaLoop_length (k : Nat) : ∀ fuel val, val < 10 ^ (k + 1) →
    (utoaLoop fuel val).length ≤ k + 1 := by
  induction k with
  | zero =>
      intro fuel val h
      cases fuel with
      | zero => exact Nat.zero_le _
      | succ fuel =>
          rw [utoaLoop, if_neg (by omega)]
          exact Nat.le_refl _
  | succ k ih =>
      intro fuel val h
      cases fuel with
      | zero => exact Nat.zero_le _
      | succ fuel =>
          rw [utoaLoop, List.length_cons]
          have hrest := ih fuel (val / 10) (by rw [Nat.pow_succ] at h; omega)
          split
          · omega
          · simp

theorem pjUtoa_length (k : Nat) {val : Nat} (h : val < 10 ^ (k + 1)) :
    (pjUtoa val).length ≤ k + 1 := by
  rw [pjUtoa, List.length_reverse]
  exact utoaLoop_length k 20 val h

/-! ## The text of a line -/

/-- What `%.*s` prints of a string: a NUL ends it. -/
def upToNul (s : Str) : Str := s.takeWhile (· ≠ 0)

def connText (c : Conn) : Str :=
  [99, 61] ++ upToNul c.netType ++ [32] ++ upToNul c.addrType ++ [32] ++ upToNul c.addr ++ crlf

def bandwText (b : Bandw) : Str := [98, 61] ++ b.modifier ++ [58] ++ pjUtoa b.value ++ crlf

def attrText (a : Attr) : Str :=
  [97, 61] ++ a.name ++ (if a.value.length ≠ 0 then [58] ++ a.value else []) ++ crlf

def mediaLine (d : MediaDesc) : Str :=
  [109, 61] ++ d.media ++ [32] ++ pjUtoa d.port ++
    (if d.portCount > 1 then [47] ++ pjUtoa d.portCount else []) ++ [32] ++ d.transport ++
    (d.fmt.flatMap fun f => [32] ++ f) ++ crlf

def originText (o : Origin) : Str :=
  [111, 61] ++ o.user ++ [32] ++ pjUtoa o.id ++ [32] ++ pjUtoa o.version ++ [32] ++ o.netType ++
    [32] ++ o.addrType ++ [32] ++ o.addr ++ crlf

def versionText : Str := [118, 61, 48] ++ crlf

def nameText (name : Str) : Str := [115, 61] ++ name ++ crlf

def timeText (start stop : Nat) : Str := [116, 61] ++ pjUtoa start ++ [32] ++ pjUtoa stop ++ crlf

/-! ## Printing -/

/-- `len < n` for the room left. -/
def need (size : Nat) (out : Str) (n : Nat) : Except PrintStop Unit :=
  if size - out.length < n then .error .tooSmall else .ok ()

/-- The text is written behind what has been printed. -/
def put (size : Nat) (out text : Str) : Except PrintStop Str :=
  if (out ++ text).length ≤ size then .ok (out ++ text) else .error .outOfBounds

/-- `print_connection_info`: `snprintf` stays inside the buffer. -/
def printConnectionInfo (size : Nat) (c : Conn) (out : Str) : Except PrintStop Str :=
  if (connText c).length ≥ size - out.length then .error .tooSmall else .ok (out ++ connText c)

/-- `print_bandw`. -/
def printBandw (size : Nat) (b : Bandw) (out : Str) : Except PrintStop Str := do
  need size out (b.modifier.length + 10 + 5)
  put size out (bandwText b)

/-- `print_attr`. -/
def printAttr (size : Nat) (a : Attr) (out : Str) : Except PrintStop Str := do
  need size out (a.name.length + a.value.length + 10)
  put size out (attrText a)

/-- The connection line that may be there. -/
def printConn? (size : Nat) : Option Conn → Str → Except PrintStop Str
  | some c, out => printConnectionInfo size c out
  | none, out => .ok out

/-- A loop that prints the elements of an array. -/
def printAll {α : Type} (print : α → Str → Except PrintStop Str) :
    List α → Str → Except PrintStop Str
  | [], out => .ok out
  | a :: l, out => do
      let out ← print a out
      printAll print l out

/-- `print_media_desc`. -/
def printMediaDesc (size : Nat) (m : Media) (out : Str) : Except PrintStop Str := do
  need size out (m.desc.media.length + m.desc.transport.length + 12 + 24)
  let out ← put size out (mediaLine m.desc)
  let out ← printConn? size m.conn out
  let out ← printAll (printBandw size) m.bandw out
  printAll (printAttr size) m.attr out

/-- `print_session`. -/
def printSession (ses : Session) (size : Nat) : Except PrintStop Str := do
  need size [] (5 + 2 + ses.origin.user.length + 18 + ses.origin.netType.length +
    ses.origin.addr.length + 2)
  let out ← put size [] versionText
  let out ← put size out (originText ses.origin)
  need size out (8 + ses.name.length)
  let out ← put size out (nameText ses.name)
  let out ← printConn? size ses.conn out
  let out ← printAll (printBandw size) ses.bandw out
  need size out 24
  let out ← put size out (timeText ses.start ses.stop)
  let out ← printAll (printAttr size) ses.attr out
  printAll (printMediaDesc size) ses.media out

/-- `pjmedia_sdp_print`. -/
def sdpPrint (desc : Session) (size : Nat) : Except PrintStop Str := printSession desc size

/-! ## The text that is printed -/

def connText? : Option Conn → Str
  | some c => connText c
  | none => []

/-- The lines of a media description. -/
def mediaText (m : Media) : Str :=
  mediaLine m.desc ++ connText? m.conn ++ m.bandw.flatMap bandwText ++ m.attr.flatMap attrText

/-- The lines of a session. -/
def sessionText (ses : Session) : Str :=
  versionText ++ originText ses.origin ++ nameText ses.name ++ connText? ses.conn ++
    ses.bandw.flatMap bandwText ++ timeText ses.start ses.stop ++ ses.attr.flatMap attrText ++
    ses.media.flatMap mediaText

section

variable {size : Nat} {out out' : Str}

theorem need_ok {n : Nat} {f : Unit → Except PrintStop Str}
    (h : (need size out n >>= f) = .ok out') : f () = .ok out' := by
  unfold need at h
  split at h
  · cases h
  · exact h

theorem put_ok {text : Str} (h : put size out text = .ok out') : out' = out ++ text := by
  unfold put at h
  split at h
  · cases h
    rfl
  · cases h

/-- A step of the printer that succeeds, followed by the others. -/
theorem print_bind {x : Except PrintStop Str} {f : Str → Except PrintStop Str} {text : Str}
    (hx : ∀ y, x = .ok y → y = out ++ text) (h : (x >>= f) = .ok out') :
    f (out ++ text) = .ok out' := by
  cases hxe : x with
  | error e =>
      rw [hxe] at h
      cases h
  | ok y =>
      rw [hxe] at h
      rw [← hx y hxe]
      exact h

theorem printConn?_ok {c : Option Conn} (h : printConn? size c out = .ok out') :
    out' = out ++ connText? c := by
  cases c with
  | none =>
      cases h
      simp [connText?]
  | some c =>
      simp only [printConn?, printConnectionInfo] at h
      split at h
      · cases h
      · cases h
        rfl

theorem printBandw_ok {b : Bandw} (h : printBandw size b out = .ok out') :
    out' = out ++ bandwText b :=
  put_ok (need_ok h)

theorem printAttr_ok {a : Attr} (h : printAttr size a out = .ok out') : out' = out ++ attrText a :=
  put_ok (need_ok h)

/-- A loop prints the texts of its elements. -/
theorem printAll_ok {α : Type} {print : α → Str → Except PrintStop Str} {text : α → Str}
    (hp : ∀ a out out', print a out = .ok out' → out' = out ++ text a) (l : List α) :
    ∀ out, printAll print l out = .ok out' → out' = out ++ l.flatMap text := by
  induction l with
  | nil =>
      intro out h
      cases h
      simp
  | cons a l ih =>
      intro out h
      have hrest := ih _ (print_bind (hp a out) h)
      rw [hrest, List.flatMap_cons, List.append_assoc]

theorem printBandws_ok {l : List Bandw} (h : printAll (printBandw size) l out = .ok out') :
    out' = out ++ l.flatMap bandwText :=
  printAll_ok (fun _ _ _ hb => printBandw_ok hb) l out h

theorem printAttrs_ok {l : List Attr} (h : printAll (printAttr size) l out = .ok out') :
    out' = out ++ l.flatMap attrText :=
  printAll_ok (fun _ _ _ ha => printAttr_ok ha) l out h

theorem printMediaDesc_ok {m : Media} (h : printMediaDesc size m out = .ok out') :
    out' = out ++ mediaText m := by
  have h := print_bind (fun _ => put_ok) (need_ok h)
  have h := print_bind (fun _ => printConn?_ok) h
  have h := print_bind (fun _ => printBandws_ok) h
  have h := printAttrs_ok h
  rw [h]
  simp only [mediaText, List.append_assoc]

/-- **What is printed.** -/
theorem printSession_eq {ses : Session} {text : Str} (h : printSession ses size = .ok text) :
    text = sessionText ses := by
  have h := print_bind (fun _ => put_ok) (need_ok h)
  have h := print_bind (fun _ => put_ok) h
  have h := print_bind (fun _ => put_ok) (need_ok h)
  have h := print_bind (fun _ => printConn?_ok) h
  have h := print_bind (fun _ => printBandws_ok) h
  have h := print_bind (fun _ => put_ok) (need_ok h)
  have h := print_bind (fun _ => printAttrs_ok) h
  have h := printAll_ok (fun _ _ _ hm => printMediaDesc_ok hm) _ _ h
  rw [h]
  simp only [sessionText, List.append_assoc, List.nil_append]

end

end Sdp
