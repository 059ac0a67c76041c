import PjProject.Print.Escape
import PjProject.Sip.Chunking
import PjProject.Sdp.RoundTrip

set_option autoImplicit false

/-! # Printing a message

`pjsip_msg_print` of `pjsip/src/pjsip/sip_msg.c`. The request URI, the headers and the body are
printed by functions of their virtual tables, which get the room that is left. What the source writes
without a look at the room is part of the text here as well; the NUL behind the text is left out.

`msgPrint_lines`: what is printed is a section of lines, an empty line, and the body.
-/

namespace SipPrint

open Sip (toSize IsClenName Spaces)
open SipParser (Param MediaType tokenSpec)
open Sdp (Str str crlf pjUtoa)

/-! ## Messages -/

/-- The start line. A request has a method and a URI with its print function. -/
inductive MsgLine where
  | request (method : Str) (uri : Nat → Option Str)
  | status (code : Int) (reason : Str)

/-- A `pjsip_hdr` with its print function. -/
structure PjsipHdr where
  printOn : Nat → Option Str

/-- A `pjsip_msg_body`. Its print function writes the bytes of the body, or refuses. -/
structure PjsipMsgBody where
  contentType : MediaType
  bytes : Str
  printBody : Nat → Option Str
  prints : ∀ n text, printBody n = some text → text = bytes

/-- `pjsip_msg`. -/
structure PjsipMsg where
  line : MsgLine
  hdr : List PjsipHdr
  body : Option PjsipMsgBody

/-- `pjsip_print_text_body`, which returns the length as an `int`. -/
def pjsipPrintTextBody (data : Str) (size : Nat) : Option Str :=
  if size < data.length ∨ MachineInt.int32 data.length < 0 then none else some data

/-- A body of text, as `pjsip_msg_body_create` makes it. -/
def PjsipMsgBody.text (contentType : MediaType) (data : Str) : PjsipMsgBody where
  contentType := contentType
  bytes := data
  printBody := pjsipPrintTextBody data
  prints := by
    intro n text h
    unfold pjsipPrintTextBody at h
    split at h
    · cases h
    · exact (Option.some.inj h).symm

/-- `pjsip_generic_string_hdr_print` for a header with this name, which `pjsip_use_compact_form` may
have made the short one. -/
def pjsipGenericStringHdrPrint (hname hvalue : Str) (size : Nat) : Option Str :=
  if (size : Int) < (hname.length + hvalue.length + 5 : Nat) then none
  else some (hname ++ ([58, 32] ++ hvalue))

/-! ## Printing -/

/-- `endbuf - p` as the `pj_size_t` that a print function gets. -/
def roomLeft (size : Nat) (buf : Str) : Nat := toSize (size - buf.length)

/-- The request line or the status line. -/
def printLine (size : Nat) : MsgLine → Option Str
  | .request method uri =>
      let buf := method ++ [32]
      match uri (roomLeft size buf) with
      | none => none
      | some text =>
          if text = [] then none
          else
            let buf := buf ++ text
            if (size : Int) - buf.length < 16 then none
            else some (buf ++ (str [' ', 'S', 'I', 'P', '/', '2', '.', '0'] ++ crlf))
  | .status code reason =>
      some (str ['S', 'I', 'P', '/', '2', '.', '0', ' '] ++ (pjUtoa (toSize code) ++
        ([32] ++ (reason ++ crlf))))

/-- The headers. -/
def printHdrs (size : Nat) : List PjsipHdr → Printer
  | [], buf => some buf
  | hdr :: l, buf =>
      match hdr.printOn (roomLeft size buf) with
      | none => none
      | some text =>
          if text ≠ [] then
            if size ≤ (buf ++ text).length + 3 then none
            else printHdrs size l (buf ++ text ++ crlf)
          else printHdrs size l buf

/-- `print_media_type`. -/
def printMediaType (len : Nat) (media : MediaType) : Option Str :=
  let p := media.type ++ ([47] ++ media.subtype)
  (pjsipParamPrintOn media.param ((len : Int) - p.length) tokenSpec tokenSpec 59).map (p ++ ·)

/-- `"Content-Length: "`, or its compact form. -/
def clenHdr (compact : Bool) : Str :=
  if compact then str ['l', ':', ' ']
  else str ['C', 'o', 'n', 't', 'e', 'n', 't', '-', 'L', 'e', 'n', 'g', 't', 'h', ':', ' ']

/-- `"Content-Type: "`, or its compact form. -/
def ctypeHdr (compact : Bool) : Str :=
  if compact then str ['c', ':', ' ']
  else str ['C', 'o', 'n', 't', 'e', 'n', 't', '-', 'T', 'y', 'p', 'e', ':', ' ']

/-- `CLEN_SPACE`. -/
def clenSpace : Nat := 5

/-- The Content-Type header. `print_media_type` returns `-1` when there is no room for the parameters,
which is added to `p` like a length. -/
def printCtype (compact : Bool) (size : Nat) (media : MediaType) : Printer := fun buf =>
  if (size : Int) - buf.length < (24 + media.type.length + media.subtype.length : Nat) then none
  else
    let buf := buf ++ ctypeHdr compact
    match printMediaType (MachineInt.uint32 ((size : Int) - buf.length)) media with
    | some text => some (buf ++ text ++ crlf)
    | none => some (buf.dropLast ++ crlf)

/-- The Content-Length header, with blanks for the number. -/
def printClen (compact : Bool) (size : Nat) : Printer := fun buf =>
  if (size : Int) - buf.length < ((clenHdr compact).length + 12 + 2 : Nat) then none
  else some (buf ++ (clenHdr compact ++ (List.replicate clenSpace 32 ++ crlf)))

/-- `pj_memcpy` of `s` to the place `pos` of a text. -/
def patch (text : Str) (pos : Nat) (s : Str) : Str :=
  text.take pos ++ (s ++ text.drop (pos + s.length))

/-- The digits of the length of a body that there is space for. -/
def clenDigits (len : Nat) : Str := (pjUtoa len).take clenSpace

/-- The empty line and the body. -/
def printContent (size : Nat) (body : PjsipMsgBody) : Printer := fun buf =>
  (body.printBody (roomLeft size (buf ++ crlf))).map (buf ++ crlf ++ ·)

/-- The part of `pjsip_msg_print` behind the headers. -/
def printBody (compact : Bool) (size : Nat) : Option PjsipMsgBody → Printer
  | some body, buf =>
      if body.contentType.type ≠ [] then do
        let buf ← printCtype compact size body.contentType buf
        let buf ← printClen compact size buf
        let clenPos := buf.length - 2 - clenSpace
        let text ← printContent size body buf
        let tmp := clenDigits (text.length - (buf ++ crlf).length)
        return patch text (clenPos + clenSpace - tmp.length) tmp
      else printContent size body buf
  | none, buf =>
      if (size : Int) - buf.length < ((clenHdr compact).length + 8 : Nat) then none
      else some (buf ++ (clenHdr compact ++ ([32, 48] ++ (crlf ++ crlf))))

/-- `pjsip_msg_print`; `compact` is `pjsip_use_compact_form`. -/
def pjsipMsgPrint (compact : Bool) (msg : PjsipMsg) (size : Nat) : Option Str :=
  if size < 256 then none
  else do
    let buf ← printLine size msg.line
    let buf ← printHdrs size msg.hdr buf
    printBody compact size msg.body buf

/-! ## The text that is printed -/

/-- Lines with their line ends. -/
def sectionText (lines : List Str) : Str := lines.flatMap (· ++ crlf)

theorem sectionText_append (l1 l2 : List Str) :
    sectionText (l1 ++ l2) = sectionText l1 ++ sectionText l2 :=
  List.flatMap_append

theorem sectionText_cons (t : Str) (l : List Str) :
    sectionText (t :: l) = t ++ (13 :: 10 :: sectionText l) := by
  unfold sectionText
  rw [List.flatMap_cons, List.append_assoc]
  rfl

/-- A start line, without its line end. -/
def MsgLine.Prints : MsgLine → Str → Prop
  | .request method uri, t =>
      ∃ n u, uri n = some u ∧
        t = method ++ ([32] ++ (u ++ str [' ', 'S', 'I', 'P', '/', '2', '.', '0']))
  | .status code reason, t =>
      t = str ['S', 'I', 'P', '/', '2', '.', '0', ' '] ++ (pjUtoa (toSize code) ++ ([32] ++ reason))

/-- The text of a content type. -/
def mediaText (media : MediaType) : Str :=
  media.type ++ ([47] ++ (media.subtype ++ paramsText tokenSpec tokenSpec media.param 59))

/-- A line between the start line and the Content-Length. -/
def PjsipMsg.Field (compact : Bool) (msg : PjsipMsg) (t : Str) : Prop :=
  (t ≠ [] ∧ ∃ h ∈ msg.hdr, ∃ n, h.printOn n = some t) ∨
    ∃ b ∈ msg.body, t = ctypeHdr compact ++ mediaText b.contentType ∨
      t = (ctypeHdr compact).dropLast

/-- The blanks and the digits behind `"Content-Length: "`. -/
def clenValue : Option PjsipMsgBody → Str × Str
  | some body =>
      (List.replicate (clenSpace - (clenDigits body.bytes.length).length) 32,
        clenDigits body.bytes.length)
  | none => ([32], [48])

/-- The line of the Content-Length. -/
def clenLine (compact : Bool) (body : Option PjsipMsgBody) : Str :=
  clenHdr compact ++ ((clenValue body).1 ++ (clenValue body).2)

/-- The bytes of the body. -/
def PjsipMsg.bytes (msg : PjsipMsg) : Str := (msg.body.map (·.bytes)).getD []

theorem printLine_prints {size : Nat} {line : MsgLine} {text : Str}
    (h : printLine size line = some text) : ∃ t, line.Prints t ∧ text = sectionText [t] := by
  cases line with
  | request method uri =>
      unfold printLine at h
      dsimp only at h
      split at h
      · cases h
      · rename_i u hu
        split_ifs at h
        refine ⟨_, ⟨_, u, hu, rfl⟩, ?_⟩
        rw [← Option.some.inj h]
        simp only [sectionText, List.flatMap_cons, List.flatMap_nil, List.append_assoc,
          List.append_nil]
  | status code reason =>
      refine ⟨_, rfl, ?_⟩
      rw [← Option.some.inj h]
      simp only [sectionText, List.flatMap_cons, List.flatMap_nil, List.append_assoc,
        List.append_nil]

theorem printHdrs_lines {size : Nat} : ∀ {l : List PjsipHdr} {buf out : Str},
    printHdrs size l buf = some out → ∃ lines, out = buf ++ sectionText lines ∧
      ∀ t ∈ lines, t ≠ [] ∧ ∃ h ∈ l, ∃ n, h.printOn n = some t
  | [], buf, out, h => by
      refine ⟨[], ?_, nofun⟩
      rw [← Option.some.inj h]
      exact (List.append_nil buf).symm
  | hdr :: l, buf, out, h => by
      -- A header of the rest is one of the list.
      have hmore : ∀ {lines : List Str},
          (∀ t ∈ lines, t ≠ [] ∧ ∃ h ∈ l, ∃ n, h.printOn n = some t) →
          ∀ t ∈ lines, t ≠ [] ∧ ∃ h ∈ hdr :: l, ∃ n, h.printOn n = some t := by
        intro lines hlines t ht
        rcases hlines t ht with ⟨hne, h, hl, hn⟩
        exact ⟨hne, h, List.mem_cons_of_mem hdr hl, hn⟩
      unfold printHdrs at h
      split at h
      · cases h
      · rename_i text htext
        split_ifs at h with hne
        · rcases printHdrs_lines h with ⟨lines, hout, hlines⟩
          refine ⟨text :: lines, ?_, ?_⟩
          · rw [hout, sectionText_cons]
            simp only [List.append_assoc]
            rfl
          · intro t ht
            rcases List.mem_cons.mp ht with rfl | ht
            · exact ⟨hne, hdr, List.mem_cons_self, _, htext⟩
            · exact hmore hlines t ht
        · rcases printHdrs_lines h with ⟨lines, hout, hlines⟩
          exact ⟨lines, hout, hmore hlines⟩

theorem printMediaType_eq {len : Nat} {media : MediaType} {text : Str}
    (h : printMediaType len media = some text) : text = mediaText media := by
  rcases Option.map_eq_some_iff.mp h with ⟨params, hparams, rfl⟩
  rw [pjsipParamPrintOn_eq hparams, mediaText]
  simp only [List.append_assoc]

theorem ctypeHdr_ne_nil (compact : Bool) : ctypeHdr compact ≠ [] := by
  cases compact with
  | false => exact nofun
  | true => exact nofun

theorem printCtype_line {compact : Bool} {size : Nat} {media : MediaType} {buf out : Str}
    (h : printCtype compact size media buf = some out) :
    ∃ t, out = buf ++ sectionText [t] ∧
      (t = ctypeHdr compact ++ mediaText media ∨ t = (ctypeHdr compact).dropLast) := by
  unfold printCtype at h
  dsimp only at h
  split_ifs at h
  split at h
  · rename_i text htext
    refine ⟨_, ?_, Or.inl rfl⟩
    rw [← Option.some.inj h, printMediaType_eq htext, sectionText_cons]
    simp only [List.append_assoc]
    rfl
  · refine ⟨_, ?_, Or.inr rfl⟩
    rw [← Option.some.inj h, List.dropLast_append_of_ne_nil (ctypeHdr_ne_nil compact), sectionText_cons,
      List.append_assoc]
    rfl

theorem clenDigits_length (len : Nat) : (clenDigits len).length ≤ clenSpace := List.length_take_le _ _

/-- The digits stand in the last of the blanks. -/
theorem patch_blanks {d : Str} (hd : d.length ≤ clenSpace) (pre post : Str) :
    patch (pre ++ (List.replicate clenSpace 32 ++ post)) (pre.length + clenSpace - d.length) d =
      pre ++ (List.replicate (clenSpace - d.length) 32 ++ (d ++ post)) := by
  have hsplit : List.replicate clenSpace (32 : UInt8) =
      List.replicate (clenSpace - d.length) 32 ++ List.replicate d.length 32 := by
    rw [List.replicate_append_replicate]
    congr 1
    omega
  have hfront : pre ++ (List.replicate clenSpace 32 ++ post) =
      (pre ++ List.replicate (clenSpace - d.length) 32) ++ (List.replicate d.length 32 ++ post) := by
    rw [hsplit]
    simp only [List.append_assoc]
  have hlen : (pre ++ List.replicate (clenSpace - d.length) (32 : UInt8)).length =
      pre.length + clenSpace - d.length := by
    rw [List.length_append, List.length_replicate]
    omega
  unfold patch
  rw [hfront, List.take_left' hlen, ← List.drop_drop, List.drop_left' hlen,
    List.drop_left' List.length_replicate]
  simp only [List.append_assoc]

theorem printContent_eq {size : Nat} {body : PjsipMsgBody} {buf out : Str}
    (h : printContent size body buf = some out) : out = buf ++ (crlf ++ body.bytes) := by
  rcases Option.map_eq_some_iff.mp h with ⟨text, htext, rfl⟩
  rw [body.prints _ _ htext, List.append_assoc]

theorem printClen_eq {compact : Bool} {size : Nat} {buf out : Str}
    (h : printClen compact size buf = some out) :
    out = (buf ++ clenHdr compact) ++ (List.replicate clenSpace 32 ++ crlf) := by
  unfold printClen at h
  split_ifs at h
  rw [← Option.some.inj h]
  simp only [List.append_assoc]

/-- What is printed behind the headers. -/
theorem printBody_lines {compact : Bool} {size : Nat} {msg : PjsipMsg} {buf out : Str}
    (hbody : ∀ b ∈ msg.body, b.contentType.type ≠ [])
    (h : printBody compact size msg.body buf = some out) :
    ∃ lines, (∀ t ∈ lines, msg.Field compact t) ∧
      out = buf ++ (sectionText (lines ++ [clenLine compact msg.body]) ++ (crlf ++ msg.bytes)) := by
  unfold PjsipMsg.Field PjsipMsg.bytes
  cases hb : msg.body with
  | none =>
      rw [hb, printBody] at h
      split_ifs at h
      refine ⟨[], nofun, ?_⟩
      rw [← Option.some.inj h, List.nil_append, sectionText_cons]
      simp only [clenLine, clenValue, List.append_assoc, List.cons_append, List.nil_append]
      rfl
  | some body =>
      rw [hb, printBody, if_pos (hbody body hb)] at h
      rcases Option.bind_eq_some_iff.mp h with ⟨buf1, h1, h⟩
      rcases Option.bind_eq_some_iff.mp h with ⟨buf2, h2, h⟩
      rcases Option.bind_eq_some_iff.mp h with ⟨text, h3, h⟩
      rcases printCtype_line h1 with ⟨t, hbuf1, ht⟩
      have htext := printContent_eq h3
      have hbuf2 := printClen_eq h2
      refine ⟨[t], ?_, ?_⟩
      · intro t' ht'
        rw [List.mem_singleton.mp ht']
        exact Or.inr ⟨body, rfl, ht⟩
      · -- The place of the blanks, and the length of what stands behind the empty line.
        have hclen : text.length - (buf2 ++ crlf).length = body.bytes.length := by
          rw [htext]
          simp only [List.length_append]
          omega
        have hpos : buf2.length - 2 - clenSpace = (buf1 ++ clenHdr compact).length := by
          rw [hbuf2]
          simp only [List.length_append, List.length_replicate, crlf, List.length_cons,
            List.length_nil]
          omega
        have hall : text = (buf1 ++ clenHdr compact) ++
            (List.replicate clenSpace 32 ++ (crlf ++ (crlf ++ body.bytes))) := by
          rw [htext, hbuf2]
          simp only [List.append_assoc]
        have hout := Option.some.inj h
        rw [hclen, hpos, hall, patch_blanks (clenDigits_length _)] at hout
        rw [← hout, hbuf1, sectionText_append, sectionText_cons]
        simp only [sectionText, clenLine, clenValue, List.flatMap_cons, List.flatMap_nil,
          List.append_assoc, List.append_nil, Option.map_some, Option.getD_some]

theorem printBody_some {compact : Bool} {size : Nat} {body : PjsipMsgBody} {buf buf1 buf2 text : Str}
    (htype : body.contentType.type ≠ []) (h1 : printCtype compact size body.contentType buf = some buf1)
    (h2 : printClen compact size buf1 = some buf2) (h3 : printContent size body buf2 = some text) :
    ∃ out, printBody compact size (some body) buf = some out := by
  rw [printBody, if_pos htype]
  exact ⟨_, Option.bind_eq_some_iff.mpr ⟨buf1, h1, Option.bind_eq_some_iff.mpr ⟨buf2, h2,
    Option.bind_eq_some_iff.mpr ⟨text, h3, rfl⟩⟩⟩⟩

theorem msgPrint_some {compact : Bool} {size : Nat} {msg : PjsipMsg} {buf text : Str}
    (hsize : ¬ size < 256)
    (h1 : (printLine size msg.line).bind (printHdrs size msg.hdr) = some buf)
    (h2 : printBody compact size msg.body buf = some text) :
    pjsipMsgPrint compact msg size = some text := by
  rcases Option.bind_eq_some_iff.mp h1 with ⟨buf1, hline, hhdrs⟩
  unfold pjsipMsgPrint
  rw [if_neg hsize]
  exact Option.bind_eq_some_iff.mpr ⟨buf1, hline, Option.bind_eq_some_iff.mpr ⟨buf, hhdrs, h2⟩⟩

/-- **What is printed:** the start line, the headers, the Content-Length, and the body behind an empty
line. -/
theorem msgPrint_lines {compact : Bool} {msg : PjsipMsg} {size : Nat} {text : Str}
    (hbody : ∀ b ∈ msg.body, b.contentType.type ≠ [])
    (h : pjsipMsgPrint compact msg size = some text) :
    ∃ start lines, msg.line.Prints start ∧ (∀ t ∈ lines, msg.Field compact t) ∧
      text = sectionText (start :: (lines ++ [clenLine compact msg.body])) ++ (crlf ++ msg.bytes) := by
  unfold pjsipMsgPrint at h
  split_ifs at h
  rcases Option.bind_eq_some_iff.mp h with ⟨buf1, h1, h⟩
  rcases Option.bind_eq_some_iff.mp h with ⟨buf2, h2, h3⟩
  rcases printLine_prints h1 with ⟨start, hstart, hbuf1⟩
  rcases printHdrs_lines h2 with ⟨lines, hbuf2, hlines⟩
  rcases printBody_lines hbody h3 with ⟨more, hmore, htext⟩
  refine ⟨start, lines ++ more, hstart, ?_, ?_⟩
  · intro t ht
    rcases List.mem_append.mp ht with ht | ht
    · exact Or.inl (hlines t ht)
    · exact hmore t ht
  · rw [htext, hbuf2, hbuf1, sectionText_cons, sectionText_cons, List.append_assoc lines more,
      sectionText_append lines]
    simp only [sectionText, List.flatMap_nil, List.append_assoc, List.cons_append, List.nil_append]

end SipPrint
