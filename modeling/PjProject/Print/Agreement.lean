import PjProject.Print.Room

set_option autoImplicit false

/-! # One text, two models

What `SipWrite` prints inside its buffer is what `SipPrint` prints (`msgPrint_agrees`). So what is said
in `SipPrint` of the text that is printed is said of these functions too.
-/

namespace SipWrite

open Pieces
open Scan (PjCis)
open SipParser
open SipPrint (Printer UriContext UriCfg)
open Sip (toSize)
open Sdp (Str str crlf pjUtoa)

/-- Where the pieces fit and stay inside, the function prints their text. -/
def Agrees (size : Nat) (f : Printer) (l : Printed) : Prop :=
  ∀ buf : Str, buf.length ≤ size → Stays l (size - buf.length) → Fits l (size - buf.length) →
    f buf = some (buf ++ text l)

section

variable {size : Nat} {f g : Printer} {l l' : Printed}

theorem agrees_nil : Agrees size some [] := fun buf _ _ _ => by simp

theorem Agrees.bind (hf : Agrees size f l) (hg : Agrees size g l') :
    Agrees size (fun buf => f buf >>= g) (l ++ l') := by
  intro buf hbuf hs hfits
  rw [stays_append] at hs
  rw [fits_append] at hfits
  have hlen := hs.1.length_le hfits.1
  have hnext : left l (size - buf.length) = size - (buf ++ text l).length := by
    rw [left, List.length_append, Nat.sub_sub]
  have hrest := hs.2 hfits.1
  rw [hnext] at hrest hfits
  have hboth := hg (buf ++ text l) (by rw [List.length_append]; omega) hrest hfits.2
  dsimp only
  rw [hf buf hbuf hs.1 hfits.1, text_append, ← List.append_assoc]
  exact hboth

theorem Agrees.ite {c : Prop} [Decidable c] (hf : Agrees size f l) (hg : Agrees size g l') :
    Agrees size (fun buf => if c then f buf else g buf) (if c then l else l') := by
  intro buf hbuf
  dsimp only
  split
  · exact hf buf hbuf
  · exact hg buf hbuf

theorem agrees_char (chr : UInt8) :
    Agrees size (SipPrint.copyAdvanceCharCheck size chr) (copyAdvanceCharCheck chr) := by
  intro buf hbuf _ hfits
  have hroom : 2 ≤ size - buf.length := by simpa [copyAdvanceCharCheck] using hfits
  rw [SipPrint.copyAdvanceCharCheck, if_neg (by omega)]
  simp [copyAdvanceCharCheck]

theorem agrees_check (s : Str) : Agrees size (SipPrint.copyAdvanceCheck size s) (copyAdvanceCheck s) := by
  intro buf hbuf _ hfits
  rw [fits_check] at hfits
  rw [SipPrint.copyAdvanceCheck, if_neg (by omega), text_check]

theorem agrees_escape (s : Str) (unres : PjCis) :
    Agrees size (SipPrint.copyAdvanceEscape size s unres) (copyAdvanceEscape s unres) := by
  intro buf hbuf _ hfits
  have hroom := copyAdvanceEscape_asks.mp hfits.1
  rw [SipPrint.copyAdvanceEscape, SipPrint.pjStrncpy2Escape_eq, if_pos (by omega)]
  simp [copyAdvanceEscape]

theorem agrees_params (pnameSpec pvalueSpec : PjCis) (l : List Param) : ∀ sep,
    Agrees size (SipPrint.paramPrintLoop size pnameSpec pvalueSpec l sep)
      (paramPrintLoop pnameSpec pvalueSpec l sep) := by
  induction l with
  | nil => exact fun sep => agrees_nil
  | cons p l ih =>
      intro sep
      refine (agrees_char sep).bind ((agrees_escape p.name pnameSpec).bind (Agrees.bind ?_ (ih _)))
      exact Agrees.ite ((agrees_char 61).bind ((agrees_check p.value).ite
        (agrees_escape p.value pvalueSpec))) agrees_nil

/-! ## Messages -/

/-- A function that prints into a buffer of its own. -/
def printer (l : Printed) (n : Nat) : Option Str := (print l n).toOption

/-- The start line, as `SipPrint` has it. -/
def toLine (cfg : PrintCfg) : MsgLine → SipPrint.MsgLine
  | .request method uri => .request method (printer (uriPrint cfg.uri .inReqUri (pjsipUriGetUri uri)))
  | .status code reason => .status code reason

/-- A header, as `SipPrint` has it. -/
def toHdr (cfg : PrintCfg) (hdr : Hdr) : SipPrint.PjsipHdr := ⟨printer (pjsipHdrPrintOn cfg hdr)⟩

theorem printer_of_fits {n : Nat} (hs : Stays l n) (hf : Fits l n) : printer l n = some (text l) := by
  rw [printer, print_of_fits hs hf]
  rfl

theorem roomLeft_eq {buf : Str} (h : buf.length ≤ size) :
    SipPrint.roomLeft size buf = size - buf.length := by
  unfold SipPrint.roomLeft toSize
  rw [if_pos (by omega)]
  omega

/-- A URI has a scheme and a colon, at least. -/
theorem uriPrint_ne_nil {cfg : UriCfg} {context : UriContext} (u : Uri) :
    text (uriPrint cfg context u) ≠ [] := by
  cases u with
  | sip url =>
      simp [uriPrint, pjsipUrlPrint, urlPieces, beforeTtl, beforePort, copyAdvanceCharCheck]
  | tel uri => simp [uriPrint, telUriPrint, text_shorter]
  | other uri => simp [uriPrint, otherUriPrint]

theorem agrees_line {cfg : PrintCfg} {line : MsgLine} (hs : Stays (printLine cfg line) size)
    (hf : Fits (printLine cfg line) size) :
    SipPrint.printLine size (toLine cfg line) = some (text (printLine cfg line)) := by
  cases line with
  | status code reason =>
      simp [toLine, SipPrint.printLine, printLine, utoa]
  | request method uri =>
      rw [printLine, stays_put_cons, stays_append] at hs
      rw [printLine, fits_put_cons, fits_append, fits_need_cons] at hf
      have hroom : SipPrint.roomLeft size (method ++ [32]) = _ := roomLeft_eq hs.1
      rw [← hroom] at hs hf
      have huri := printer_of_fits hs.2.1 hf.1
      have hlen := hs.2.1.length_le hf.1
      simp only [left, hroom] at hf hlen
      simp only [toLine, SipPrint.printLine, huri]
      rw [if_neg (uriPrint_ne_nil _), if_neg (by rw [List.length_append]; omega)]
      simp [printLine]

theorem agrees_hdrs {cfg : PrintCfg} : ∀ {hdrs : List Hdr} {buf : Str}, buf.length ≤ size →
    Stays (hdrs.flatMap (printHdr cfg)) (size - buf.length) →
    Fits (hdrs.flatMap (printHdr cfg)) (size - buf.length) →
    SipPrint.printHdrs size (hdrs.map (toHdr cfg)) buf =
      some (buf ++ text (hdrs.flatMap (printHdr cfg)))
  | [], buf, _, _, _ => by
      rw [List.map_nil, SipPrint.printHdrs, List.flatMap_nil, text_nil, List.append_nil]
  | hdr :: hdrs, buf, hbuf, hs, hf => by
      rw [List.flatMap_cons, stays_append, printHdr, stays_append] at hs
      rw [List.flatMap_cons, fits_append, printHdr, fits_append] at hf
      have hprint := printer_of_fits hs.1.1 hf.1.1
      have hlen := hs.1.1.length_le hf.1.1
      have hrest := hs.2 (fits_append.mpr hf.1)
      rw [List.map_cons, SipPrint.printHdrs, toHdr, roomLeft_eq hbuf]
      simp only [hprint]
      by_cases hne : text (pjsipHdrPrintOn cfg hdr) ≠ []
      · simp only [if_pos hne] at hf hrest ⊢
        rw [fits_need_cons, left] at hf
        -- The line end is written where four bytes are left.
        have hnext : left (pjsipHdrPrintOn cfg hdr ++ [need 4, put crlf]) (size - buf.length) =
            size - (buf ++ text (pjsipHdrPrintOn cfg hdr) ++ crlf).length := by
          simp only [left, text_append, text_cons, need_text, put_text, text_nil, List.append_nil,
            List.nil_append, List.length_append, Nat.sub_sub]
          congr 1
        rw [hnext] at hf hrest
        have hcrlf : crlf.length = 2 := rfl
        have hfour := hf.1.2.1
        rw [if_neg (by rw [List.length_append]; omega), agrees_hdrs (by
          simp only [List.length_append, hcrlf]
          omega) hrest hf.2]
        simp [printHdr, hne]
      · simp only [if_neg hne, List.append_nil] at hf hrest ⊢
        have hnil := not_not.mp hne
        rw [left, hnil, List.length_nil, Nat.sub_zero] at hf hrest
        rw [agrees_hdrs hbuf hrest hf.2]
        simp [printHdr, hnil]

theorem agrees_media {media : MediaType} {room : Nat} (h : MediaRoom media room) :
    SipPrint.printMediaType (MachineInt.uint32 (room : Int)) media =
      some (text (printMediaType media)) := by
  have htext : text (printMediaType media) = typeText media ++ text (tokenParams media.param) := by
    rw [printMediaType, text_cons, text_unsigned]
    rfl
  unfold SipPrint.printMediaType SipPrint.pjsipParamPrintOn
  rw [htext]
  unfold MediaRoom at h
  cases hparam : media.param with
  | nil =>
      simp [SipPrint.paramPrintLoop, tokenParams, pjsipParamPrintOn, paramPrintLoop, typeText]
  | cons p l =>
      rw [hparam] at h
      have htwo : 2 ≤ MachineInt.uint32 (room : Int) - (typeText media).length :=
        of_decide_eq_true (fits_cons.mp h).1
      have hroom : ((MachineInt.uint32 (room : Int) : Nat) : Int) - (typeText media).length =
          ((MachineInt.uint32 (room : Int) - (typeText media).length : Nat) : Int) := by omega
      have hparams : Agrees (MachineInt.uint32 (room : Int) - (typeText media).length) _ _ :=
        agrees_params tokenSpec tokenSpec (p :: l) 59
      have hloop := hparams [] (Nat.zero_le _) (safe_tokenParams (p :: l) _) h
      show Option.map _ (SipPrint.paramPrintLoop (_ - ((typeText media).length : Int)) _ _ _ _ _) = _
      rw [hroom, hloop]
      rfl

/-- The Content-Type and the Content-Length header. -/
theorem agrees_ctype {cfg : PrintCfg} {media : MediaType} {buf : Str} (hbuf : buf.length ≤ size)
    (hs : Stays (printCtype cfg media) (size - buf.length))
    (hf : Fits (printCtype cfg media) (size - buf.length)) :
    (SipPrint.printCtype cfg.compact size media buf >>= SipPrint.printClen cfg.compact size) =
      some (buf ++ text (printCtype cfg media)) := by
  have hcrlf : crlf.length = 2 := rfl
  have hctype := ctypeHdr_length cfg.compact
  rw [printCtype, stays_guarded_cons (guarded_need _), stays_put_cons] at hs
  rw [printCtype, fits_need_cons, fits_put_cons, fits_append, fits_put_cons, fits_need_cons] at hf
  have hneed := hf.1
  have hput := hs (decide_eq_true hneed)
  simp only [need_text, List.length_nil, Nat.sub_zero] at hput
  have htype : (typeText media).length ≤ size - buf.length - (SipPrint.ctypeHdr cfg.compact).length := by
    simp only [typeText, List.length_append, List.length_singleton]
    omega
  -- The room of the media type, as a number and as an `unsigned`.
  have hroom : (size : Int) - (buf ++ SipPrint.ctypeHdr cfg.compact).length =
      ((size - buf.length - (SipPrint.ctypeHdr cfg.compact).length : Nat) : Int) := by
    rw [List.length_append]
    omega
  have hmedia := (stays_media htype).mp (stays_append.mp hput.2).1
  have hline := (stays_put_cons.mp ((stays_append.mp hput.2).2 hf.2.1)).1
  have hclen := hf.2.2.1
  rw [hcrlf] at hline
  simp only [left, hcrlf] at hline hclen
  rw [SipPrint.printCtype, if_neg (by omega)]
  simp only [hroom, agrees_media hmedia]
  show SipPrint.printClen cfg.compact size _ = _
  rw [SipPrint.printClen, if_neg (by
    simp only [List.length_append, hcrlf]
    omega)]
  simp [printCtype]

theorem agrees_body {cfg : PrintCfg} {body : SipPrint.PjsipMsgBody} {buf t : Str}
    (hbuf : buf.length ≤ size) (hs : Stays (beforeBody cfg (ofBody body)) (size - buf.length))
    (hf : Fits (beforeBody cfg (ofBody body)) (size - buf.length))
    (hprint : body.printBody (left (beforeBody cfg (ofBody body)) (size - buf.length)) = some t) :
    SipPrint.printBody cfg.compact size (some body) buf =
      some (fillClen (ofBody body) (buf ++ text (beforeBody cfg (ofBody body))) t) := by
  have hlen := hs.length_le hf
  have hcontent : ∀ {buf' : Str}, buf' ++ crlf = buf ++ text (beforeBody cfg (ofBody body)) →
      SipPrint.printContent size body buf' =
        some (buf ++ text (beforeBody cfg (ofBody body)) ++ t) := by
    intro buf' heq
    rw [SipPrint.printContent, heq, roomLeft_eq (by rw [List.length_append]; omega),
      List.length_append, ← Nat.sub_sub]
    exact congrArg (Option.map _) hprint
  by_cases htype : body.contentType.type ≠ []
  · have hpieces : beforeBody cfg (ofBody body) = printCtype cfg body.contentType ++ [put crlf] :=
      congrArg (· ++ [put crlf]) (if_pos htype)
    rw [hpieces] at hs hf hcontent ⊢
    have hhdr := agrees_ctype hbuf (stays_append.mp hs).1 (fits_append.mp hf).1
    rcases Option.bind_eq_some_iff.mp hhdr with ⟨buf1, hctype, hclen⟩
    have htext := @hcontent (buf ++ text (printCtype cfg body.contentType)) (by simp)
    have hcrlf : crlf.length = 2 := rfl
    have hpos : (buf ++ text (printCtype cfg body.contentType ++ [put crlf])).length - 2 =
        (buf ++ text (printCtype cfg body.contentType)).length := by
      simp only [text_append, text_cons, text_nil, put_text, List.append_nil, List.length_append, hcrlf]
      omega
    have hcount : (buf ++ text (printCtype cfg body.contentType ++ [put crlf]) ++ t).length -
        (buf ++ text (printCtype cfg body.contentType) ++ crlf).length = t.length := by
      simp only [text_append, text_cons, text_nil, put_text, List.append_nil, List.length_append]
      omega
    rw [SipPrint.printBody, if_pos htype, hctype]
    show (SipPrint.printClen cfg.compact size buf1).bind _ = _
    rw [hclen]
    show (SipPrint.printContent size body _).bind _ = _
    rw [htext, Option.bind_some, hcount, fillClen, hpos]
    exact (congrArg some (if_pos htype)).symm
  · have hpieces : beforeBody cfg (ofBody body) = [put crlf] :=
      congrArg (· ++ [put crlf]) (if_neg htype)
    have htext := @hcontent buf (by rw [hpieces]; simp)
    rw [SipPrint.printBody, if_neg htype, htext, fillClen]
    exact (congrArg some (if_neg htype)).symm

/-- **A message that is printed inside its buffer** is the text that `SipPrint` prints. -/
theorem msgPrint_agrees {cfg : PrintCfg} {line : MsgLine} {hdr : List Hdr}
    {body : Option SipPrint.PjsipMsgBody} {out : Str}
    (h : pjsipMsgPrint cfg ⟨line, hdr, body.map ofBody⟩ size = .ok out) :
    SipPrint.pjsipMsgPrint cfg.compact ⟨toLine cfg line, hdr.map (toHdr cfg), body⟩ size = some out := by
  have hmsg : ∀ {buf : Str}, SipPrint.printBody cfg.compact size body buf = some out → 256 ≤ size →
      Stays (printHead cfg line hdr) size → Fits (printHead cfg line hdr) size →
      buf = text (printHead cfg line hdr) → SipPrint.pjsipMsgPrint cfg.compact
        ⟨toLine cfg line, hdr.map (toHdr cfg), body⟩ size = some out := by
    intro buf hbody hsize hs hf hbuf
    rw [printHead, stays_append] at hs
    rw [printHead, fits_append] at hf
    have hline := agrees_line hs.1 hf.1
    have hhdrs := agrees_hdrs (hs.1.length_le hf.1) (hs.2 hf.1) hf.2
    have htext : text (printHead cfg line hdr) =
        text (printLine cfg line) ++ text (hdr.flatMap (printHdr cfg)) := text_append
    rw [← htext, ← hbuf] at hhdrs
    exact SipPrint.msgPrint_some (by omega) (by rw [hline]; exact hhdrs) hbody
  cases body with
  | none =>
      have hprint := print_ok h
      have hout := print_of_fits hprint.1 hprint.2
      rw [fits_need_cons, fits_append] at hprint
      rw [stays_guarded_cons (guarded_need _)] at hprint
      have hs := stays_append.mp (hprint.1 (decide_eq_true hprint.2.1))
      simp only [need_text, List.length_nil, Nat.sub_zero] at hs
      refine hmsg ?_ hprint.2.1 hs.1 hprint.2.2.1 rfl
      have hroom : (SipPrint.clenHdr cfg.compact).length + 8 ≤ left (printHead cfg line hdr) size :=
        (fits_need_cons.mp hprint.2.2.2).1
      rw [left] at hroom
      rw [SipPrint.printBody, if_neg (by omega)]
      rw [← Except.ok.inj (hout.symm.trans h)]
      simp [noBody]
  | some body =>
      cases hhead : print (need 256 :: (printHead cfg line hdr ++ beforeBody cfg (ofBody body))) size with
      | error e =>
          change (print _ size >>= _) = _ at h
          rw [hhead] at h
          cases h
      | ok buf =>
          change (print _ size >>= _) = _ at h
          have hprint := print_ok hhead
          have hout := print_of_fits hprint.1 hprint.2
          have hbuf : buf = text (printHead cfg line hdr) ++ text (beforeBody cfg (ofBody body)) := by
            rw [← Except.ok.inj (hout.symm.trans hhead), text_cons, need_text, List.nil_append,
              text_append]
          rw [fits_need_cons, fits_append, stays_guarded_cons (guarded_need _)] at hprint
          have hs := stays_append.mp (hprint.1 (decide_eq_true hprint.2.1))
          simp only [need_text, List.length_nil, Nat.sub_zero] at hs
          refine hmsg ?_ hprint.2.1 hs.1 hprint.2.2.1 rfl
          -- The body refuses, or leaves room for the NUL.
          have hroom : left (beforeBody cfg (ofBody body)) (left (printHead cfg line hdr) size) =
              size - buf.length := by
            rw [hbuf, List.length_append, ← Nat.sub_sub]
            rfl
          have hlen := hs.1.length_le hprint.2.2.1
          cases ht : body.printBody (size - buf.length) with
          | none =>
              have href : (ofBody body).printBody (size - buf.length) = .error .refused := by
                simp only [ofBody, ht]
              rw [hhead] at h
              change ((ofBody body).printBody (size - buf.length) >>= _) = _ at h
              rw [href] at h
              cases h
          | some t =>
              have hok : (ofBody body).printBody (size - buf.length) = .ok t := by
                simp only [ofBody, ht]
              rw [hhead] at h
              change ((ofBody body).printBody (size - buf.length) >>= _) = _ at h
              rw [hok] at h
              change (if size ≤ (buf ++ t).length then Except.error Stop.outside else
                Except.ok (fillClen (ofBody body) buf t)) = _ at h
              split_ifs at h
              rw [agrees_body hlen (hs.2 hprint.2.2.1) hprint.2.2.2 (by
                rw [← left, hroom]
                exact ht), ← hbuf, Except.ok.inj h]

end

end SipWrite
