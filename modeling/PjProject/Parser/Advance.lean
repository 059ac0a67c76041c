import PjProject.Parser.Consuming

set_option autoImplicit false

/-! # What the functions of the parser consume

Along the text of each function. A loop whose body starts with a character or a token ends; so do
those of all headers but Retry-After, which is left to the file on termination.
-/

namespace SipParser

open Scan
open Consume (Safe Eats Turn Turned Kept Taken Leaves Comes)
open Sdp (Str)

variable {S : Scope} {I : Consume.Input Stop Ctx} {α β γ η : Type}

/-! ## Where a quote is looked for -/

/-- Behind the white space at the cursor there is a context with the property. -/
def BehindWs (P : Ctx → Prop) (c : Ctx) : Prop := ∃ c1, scanSkipWhitespace c = .ok () c1 ∧ P c1

theorem BehindWs.mono {P Q : Ctx → Prop} (h : ∀ c, P c → Q c) {c : Ctx} :
    BehindWs P c → BehindWs Q c := by
  rintro ⟨c1, hr, hp⟩
  exact ⟨c1, hr, h c1 hp⟩

/-- The turn of the loop of `commaList`. -/
def commaTurn (elem : Parser α) (l : List α) : Parser (List α ⊕ List α) := do
  let a ← elem
  let c ← curChar
  if c ≠ 44 then return .inr (l ++ [a])
  else
    let _ ← scanGetChar
    return .inl (l ++ [a])

/-- The list comes to an element that starts at a context with the property. -/
def ElemAt (elem : Parser α) (P : Ctx → Prop) (c : Ctx) : Prop :=
  ∃ l c', Comes (commaTurn elem) [] c l c' ∧ P c'

theorem ElemAt.mono {elem : Parser α} {P Q : Ctx → Prop} (h : ∀ c, P c → Q c) {c : Ctx} :
    ElemAt elem P c → ElemAt elem Q c := by
  rintro ⟨l, c1, hcomes, hp⟩
  exact ⟨l, c1, hcomes, h c1 hp⟩

/-- Reading the header at the cursor, the handler looks for the quote of a display name or of a
scheme at a context with the property. -/
def Handler.Meets (P : Ctx → Prop) : Handler → Ctx → Prop
  | .contact, c => ElemAt parseContact (fun c => c.cur ≠ 42 ∧ BehindWs P c) c
  | .hfrom, c => BehindWs P c
  | .hto, c => BehindWs P c
  | .rr, c => ElemAt parseHdrRrRoute P c
  | .route, c => ElemAt parseHdrRrRoute P c
  | .authorization, c => P c
  | .proxyAuthorization, c => P c
  | .wwwAuthenticate, c => P c
  | .proxyAuthenticate, c => P c
  | _, _ => False

theorem Handler.Meets.mono {P Q : Ctx → Prop} (h : ∀ c, P c → Q c) {handler : Handler} {c : Ctx}
    (hm : handler.Meets P c) : handler.Meets Q c := by
  cases handler with
  | contact => exact ElemAt.mono (fun c hp => ⟨hp.1, hp.2.mono h⟩) hm
  | hfrom => exact BehindWs.mono h hm
  | hto => exact BehindWs.mono h hm
  | rr => exact ElemAt.mono h hm
  | route => exact ElemAt.mono h hm
  | authorization => exact h c hm
  | proxyAuthorization => exact h c hm
  | wwwAuthenticate => exact h c hm
  | proxyAuthenticate => exact h c hm
  | _ => exact hm.elim

theorem onlyIf_safe {f : β → Parser β} (h : ∀ b, Safe I (f b)) (parseParams : Bool)
    (b : β) : Safe I (onlyIf parseParams f b) := Safe.ite (h b) (Safe.pure _)

theorem Handler.not_meets (handler : Handler) {c : Ctx} :
    ¬ handler.Meets (fun _ => False) c := by
  intro hm
  cases handler with
  | contact =>
      obtain ⟨_, _, _, _, _, _, h⟩ := hm
      exact h
  | hfrom =>
      obtain ⟨_, _, h⟩ := hm
      exact h
  | hto =>
      obtain ⟨_, _, h⟩ := hm
      exact h
  | rr =>
      obtain ⟨_, _, _, h⟩ := hm
      exact h
  | route =>
      obtain ⟨_, _, _, h⟩ := hm
      exact h
  | _ => exact hm

variable [hreading : Reading S I]

include hreading

/-! ## Loops -/

theorem left_lt_fuel {c : Ctx} (hc : I.sound c) : I.left c < c.sc.fuel := by
  have hs : Sound S c := Reading.sound hc
  unfold PjScanner.fuel
  rw [hs.buf, Reading.left_eq]
  omega

theorem scanLoop_safe {body : β → Parser (β ⊕ γ)} (h : ∀ b, Turn I (body b)) (b : β) :
    Safe I (scanLoop body b) :=
  Safe.loop (fun _ hc => left_lt_fuel hc) h b

theorem whileChar_safe {ch : UInt8} {body : β → Parser β} (h : ∀ b, Eats I (body b))
    (b : β) : Safe I (whileChar ch body b) := by
  refine scanLoop_safe (fun b => curChar_safe.turn_bind fun c => ?_) b
  exact Turn.ite ((h b).bind fun b' => Safe.pure _).turn (Turn.stop b)

theorem doWhileChar_safe {ch : UInt8} {body : β → Parser β} (h : ∀ b, Eats I (body b))
    (b : β) : Safe I (doWhileChar ch body b) := by
  refine scanLoop_safe (fun b => Eats.turn ?_) b
  refine (h b).bind fun b' => curChar_safe.bind fun c => ?_
  exact Safe.ite (Safe.pure _) (Safe.pure _)

theorem commaList_safe {elem : Parser α} (h : Safe I elem) :
    Safe I (commaList elem) := by
  refine scanLoop_safe (fun l => h.turn_bind fun a => curChar_safe.turn_bind fun c => ?_) []
  exact Turn.ite (Turn.stop _) (scanGetChar_eats.bind fun _ => Safe.pure _).turn

/-! ## Parameters -/

theorem throw_safe : Safe I (throw .syntaxErr : Parser α) := Safe.throw Reading.fails_syntaxErr

theorem getAndUnescape_eats (spec : PjCis) : Eats I (getAndUnescape spec) :=
  (scanGet_eats spec).bind fun _ => Safe.pure _

/-- A program behind a test for the end of the input is only run in front of it. -/
theorem eof_bind_safe {x y : Parser α} (hx : Safe I x)
    (hy : ∀ c : Ctx, I.sound c → c.sc.curptr < S.lim → Kept I c (y c)) :
    Safe I (do
      let eof ← scanIsEof
      if eof then x else y) := by
  intro c hc
  have hs : Sound S c := Reading.sound hc
  refine (scanIsEof_safe c hc).bind fun eof c1 h => ?_
  cases h
  by_cases heof : c.lim ≤ c.sc.curptr
  · simp only [decide_eq_true heof, if_true]
    exact hx c hc
  · simp only [decide_eq_false heof, Bool.false_eq_true, if_false]
    exact hy c hc (by rw [← hs.lim]; omega)

theorem parseParamImp_eats (spec : PjCis) (removeQuote : Bool) :
    Eats I (parseParamImp spec removeQuote) := by
  refine (getAndUnescape_eats spec).bind fun pname => curChar_safe.bind fun c => ?_
  refine Safe.ite (scanGetChar_eats.safe.bind fun _ => eof_bind_safe (Safe.pure _) ?_) (Safe.pure _)
  intro c hc hlt
  refine curChar_bind_kept hc ?_
  split
  · have hquote : Taken I c (scanGetQuote 34 34 c) :=
      scanGetQuote_taken (by decide) (Or.inl rfl) hc (Or.inr hlt)
    exact hquote.kept.bind_safe fun _ => Safe.pure _
  refine (Safe.ite ?_ (Safe.ite ?_ (Safe.pure _)) : Safe I _) c hc
  · exact scanGetChar_eats.safe.bind fun _ => (scanGetUntilCh_safe 93).bind fun _ =>
      scanGetChar_eats.safe.bind fun _ => Safe.pure _
  · exact (getAndUnescape_eats spec).safe.bind fun _ => Safe.pure _

theorem intParseParam_eats : Eats I intParseParam :=
  scanGetChar_eats.bind fun _ => (parseParamImp_eats tokenSpec false).safe

theorem intParseUriParam_eats : Eats I intParseUriParam :=
  scanGetChar_eats.bind fun _ => (parseParamImp_eats paramCharSpec false).safe

theorem intParseHparam_eats : Eats I intParseHparam := by
  refine scanGetChar_eats.bind fun _ => (getAndUnescape_eats hdrCharSpec).safe.bind fun hname => ?_
  refine curChar_safe.bind fun c => Safe.ite ?_ (Safe.pure _)
  refine scanGetChar_eats.safe.bind fun _ => scanIsEof_safe.bind fun eof =>
    curChar_safe.bind fun c => Safe.ite ?_ (Safe.pure _)
  exact (getAndUnescape_eats hdrCharSpec).safe.bind fun _ => Safe.pure _

theorem paramList_safe : Safe I paramList :=
  whileChar_safe (fun _ => intParseParam_eats.bind fun _ => Safe.pure _) []

theorem parseParams_safe (add : η → Param → η) (hdr : η) :
    Safe I (parseParams add hdr) :=
  whileChar_safe (fun _ => intParseParam_eats.bind fun _ => Safe.pure _) hdr

/-! ## URIs -/

theorem intParseHost_safe : Safe I intParseHost := by
  refine curChar_safe.bind fun c => Safe.ite ?_ (scanGet_eats hostSpec).safe
  exact scanGetChar_eats.safe.bind fun _ => (scanGetUntilCh_safe 93).bind fun _ =>
    scanGetChar_eats.safe.bind fun _ => Safe.pure _

theorem parsePort_safe : Safe I parsePort := by
  refine curChar_safe.bind fun c => Safe.ite ?_ (Safe.pure _)
  exact scanGetChar_eats.safe.bind fun _ => (scanGet_eats digitSpec).safe.bind fun _ => Safe.pure _

theorem parseUser_safe (url : SipUri) : Safe I (parseUser url) := by
  refine Safe.bind ((scanPeek_safe _).bind fun _ => Safe.pure _) fun isUser =>
    Safe.ite (Safe.bind ?_ fun _ => Safe.pure _) (Safe.pure _)
  refine (getAndUnescape_eats userSpecLenient).safe.bind fun user => curChar_safe.bind fun c => ?_
  refine Safe.ite ?_ (scanGetChar_eats.safe.bind fun _ => Safe.pure _)
  exact scanGetChar_eats.safe.bind fun _ => (getAndUnescape_eats passwdSpec).safe.bind fun _ =>
    scanGetChar_eats.safe.bind fun _ => Safe.pure _

theorem parseScheme_safe : Safe I parseScheme :=
  (scanGet_eats tokenSpec).safe.bind fun _ => scanGetChar_eats.safe.bind fun _ =>
    Safe.ite throw_safe (Safe.pure _)

theorem schemeSecure_safe (scheme : Str) : Safe I (schemeSecure scheme) :=
  Safe.ite (Safe.pure _) (Safe.ite (Safe.pure _) throw_safe)

theorem parseUriParams_safe (url : SipUri) : Safe I (parseUriParams url) :=
  whileChar_safe (fun _ => intParseUriParam_eats.bind fun _ => Safe.pure _) url

theorem parseUriHeaders_safe (url : SipUri) : Safe I (parseUriHeaders url) := by
  refine curChar_safe.bind fun c => Safe.ite ?_ (Safe.pure _)
  exact doWhileChar_safe (fun _ => intParseHparam_eats.bind fun _ => Safe.pure _) url

theorem intParseSipUrl_safe (parseParams : Bool) :
    Safe I (intParseSipUrl parseParams) := by
  refine getSkipWs_safe.bind fun skipWs => (setSkipWs_safe 0).bind fun _ =>
    parseScheme_safe.bind fun scheme => (schemeSecure_safe scheme).bind fun secure =>
    (parseUser_safe _).bind fun url => Safe.bind ?_ fun hp => ?_
  · exact intParseHost_safe.bind fun _ => parsePort_safe.bind fun _ => Safe.pure _
  · refine (onlyIf_safe parseUriParams_safe _ _).bind fun url =>
      (onlyIf_safe parseUriHeaders_safe _ _).bind fun url => ?_
    exact (setSkipWs_safe _).bind fun _ => scanSkipWhitespace_safe.bind fun _ => Safe.pure _

theorem telParam_eats : Eats I telParam := by
  refine scanGetChar_eats.bind fun _ => (scanGet_eats paramCharSpec).safe.bind fun pname =>
    curChar_safe.bind fun c => Safe.ite ?_ (Safe.pure _)
  exact scanGetChar_eats.safe.bind fun _ =>
    (getAndUnescape_eats telParsingPvalueSpec).safe.bind fun _ => Safe.pure _

theorem telParams_safe (uri : TelUri) : Safe I (telParams uri) := by
  refine curChar_safe.bind fun c => Safe.ite ?_ (Safe.pure _)
  exact doWhileChar_safe (fun _ => telParam_eats.bind fun _ => Safe.pure _) uri

theorem telUriParse_safe (parseParams : Bool) : Safe I (telUriParse parseParams) := by
  refine getSkipWs_safe.bind fun skipWs => (setSkipWs_safe 0).bind fun _ =>
    parseScheme_safe.bind fun token => Safe.ite throw_safe ?_
  refine (getAndUnescape_eats telNumberSpec).safe.bind fun number =>
    (onlyIf_safe telParams_safe _ _).bind fun uri => ?_
  exact (setSkipWs_safe _).bind fun _ => scanSkipWhitespace_safe.bind fun _ => Safe.pure _

theorem intParseOtherUri_safe : Safe I intParseOtherUri :=
  getSkipWs_safe.bind fun _ => (setSkipWs_safe 0).bind fun _ => parseScheme_safe.bind fun _ =>
    (scanGet_eats otherUriContent).safe.bind fun _ => (setSkipWs_safe _).bind fun _ => Safe.pure _

theorem uriHandler_safe (scheme : Str) (parseParams : Bool) :
    Safe I (uriHandler scheme parseParams) :=
  Safe.ite ((intParseSipUrl_safe _).bind fun _ => Safe.pure _)
    (Safe.ite ((telUriParse_safe _).bind fun _ => Safe.pure _)
      (intParseOtherUri_safe.bind fun _ => Safe.pure _))

theorem intParseUri_safe (parseParams : Bool) : Safe I (intParseUri parseParams) :=
  (scanPeek_safe tokenSpec).bind fun _ => Safe.ite throw_safe (uriHandler_safe _ _)

theorem parseDisplay_kept {c : Ctx} (hc : I.sound c) (h : ¬ Overruns I c) :
    Kept I c (parseDisplay c) := by
  refine curChar_bind_kept hc ?_
  split
  · exact (quote_taken hc h).kept.bind_safe fun _ => Safe.pure _
  split
  · have hpeek : Kept I c (scanPeek displaySpec c) := scanPeek_safe displaySpec c hc
    exact hpeek.bind_safe fun next =>
      Safe.ite ((scanGetUntilCh_safe 60).bind fun _ => Safe.pure _) (Safe.pure _)
  · exact Safe.pure _ c hc

theorem intParseNameAddr_kept {c : Ctx} (hc : I.sound c) (h : ¬ Overruns I c) :
    Kept I c (intParseNameAddr c) := by
  refine (parseDisplay_kept hc h).bind_safe fun display => scanSkipWhitespace_safe.bind fun _ =>
    curChar_safe.bind fun c => Safe.ite ?_ (Safe.ite throw_safe ?_)
  · exact scanGetChar_eats.safe.bind fun _ => (intParseUri_safe true).bind fun uri =>
      scanGetChar_eats.safe.bind fun _ => Safe.ite throw_safe (Safe.pure _)
  · exact (intParseUri_safe true).bind fun _ => Safe.pure _

theorem intParseUriOrNameAddr_kept (opt : UriOption) {c : Ctx} (hc : I.sound c)
    (h : ¬ BehindWs (Overruns I) c) : Kept I c (intParseUriOrNameAddr opt c) := by
  have hws : Kept I c (scanSkipWhitespace c) := scanSkipWhitespace_safe c hc
  refine hws.bind fun _ c1 hr => ?_
  have hc1 := hws.sound_of_ok hr
  have hname := intParseNameAddr_kept hc1 fun hover => h ⟨c1, hr, hover⟩
  refine curChar_bind_kept hc1 ?_
  split
  · exact hname.bind_safe fun _ => Safe.pure _
  have hpeek : Kept I c1 (scanPeek displaySpec c1) := scanPeek_safe displaySpec c1 hc1
  refine hpeek.bind fun next c2 hr2 => ?_
  obtain rfl : c2 = c1 := eq_of_look hr2
  split
  · have huri : Safe I (uriHandler next.1 (!opt.inFromToHdr)) := uriHandler_safe _ _
    exact (huri.bind fun uri => Safe.pure _) _ hc1
  · exact hname.bind_safe fun _ => Safe.pure _

/-! ## Headers -/

theorem setInfo_safe (f : MsgInfo → MsgInfo) : Safe I (setInfo f) := by
  intro c hc
  refine ⟨Reading.informed f hc, ?_⟩
  rw [Reading.left_eq, Reading.left_eq]

theorem parseHdrEnd_safe : Safe I parseHdrEnd := by
  refine scanIsEof_safe.bind fun eof => Safe.ite (Safe.pure _) (curChar_safe.bind fun c => ?_)
  exact Safe.ite (scanGetChar_eats.safe.bind fun _ => Safe.pure _) scanGetNewline_eats.safe

theorem atLineEnd_safe : Safe I atLineEnd :=
  scanIsEof_safe.bind fun _ => curChar_safe.bind fun _ => Safe.pure _

/-- A value is stored inside the array, or the array is one that `rdata` shares. -/
theorem addValue_eats {put : List Str → Parser Unit} (hput : ∀ l, Safe I (put l))
    {values : List Str} (hlen : values.length < genericArrayMaxCount ∨ I.fails .outOfBounds) :
    Eats I (addValue put values) := by
  refine (scanGet_eats notCommaOrNewline).bind fun v => ?_
  split
  · exact (hput _).bind fun _ => Safe.pure _
  · rename_i hge
    rcases hlen with hlt | hfails
    · exact absurd hlt hge
    · exact Safe.throw hfails

theorem moreValues_safe {put : List Str → Parser Unit} (hput : ∀ l, Safe I (put l))
    {values : List Str} (hlen : values.length < genericArrayMaxCount ∨ I.fails .outOfBounds) :
    Safe I (moreValues put values) := by
  refine Safe.loop_inv (P := fun l : List Str => l.length < genericArrayMaxCount ∨ I.fails .outOfBounds)
    (fun _ hc => left_lt_fuel hc) (fun l hl => ?_) (fun l c l' c' _ h => ?_) hlen
  · refine curChar_safe.turn_bind fun ch => Turn.ite (Eats.turn ?_) (Turn.stop _)
    refine scanGetChar_eats.bind fun _ => (addValue_eats hput hl).safe.bind fun l' => ?_
    exact Safe.ite (Safe.pure _) (Safe.pure _)
  · -- the loop goes on with a list that is not full
    obtain ⟨ch, c1, -, h1⟩ := Consume.ok_of_bind h
    split at h1
    · obtain ⟨_, c2, -, h2⟩ := Consume.ok_of_bind h1
      obtain ⟨l2, c3, -, h3⟩ := Consume.ok_of_bind h2
      split at h3
      · cases h3
      · rename_i hlt
        cases h3
        exact Or.inl (not_le.mp hlt)
    · cases h1

theorem parseGenericArrayHdr_safe {put : List Str → Parser Unit}
    (hput : ∀ l, Safe I (put l)) {values : List Str} (hlen : values = [] ∨ I.fails .outOfBounds) :
    Safe I (parseGenericArrayHdr put values) := by
  refine atLineEnd_safe.bind fun done => Safe.ite ?_ (Safe.ite throw_safe ?_)
  · exact parseHdrEnd_safe.bind fun _ => Safe.pure _
  · intro c hc
    have hfirst : values.length < genericArrayMaxCount ∨ I.fails .outOfBounds := by
      refine hlen.imp_left ?_
      rintro rfl
      decide
    refine ((addValue_eats hput hfirst).safe c hc).bind fun l c1 h => ?_
    have hc1 := ((addValue_eats hput hfirst).safe c hc).sound_of_ok h
    have hl : l.length < genericArrayMaxCount ∨ I.fails .outOfBounds := by
      refine hlen.imp_left ?_
      rintro rfl
      obtain ⟨v, c2, -, h2⟩ := Consume.ok_of_bind h
      obtain ⟨_, c3, -, h3⟩ := Consume.ok_of_bind h2
      cases h3
      show 1 < genericArrayMaxCount
      decide
    refine ((moreValues_safe hput hl).bind fun l2 => ?_) c1 hc1
    exact parseHdrEnd_safe.bind fun _ => Safe.pure _

theorem stringFractions_safe (hvalue : Str) : Safe I (stringFractions hvalue) := by
  refine scanLoop_safe (fun hvalue => curChar_safe.turn_bind fun c => Turn.ite (Eats.turn ?_)
    (Turn.stop _)) hvalue
  refine (scanGet_eats notNewline).bind fun v => atLineEnd_safe.bind fun done => ?_
  exact Safe.ite (Safe.pure _) ((scanGet_eats notNewline).safe.bind fun _ => Safe.pure _)

theorem parseGenericStringHdr_safe : Safe I parseGenericStringHdr :=
  (stringFractions_safe []).bind fun _ => parseHdrEnd_safe.bind fun _ => Safe.pure _

theorem parseGenericIntHdr_safe : Safe I parseGenericIntHdr :=
  (scanGet_eats digitSpec).safe.bind fun _ => parseHdrEnd_safe.bind fun _ => Safe.pure _

theorem parseHdrArray_safe (kind : ArrayKind) : Safe I (parseHdrArray kind) :=
  (parseGenericArrayHdr_safe (fun _ => Safe.pure _) (Or.inl rfl)).bind fun _ => Safe.pure _

theorem parseHdrShared_safe (kind : ArrayKind) (cell : MsgInfo → Option (List Str))
    (put : List Str → MsgInfo → MsgInfo) : Safe I (parseHdrShared kind cell put) := by
  intro c hc
  have hput : ∀ l, Safe I (setInfo (put l)) := fun l => setInfo_safe _
  refine Kept.bind (Leaves.refl hc : Kept I c (getInfo c)) fun rdata c1 h => ?_
  cases h
  cases hr : c.rdata with
  | none => exact parseHdrArray_safe kind c hc
  | some info =>
      -- there is an `rdata`, so that the stores are not all inside the array
      have hshared : I.fails .outOfBounds := by
        refine (Reading.alone hc).resolve_right fun hnone => ?_
        rw [hnone] at hr
        cases hr
      dsimp only
      cases cell info with
      | some values =>
          have h : Safe I (parseGenericArrayHdr (fun l => setInfo (put l)) values) :=
            parseGenericArrayHdr_safe hput (Or.inr hshared)
          exact (h.bind fun _ => Safe.pure _) c hc
      | none =>
          have h : Safe I (parseGenericArrayHdr (fun l => setInfo (put l)) []) :=
            parseGenericArrayHdr_safe hput (Or.inl rfl)
          exact ((hput []).bind fun _ => h.bind fun _ => Safe.pure _) c hc

theorem parseHdrMaxForwards_safe : Safe I parseHdrMaxForwards :=
  parseGenericIntHdr_safe.bind fun _ => (setInfo_safe _).bind fun _ => Safe.pure _

theorem parseHdrContentLen_safe : Safe I parseHdrContentLen :=
  parseGenericIntHdr_safe.bind fun _ => (setInfo_safe _).bind fun _ => Safe.pure _

theorem parseHdrCallId_safe : Safe I parseHdrCallId :=
  (scanGet_eats notNewline).safe.bind fun _ => parseHdrEnd_safe.bind fun _ =>
    (setInfo_safe _).bind fun _ => Safe.pure _

theorem parseHdrCseq_safe : Safe I parseHdrCseq :=
  (scanGet_eats digitSpec).safe.bind fun _ => (scanGet_eats tokenSpec).safe.bind fun _ =>
    parseHdrEnd_safe.bind fun _ => (setInfo_safe _).bind fun _ => Safe.pure _

theorem parseHdrContentType_safe : Safe I parseHdrContentType := by
  refine (scanGet_eats tokenSpec).safe.bind fun type => scanGetChar_eats.safe.bind fun _ =>
    (scanGet_eats tokenSpec).safe.bind fun subtype => paramList_safe.bind fun param => ?_
  exact parseHdrEnd_safe.bind fun _ => (setInfo_safe _).bind fun _ => Safe.pure _

theorem commaTurn_turned {elem : Parser α} {l : List α} {c : Ctx} (h : Kept I c (elem c)) :
    Turned I c (commaTurn elem l c) := by
  unfold commaTurn
  refine h.turn_bind fun a => curChar_safe.turn_bind fun c => ?_
  exact Turn.ite (Turn.stop _) (scanGetChar_eats.bind fun _ => Safe.pure _).turn

/-- A list is safe if its elements are, wherever they start. -/
theorem commaList_kept {elem : Parser α} {c : Ctx} (hc : I.sound c)
    (h : ¬ ElemAt elem (fun c' => I.sound c' ∧ ¬ Kept I c' (elem c')) c) :
    Kept I c (commaList elem c) := by
  show Kept I c (Consume.loop (fun c => c.sc.fuel) .diverges (commaTurn elem) [] c)
  refine Consume.loop_kept (fun l c' hc' hbad => ?_) hc (left_lt_fuel hc) h
  exact commaTurn_turned (not_not.mp fun hk => hbad ⟨hc', hk⟩)

theorem parseContact_kept {c : Ctx} (hc : I.sound c)
    (h : ¬ (c.cur ≠ 42 ∧ BehindWs (Overruns I) c)) : Kept I c (parseContact c) := by
  refine curChar_bind_kept hc ?_
  split
  · exact (scanGetChar_eats.safe.bind fun _ => Safe.pure _) c hc
  · rename_i hstar
    exact (intParseUriOrNameAddr_kept _ hc fun hws => h ⟨hstar, hws⟩).bind_safe fun uri =>
      parseParams_safe _ _

theorem parseHdrContact_kept {c : Ctx} (hc : I.sound c)
    (h : ¬ ElemAt parseContact (fun c => c.cur ≠ 42 ∧ BehindWs (Overruns I) c) c) :
    Kept I c (parseHdrContact c) := by
  have hlist : Kept I c (commaList parseContact c) := by
    refine commaList_kept hc ?_
    rintro ⟨l, c', hcomes, hc', hbad⟩
    exact hbad (parseContact_kept hc' fun hstart => h ⟨l, c', hcomes, hstart⟩)
  exact hlist.bind_safe fun _ => parseHdrEnd_safe.bind fun _ => Safe.pure _

theorem parseHdrFromto_kept {c : Ctx} (hc : I.sound c) (h : ¬ BehindWs (Overruns I) c) :
    Kept I c (parseHdrFromto c) :=
  (intParseUriOrNameAddr_kept _ hc h).bind_safe fun _ => (parseParams_safe _ _).bind fun _ =>
    parseHdrEnd_safe.bind fun _ => Safe.pure _

/-- The list of a Route or a Record-Route header. -/
theorem routes_kept {c : Ctx} (hc : I.sound c) (h : ¬ ElemAt parseHdrRrRoute (Overruns I) c) :
    Kept I c (commaList parseHdrRrRoute c) := by
  refine commaList_kept hc ?_
  rintro ⟨l, c', hcomes, hc', hbad⟩
  refine hbad ((intParseNameAddr_kept hc' fun hover => h ⟨l, c', hcomes, hover⟩).bind_safe fun _ => ?_)
  exact paramList_safe.bind fun _ => Safe.pure _

theorem parseHdrRr_kept {c : Ctx} (hc : I.sound c) (h : ¬ ElemAt parseHdrRrRoute (Overruns I) c) :
    Kept I c (parseHdrRr c) :=
  (routes_kept hc h).bind_safe fun _ => parseHdrEnd_safe.bind fun _ =>
    (setInfo_safe _).bind fun _ => Safe.pure _

theorem parseHdrRoute_kept {c : Ctx} (hc : I.sound c)
    (h : ¬ ElemAt parseHdrRrRoute (Overruns I) c) : Kept I c (parseHdrRoute c) :=
  (routes_kept hc h).bind_safe fun _ => parseHdrEnd_safe.bind fun _ =>
    (setInfo_safe _).bind fun _ => Safe.pure _

theorem parseSipVersion_safe : Safe I parseSipVersion := by
  refine (scanGet_eats alphaSpec).safe.bind fun sip => scanGetChar_eats.safe.bind fun c =>
    Safe.ite throw_safe ((scanGetN_safe 3).bind fun version => ?_)
  exact Safe.ite throw_safe (Safe.pure _)

theorem parseVia_safe : Safe I parseVia := by
  refine parseSipVersion_safe.bind fun _ => scanGetChar_eats.safe.bind fun c =>
    Safe.ite throw_safe ?_
  refine (scanGet_eats tokenSpec).safe.bind fun transport => intParseHost_safe.bind fun host =>
    parsePort_safe.bind fun port => Safe.bind ?_ fun hdr => ?_
  · refine whileChar_safe (fun hdr => scanGetChar_eats.bind fun _ => ?_) _
    exact (parseParamImp_eats viaParamSpec false).safe.bind fun _ => Safe.pure _
  · refine curChar_safe.bind fun c => Safe.ite ?_ (Safe.pure _)
    exact scanGetChar_eats.safe.bind fun _ => (scanGetUntilCh_safe 41).bind fun _ =>
      scanGetChar_eats.safe.bind fun _ => Safe.pure _

theorem parseHdrVia_safe : Safe I parseHdrVia :=
  (commaList_safe parseVia_safe).bind fun _ => parseHdrEnd_safe.bind fun _ =>
    (setInfo_safe _).bind fun _ => Safe.pure _

theorem parseHdrAuth_kept (removeQuote : Bool) (add : η → Param → η) (zero : η)
    (hdr : Str → η → Hdr) {c : Ctx} (hc : I.sound c) (h : ¬ Overruns I c) :
    Kept I c (parseHdrAuth removeQuote add zero hdr c) := by
  have hscheme : Kept I c (parseAuthScheme c) := by
    refine curChar_bind_kept hc ?_
    split
    · exact (quote_taken hc h).kept.bind_safe fun _ => Safe.pure _
    · exact (scanGet_eats tokenSpec).safe c hc
  refine hscheme.bind_safe fun scheme => Safe.ite (Safe.bind ?_ fun digest => ?_) throw_safe
  · refine scanLoop_safe (fun d => Eats.turn ?_) zero
    refine (parseParamImp_eats tokenSpec removeQuote).bind fun p => scanIsEof_safe.bind fun eof =>
      curChar_safe.bind fun c => Safe.ite ?_ (Safe.pure _)
    exact scanGetChar_eats.safe.bind fun _ => Safe.pure _
  · exact parseHdrEnd_safe.bind fun _ => Safe.pure _

/-- The handlers, all but that of Retry-After. -/
theorem handler_kept {h : Handler} (hne : h ≠ .retryAfter) {c : Ctx} (hc : I.sound c)
    (hq : ¬ h.Meets (Overruns I) c) : Kept I c (h.parse c) := by
  cases h with
  | accept => exact parseHdrArray_safe .accept c hc
  | allow => exact parseHdrArray_safe .allow c hc
  | callId => exact parseHdrCallId_safe c hc
  | contact => exact parseHdrContact_kept hc hq
  | contentLen => exact parseHdrContentLen_safe c hc
  | contentType => exact parseHdrContentType_safe c hc
  | cseq => exact parseHdrCseq_safe c hc
  | expires | minExpires => exact (parseGenericIntHdr_safe.bind fun _ => Safe.pure _) c hc
  | hfrom | hto =>
      exact (parseHdrFromto_kept hc hq).bind_safe fun _ => (setInfo_safe _).bind fun _ => Safe.pure _
  | maxForwards => exact parseHdrMaxForwards_safe c hc
  | rr => exact parseHdrRr_kept hc hq
  | route => exact parseHdrRoute_kept hc hq
  | require | supported => exact parseHdrShared_safe _ _ _ c hc
  | retryAfter => exact absurd rfl hne
  | unsupported => exact parseHdrArray_safe .unsupported c hc
  | via => exact parseHdrVia_safe c hc
  | authorization | proxyAuthorization | wwwAuthenticate | proxyAuthenticate =>
      exact parseHdrAuth_kept _ _ _ _ hc hq

end SipParser
