import PjProject.Parser.Termination

set_option autoImplicit false

/-! # The array of a list header

`parse_generic_array_hdr` stores the values of a line in an array of 32. It looks at the count before the
first value and behind each of the others, but not between the first value and the second. A header that
`rdata` shares may come to a line with 31 values: then the second value of the line is stored behind the
array. That is the only way to do so (`stores_inside_iff`).
-/

namespace SipParser

open Scan
open Consume (Comes)
open Sdp (Str str)

/-! ## The calls -/

/-- One turn of `moreValues`. -/
def moreTurn (put : List Str → Parser Unit) (values : List Str) :
    Parser (List Str ⊕ List Str) := do
  let c ← curChar
  if c = 44 then
    let _ ← scanGetChar
    let values ← addValue put values
    if genericArrayMaxCount ≤ values.length then return .inr values else return .inl values
  else return .inr values

theorem moreValues_eq (put : List Str → Parser Unit) :
    moreValues put = scanLoop (moreTurn put) := rfl

/-- The headers that are shared by the lines of a message: the function, the member of `msg_info`, and how it
is set. -/
inductive SharedHdr :
    Handler → (MsgInfo → Option (List Str)) → (List Str → MsgInfo → MsgInfo) → Prop
  | require : SharedHdr .require (·.require) fun l info => { info with require := some l }
  | supported : SharedHdr .supported (·.supported) fun l info => { info with supported := some l }

/-- The handler `h` calls, at `c`, `parse_generic_array_hdr` with a header that has `values`, at `c'`. -/
inductive Calls (h : Handler) (c : Ctx) : (List Str → Parser Unit) → List Str → Ctx → Prop
  | own (hown : h = .accept ∨ h = .allow ∨ h = .unsupported) : Calls h c (fun _ => return ()) [] c
  | alone {cell : MsgInfo → Option (List Str)} {put : List Str → MsgInfo → MsgInfo}
      (hs : SharedHdr h cell put) (hr : c.rdata = none) : Calls h c (fun _ => return ()) [] c
  | first {cell : MsgInfo → Option (List Str)} {put : List Str → MsgInfo → MsgInfo}
      {info : MsgInfo} (hs : SharedHdr h cell put) (hr : c.rdata = some info)
      (hc : cell info = none) :
      Calls h c (fun l => setInfo (put l)) [] { c with rdata := some (put [] info) }
  | again {cell : MsgInfo → Option (List Str)} {put : List Str → MsgInfo → MsgInfo}
      {info : MsgInfo} {values : List Str} (hs : SharedHdr h cell put) (hr : c.rdata = some info)
      (hc : cell info = some values) : Calls h c (fun l => setInfo (put l)) values c

/-- What a handler does is its call. -/
theorem Calls.parse_eq {h : Handler} {c c' : Ctx} {put : List Str → Parser Unit}
    {values : List Str} (hcall : Calls h c put values c') :
    ∃ f : List Str → List Hdr,
      h.parse c = (parseGenericArrayHdr put values >>= fun l => return f l) c' := by
  cases hcall with
  | own hown =>
      rcases hown with rfl | rfl | rfl
      · exact ⟨fun l => [.array .accept l], rfl⟩
      · exact ⟨fun l => [.array .allow l], rfl⟩
      · exact ⟨fun l => [.array .unsupported l], rfl⟩
  | alone hs hr =>
      cases hs with
      | require =>
          refine ⟨fun l => [.array .require l], ?_⟩
          show parseHdrShared _ _ _ c = _
          simp [parseHdrShared, getInfo, bind, EStateM.bind, hr, parseHdrArray]
      | supported =>
          refine ⟨fun l => [.array .supported l], ?_⟩
          show parseHdrShared _ _ _ c = _
          simp [parseHdrShared, getInfo, bind, EStateM.bind, hr, parseHdrArray]
  | first hs hr hc =>
      cases hs with
      | require =>
          refine ⟨fun _ => [.shared .require], ?_⟩
          show parseHdrShared _ _ _ c = _
          simp [parseHdrShared, getInfo, bind, EStateM.bind, hr, hc, setInfo]
      | supported =>
          refine ⟨fun _ => [.shared .supported], ?_⟩
          show parseHdrShared _ _ _ c = _
          simp [parseHdrShared, getInfo, bind, EStateM.bind, hr, hc, setInfo]
  | again hs hr hc =>
      cases hs with
      | require | supported =>
          refine ⟨fun _ => [], ?_⟩
          show parseHdrShared _ _ _ c = _
          simp [parseHdrShared, getInfo, bind, EStateM.bind, hr, hc]

/-! ## The stores -/

/-- In the call, at `c`, `parse_generic_array_hdr` gets to a store at the index `i`: a value is found, the first
one or one behind a comma. -/
inductive CallStores (put : List Str → Parser Unit) (values : List Str) (c : Ctx) : Nat → Prop
  | first {v : Str} {c1 : Ctx} (hend : atLineEnd c = .ok false c)
      (hcheck : ¬ genericArrayMaxCount ≤ values.length)
      (hget : scanGet notCommaOrNewline c = .ok v c1) : CallStores put values c values.length
  | more {values' values'' : List Str} {v : Str} {ch : Int} {c1 c2 c3 c4 : Ctx}
      (hend : atLineEnd c = .ok false c) (hcheck : ¬ genericArrayMaxCount ≤ values.length)
      (hfirst : addValue put values c = .ok values' c1)
      (hloop : Comes (moreTurn put) values' c1 values'' c2) (hcomma : curChar c2 = .ok 44 c2)
      (hch : scanGetChar c2 = .ok ch c3) (hget : scanGet notCommaOrNewline c3 = .ok v c4) :
      CallStores put values c values''.length

/-- The header line at `c` makes `parse_generic_array_hdr` store at the index `i`. -/
def LineStores (c : Ctx) (i : Nat) : Prop :=
  ∃ hname c1 h put values c2, parseHname c = .ok hname c1 ∧ findHandler hname = some h ∧
    Calls h c1 put values c2 ∧ CallStores put values c2 i

/-- The text at `c` begins with a value, which is added to `values`, a comma and another value. -/
def TwoValues (put : List Str → Parser Unit) (values : List Str) (c : Ctx) : Prop :=
  ∃ l c1 ch c2 v c3, atLineEnd c = .ok false c ∧ addValue put values c = .ok l c1 ∧
    curChar c1 = .ok 44 c1 ∧ scanGetChar c1 = .ok ch c2 ∧
      scanGet notCommaOrNewline c2 = .ok v c3

/-- The line at `c` is for a header of `rdata` that has 31 values, and has two values at least. -/
def FullLine (c : Ctx) : Prop :=
  ∃ hname c1 h cell put info values, parseHname c = .ok hname c1 ∧ findHandler hname = some h ∧
    SharedHdr h cell put ∧ c1.rdata = some info ∧ cell info = some values ∧
    values.length = 31 ∧ TwoValues (fun l => setInfo (put l)) values c1

/-- A value that is stored makes the list longer by one, and leaves the cursor where its token ends. -/
theorem addValue_ok {put : List Str → Parser Unit} {values l : List Str} {c c2 : Ctx}
    (h : addValue put values c = .ok l c2) :
    ∃ v c1, scanGet notCommaOrNewline c = .ok v c1 ∧ values.length < genericArrayMaxCount ∧
      l = values ++ [v] ∧ put (values ++ [v]) c1 = .ok () c2 := by
  obtain ⟨v, c1, hget, h1⟩ := Consume.ok_of_bind h
  split at h1
  next hlt =>
    obtain ⟨_, c3, hput, h2⟩ := Consume.ok_of_bind h1
    cases h2
    exact ⟨v, c1, hget, hlt, rfl, hput⟩
  next => cases h1

/-- The loop goes on with a list that is not full. -/
theorem moreTurn_again {put : List Str → Parser Unit} {values l : List Str} {c c' : Ctx}
    (h : moreTurn put values c = .ok (.inl l) c') : l.length < genericArrayMaxCount := by
  obtain ⟨ch, c1, -, h1⟩ := Consume.ok_of_bind h
  split at h1
  · obtain ⟨_, c2, -, h2⟩ := Consume.ok_of_bind h1
    obtain ⟨l2, c3, -, h3⟩ := Consume.ok_of_bind h2
    split at h3
    · cases h3
    · rename_i hlt
      cases h3
      exact not_le.mp hlt
  · cases h1

/-- Where the loop comes to, either it has not taken a turn or the list is not full. -/
theorem comes_short {put : List Str → Parser Unit} {values l : List Str} {c c' : Ctx}
    (h : Comes (moreTurn put) values c l c') :
    (l = values ∧ c' = c) ∨ l.length < genericArrayMaxCount := by
  induction h with
  | here => exact .inl ⟨rfl, rfl⟩
  | again hturn hrest ih =>
      rcases ih with ⟨rfl, -⟩ | hlt
      · exact .inr (moreTurn_again hturn)
      · exact .inr hlt

/-- A call that stores behind the array begins with 31 values, and the store is that of the second value of the
line. -/
theorem CallStores.outside {put : List Str → Parser Unit} {values : List Str} {c : Ctx} {i : Nat}
    (h : CallStores put values c i) (hi : genericArrayMaxCount ≤ i) :
    values.length = 31 ∧ TwoValues put values c := by
  cases h with
  | first _ hcheck => exact absurd hi hcheck
  | @more _ _ v ch c1 c2 c3 c4 hend hcheck hfirst hloop hcomma hch hget =>
      obtain ⟨v', c', -, hlt, rfl, -⟩ := addValue_ok hfirst
      rcases comes_short hloop with ⟨rfl, rfl⟩ | hshort
      · have hlen : values.length = 31 := by
          have h32 : genericArrayMaxCount = 32 := rfl
          simp only [List.length_append, List.length_cons, List.length_nil] at hi
          omega
        exact ⟨hlen, _, _, ch, c3, v, c4, hend, hfirst, hcomma, hch, hget⟩
      · omega

/-- The second value of a line that begins with 31 values in the header. -/
theorem TwoValues.stores {put : List Str → Parser Unit} {values : List Str} {c : Ctx}
    (hlen : values.length = 31) (h : TwoValues put values c) :
    CallStores put values c genericArrayMaxCount := by
  obtain ⟨l, c1, ch, c2, v, c3, hend, hfirst, hcomma, hch, hget⟩ := h
  obtain ⟨v', c', -, -, rfl, -⟩ := addValue_ok hfirst
  have hcheck : ¬ genericArrayMaxCount ≤ values.length := by
    rw [hlen]
    decide
  have hidx : (values ++ [v']).length = genericArrayMaxCount := by
    rw [List.length_append, hlen]
    rfl
  rw [← hidx]
  exact .more hend hcheck hfirst (.here _ _) hcomma hch hget

/-! ## Lines -/

theorem move_rdata {α : Type} {f : PjScanner → Nat → Except Stop (PjScanner × α)} {c c' : Ctx}
    {a : α} (h : move f c = .ok a c') : c'.rdata = c.rdata := by
  unfold move at h
  split at h
  · cases h
    rfl
  · cases h

theorem parseHname_rdata {c c' : Ctx} {hname : Str} (h : parseHname c = .ok hname c') :
    c'.rdata = c.rdata := by
  obtain ⟨_, c1, h1, h⟩ := Consume.ok_of_bind h
  obtain ⟨_, c2, h2, h⟩ := Consume.ok_of_bind h
  obtain ⟨_, c3, h3, h⟩ := Consume.ok_of_bind h
  obtain ⟨ch, c4, h4, h⟩ := Consume.ok_of_bind h
  have hlast : c' = c4 := by
    split at h
    · cases h
    · cases h
      rfl
  cases h1
  cases h3
  rw [hlast, move_rdata h4, move_rdata h2]

/-- A line stores behind the array exactly if it is one for a full header. -/
theorem lineStores_outside_iff {c : Ctx} :
    (∃ i, LineStores c i ∧ genericArrayMaxCount ≤ i) ↔ FullLine c := by
  constructor
  · rintro ⟨i, ⟨hname, c1, h, put, values, c2, hn, hf, hcall, hstores⟩, hi⟩
    obtain ⟨hlen, htwo⟩ := hstores.outside hi
    cases hcall with
    | own => simp at hlen
    | alone => simp at hlen
    | first => simp at hlen
    | again hs hr hc => exact ⟨hname, c1, h, _, _, _, values, hn, hf, hs, hr, hc, hlen, htwo⟩
  · rintro ⟨hname, c1, h, cell, put, info, values, hn, hf, hs, hr, hc, hlen, htwo⟩
    exact ⟨_, ⟨hname, c1, h, _, values, c1, hn, hf, .again hs hr hc, htwo.stores hlen⟩, le_rfl⟩

/-- The header lines of a message that `pjsip_parse_rdata` comes to. -/
def MsgLine (buf : Str) (rdata : MsgInfo) (c : Ctx) : Prop :=
  ∃ c0 isStatus c1 line c2 l, initCtx buf buf.length (some rdata) = .ok c0 ∧
    attempt msgKind c0 = .ok (some (some isStatus), c1) ∧
    attempt (if isStatus then intParseStatusLine else intParseReqLine) c1 = .ok (some line, c2) ∧
    Comes (lineTurn false) Lines.empty c2 l c

/-- **The array of a list header**: each store for a header line of the message is at an index below 32, exactly
if no line with two values comes when its header has 31; for lines without an `rdata`, such as those of the
parts of a body, each store is. -/
theorem stores_inside_iff (buf : Str) (rdata : MsgInfo) :
    ((∀ c, MsgLine buf rdata c → ∀ i, LineStores c i → i < genericArrayMaxCount) ↔
        ∀ c, MsgLine buf rdata c → ¬ FullLine c) ∧
      ∀ c : Ctx, c.rdata = none → ∀ i, LineStores c i → i < genericArrayMaxCount := by
  constructor
  · constructor
    · intro h c hc hfull
      obtain ⟨i, hstores, hi⟩ := lineStores_outside_iff.mpr hfull
      exact absurd (h c hc i hstores) (not_lt.mpr hi)
    · intro h c hc i hstores
      by_contra hi
      exact h c hc (lineStores_outside_iff.mp ⟨i, hstores, not_lt.mp hi⟩)
  · intro c hc i hstores
    by_contra hi
    obtain ⟨hname, c1, h, cell, put, info, values, hn, _, _, hr, _⟩ :=
      lineStores_outside_iff.mp ⟨i, hstores, not_lt.mp hi⟩
    rw [parseHname_rdata hn, hc] at hr
    cases hr

/-! ## A message whose second Supported line overflows -/

/-- What a step of the parser returns. -/
def stepOf {α : Type} (x : Parser α) (c : Ctx) : Option (α × Ctx) :=
  match x c with
  | .ok a c' => some (a, c')
  | .error _ _ => none

theorem stepOf_eq_some {α : Type} {x : Parser α} {c c' : Ctx} {a : α} :
    stepOf x c = some (a, c') ↔ x c = .ok a c' := by
  unfold stepOf
  cases x c <;> simp

theorem toOption_eq_some {ε α : Type} {x : Except ε α} {a : α} :
    x.toOption = some a ↔ x = .ok a := by
  cases x <;> simp [Except.toOption]

/-- The second header line of a request. -/
def secondLine (buf : Str) : Option Ctx := do
  let c0 ← (initCtx buf buf.length (some MsgInfo.zero)).toOption
  let (kind, c1) ← (attempt msgKind c0).toOption
  let (line, c2) ← (attempt intParseReqLine c1).toOption
  let (turn, c3) ← stepOf (lineTurn false Lines.empty) c2
  if kind = some (some false) ∧ line.isSome ∧ turn.isLeft then some c3 else none

theorem msgLine_of_secondLine {buf : Str} {c : Ctx} (h : secondLine buf = some c) :
    MsgLine buf MsgInfo.zero c := by
  unfold secondLine at h
  simp only [Option.bind_eq_bind, Option.bind_eq_some_iff,
    toOption_eq_some, stepOf_eq_some, Prod.exists] at h
  obtain ⟨c0, h0, kind, c1, h1, line, c2, h2, turn, c3, h3, h⟩ := h
  obtain ⟨⟨rfl, hline, hturn⟩, hc⟩ := Option.ite_none_right_eq_some.mp h
  cases hc
  obtain ⟨line, rfl⟩ := Option.isSome_iff_exists.mp hline
  obtain ⟨l, rfl⟩ := Sum.isLeft_iff.mp hturn
  exact ⟨c0, false, c1, line, c2, l, h0, h1, h2, .again h3 (.here _ _)⟩

/-- The line at `c` is a Supported line of which the second value overflows. -/
def fullSupported (c : Ctx) : Option Unit := do
  let (hname, c1) ← stepOf parseHname c
  let info ← c1.rdata
  let values ← info.supported
  let (done, c1') ← stepOf atLineEnd c1
  let (_, c2) ← stepOf (addValue (fun l => setInfo fun info => { info with supported := some l })
    values) c1
  let (comma, c2') ← stepOf curChar c2
  let (_, c3) ← stepOf scanGetChar c2
  let _ ← stepOf (scanGet notCommaOrNewline) c3
  if findHandler hname = some .supported ∧ values.length = 31 ∧ done = false ∧ c1' = c1 ∧
      comma = 44 ∧ c2' = c2 then some () else none

theorem fullLine_of_fullSupported {c : Ctx} (h : fullSupported c = some ()) : FullLine c := by
  unfold fullSupported at h
  simp only [Option.bind_eq_bind, Option.bind_eq_some_iff, stepOf_eq_some, Prod.exists] at h
  obtain ⟨hname, c1, hn, info, hr, values, hc, done, c1', hend, l, c2, hfirst, comma, c2', hcomma,
    ch, c3, hch, v, c4, hget, h⟩ := h
  obtain ⟨⟨hf, hlen, rfl, rfl, rfl, rfl⟩, -⟩ := Option.ite_none_right_eq_some.mp h
  exact ⟨hname, _, .supported, _, _, info, values, hn, hf, .supported, hr, hc, hlen,
    l, _, ch, c3, v, c4, hend, hfirst, hcomma, hch, hget⟩

/-- A request with a Supported header of 31 values, and another one of two. -/
def overfullMsg : Str :=
  str (['A', ' ', 's', 'i', 'p', ':', 'a', ' ', 'S', 'I', 'P', '/', '2', '.', '0', '\r', '\n',
    'k', ':', '1'] ++ (List.replicate 30 [',', '1']).flatten ++
    ['\r', '\n', 'k', ':', '1', ',', '1', '\r', '\n', '\r', '\n'])

/-- Its second line stores at the index 32. -/
theorem overfullMsg_stores :
    ∃ c, MsgLine overfullMsg MsgInfo.zero c ∧ ∃ i, LineStores c i ∧ genericArrayMaxCount ≤ i := by
  have h : (secondLine overfullMsg).bind fullSupported = some () := by decide +kernel
  obtain ⟨c, hc, hfull⟩ := Option.bind_eq_some_iff.mp h
  exact ⟨c, msgLine_of_secondLine hc,
    lineStores_outside_iff.mpr (fullLine_of_fullSupported hfull)⟩

end SipParser
