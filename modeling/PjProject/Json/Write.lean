import PjProject.Library.Buffer
import PjProject.Library.Outcome
import PjProject.Print.Escape
import PjProject.Sdp.RoundTrip

set_option autoImplicit false

/-! # Writing JSON

The elements and the writing half of `pjlib-util/src/pjlib-util/json.c`. A function that writes makes
calls of a writer, each with a pointer and a length: the array it points to and the length are the
arguments of `send`, and a length that is not inside the array is the stop `overread`. The arithmetic
of `float` is a parameter, `CFloat`.
-/

namespace Json

open Buffer
open Sdp (Str str isDigit pjUtoa)
open SipPrint (hexDigit)

/-! ## Elements -/

/-- What `json.c` and `pj_strtof` use of the type `float`: the integer that a number is equal to, if
there is one, what `%f` prints of it, the conversion from `long`, the sign, and a number with a
fraction, of which the digits and their number are given. Integers below `2^24` are exact. -/
structure CFloat (φ : Type) where
  toInt : φ → Option Int
  fixed : φ → Str
  ofInt : Int → φ
  neg : φ → φ
  withFraction : φ → Nat → Nat → φ
  toInt_ofInt : ∀ n : Int, n.natAbs < 2 ^ 24 → toInt (ofInt n) = some n
  neg_ofInt : ∀ n : Int, 0 < n → n < 2 ^ 24 → neg (ofInt n) = ofInt (-n)

/-- `pj_json_elem`, with its name, and its children as a list. -/
inductive JsonElem (φ : Type) where
  | null (name : Str)
  | bool (name : Str) (isTrue : Bool)
  | number (name : Str) (num : φ)
  | string (name : Str) (str : Str)
  | array (name : Str) (children : List (JsonElem φ))
  | obj (name : Str) (children : List (JsonElem φ))

variable {φ σ : Type}

/-- `elem->name`. -/
def JsonElem.name : JsonElem φ → Str
  | .null name => name
  | .bool name _ => name
  | .number name _ => name
  | .string name _ => name
  | .array name _ => name
  | .obj name _ => name

/-! ## Calls of the writer -/

/-- How writing can stop: the document is too big, a call goes beyond the array it is given, a store
goes outside its buffer, or a loop has not ended. -/
inductive WriteStop where
  | etoobig
  | overread
  | overflow
  | diverges
  deriving DecidableEq

/-- `pj_json_writer`. -/
abbrev Writer (σ : Type) := Str → σ → Except WriteStop σ

/-- `write_state`, without its two arrays of spaces, which do not change. -/
structure WriteState (σ : Type) where
  userData : σ
  indent : Nat

/-- `MAX_INDENT`, `PJ_JSON_NAME_MIN_LEN`, `ESC_BUF_LEN` and `PJ_JSON_INDENT_SIZE`. -/
def maxIndent : Nat := 100
def nameMinLen : Nat := 20
def escBufLen : Nat := 64
def indentSize : Nat := 3

/-- `indent_buf`. -/
def indentBuf : Str := List.replicate maxIndent 32

/-- `space`. -/
def space : Str := List.replicate nameMinLen 32

/-- `st->writer(array, size, st->user_data)`. -/
def send (writer : Writer σ) (array : Str) (size : Nat) (st : WriteState σ) :
    Except WriteStop (WriteState σ) :=
  if size ≤ array.length then do
    let userData ← writer (array.take size) st.userData
    return { st with userData := userData }
  else .error .overread

/-! ## Strings -/

/-- The letter behind the backslash for the characters that have one. -/
def shortEscape (c : UInt8) : Option UInt8 :=
  if c = 34 then some 34
  else if c = 92 then some 92
  else if c = 47 then some 47
  else if c = 8 then some 98
  else if c = 12 then some 102
  else if c = 10 then some 110
  else if c = 13 then some 114
  else if c = 9 then some 116
  else none

/-- What `write_string_escaped` writes for a character. A `char` is signed: the bytes from 128 on are
less than 32. -/
def escapeByte (c : UInt8) : Str :=
  match shortEscape c with
  | some x => [92, x]
  | none =>
      if 32 ≤ c ∧ c < 127 then [c]
      else [92, 117, 48, 48, hexDigit ((c &&& 0xF0) >>> 4), hexDigit (c &&& 0x0F)]

/-- Bytes are stored at `op`, the end of `buf`. -/
def store (buf bytes : Str) : Except WriteStop Str :=
  if buf.length + bytes.length ≤ escBufLen then .ok (buf ++ bytes) else .error .overflow

/-- The inner loop of `write_string_escaped`: what is left of the string, and the part of `buf` up to
`op`. -/
def fillBuf : Str → Str → Except WriteStop (Str × Str)
  | [], buf => .ok ([], buf)
  | c :: ip, buf =>
      if escBufLen - buf.length < 2 then .ok (c :: ip, buf)
      -- only `\u00xx` needs more than two
      else if shortEscape c = none ∧ ¬ (32 ≤ c ∧ c < 127) ∧ escBufLen - buf.length < 6 then
        .ok (c :: ip, buf)
      else do
        let buf ← store buf (escapeByte c)
        fillBuf ip buf

/-- The outer loop of `write_string_escaped`. -/
def escapedLoop (writer : Writer σ) : (fuel : Nat) → Str → WriteState σ →
    Except WriteStop (WriteState σ)
  | 0, _, _ => .error .diverges
  | fuel + 1, ip, st =>
      if ip = [] then .ok st
      else do
        let (ip, buf) ← fillBuf ip []
        let st ← send writer buf buf.length st
        escapedLoop writer fuel ip st

/-- `write_string_escaped`. -/
def writeStringEscaped (writer : Writer σ) (value : Str) (st : WriteState σ) :
    Except WriteStop (WriteState σ) :=
  escapedLoop writer (value.length + 1) value st

/-! ## Elements and their children -/

/-- What `%d` prints. -/
def decimal (n : Int) : Str := if n < 0 then 45 :: pjUtoa n.natAbs else pjUtoa n.natAbs

/-- The text of a number. -/
def numText (F : CFloat φ) (num : φ) : Str :=
  match F.toInt num with
  | some n => decimal n
  | none => F.fixed num

/-- The case of `elem_write` for a number. `num_buf` has 65 bytes. -/
def writeNumber (F : CFloat φ) (writer : Writer σ) (num : φ) (st : WriteState σ) :
    Except WriteStop (WriteState σ) :=
  if (numText F num).length ≥ 65 then .error .etoobig
  else send writer (numText F num) (numText F num).length st

/-- The name at the beginning of `elem_write`. `noName` is the flag `NO_NAME`. -/
def writeName (writer : Writer σ) (noName : Bool) (name : Str) (st : WriteState σ) :
    Except WriteStop (WriteState σ) :=
  if name = [] then .ok st
  else do
    let st ← send writer indentBuf st.indent st
    if noName then return st
    else
      let st ← send writer [34] 1 st
      let st ← writeStringEscaped writer name st
      let st ← send writer [34, 58, 32] 3 st
      if name.length < nameMinLen then send writer space (nameMinLen - name.length) st
      else return st

/-- `write_children` between the brackets. `loop` is the loop over the children, in a list with names
or without. -/
def writeMembers (writer : Writer σ) (children : List (JsonElem φ))
    (loop : Bool → WriteState σ → Except WriteStop (WriteState σ)) (st : WriteState σ) :
    Except WriteStop (WriteState σ) :=
  match children with
  | [] => .ok st
  | child :: _ =>
      if child.name = [] then loop false st
      else do
        let indentAdded : Bool := st.indent < maxIndent
        let st := if indentAdded then { st with indent := st.indent + indentSize } else st
        let st ← send writer [10] 1 st
        let st ← loop true st
        let st := if indentAdded then { st with indent := st.indent - indentSize } else st
        send writer indentBuf st.indent st

/-- `write_children`. -/
def writeChildren (writer : Writer σ) (quotes : UInt8 × UInt8) (children : List (JsonElem φ))
    (loop : Bool → WriteState σ → Except WriteStop (WriteState σ)) (st : WriteState σ) :
    Except WriteStop (WriteState σ) := do
  let st ← send writer [quotes.1] 1 st
  let st ← send writer [32] 1 st
  let st ← writeMembers writer children loop st
  send writer [quotes.2] 1 st

/-- What follows a child in the loops of `write_children`. -/
def writeSeparator (writer : Writer σ) (named last : Bool) (st : WriteState σ) :
    Except WriteStop (WriteState σ) :=
  if last then if named then send writer [10] 1 st else .ok st
  else send writer (if named then [44, 10] else [44, 32]) 2 st

mutual

/-- `elem_write`. -/
def elemWrite (F : CFloat φ) (writer : Writer σ) (noName : Bool) :
    JsonElem φ → WriteState σ → Except WriteStop (WriteState σ)
  | .null name, st => do
      let st ← writeName writer noName name st
      send writer (str ['n', 'u', 'l', 'l']) 4 st
  | .bool name b, st => do
      let st ← writeName writer noName name st
      if b then send writer (str ['t', 'r', 'u', 'e']) 4 st
      else send writer (str ['f', 'a', 'l', 's', 'e']) 5 st
  | .number name num, st => do
      let st ← writeName writer noName name st
      writeNumber F writer num st
  | .string name value, st => do
      let st ← writeName writer noName name st
      let st ← send writer [34] 1 st
      let st ← writeStringEscaped writer value st
      send writer [34] 1 st
  | .array name children, st => do
      let st ← writeName writer noName name st
      writeChildren writer (91, 93) children
        (fun named st => childLoop F writer named true children st) st
  | .obj name children, st => do
      let st ← writeName writer noName name st
      writeChildren writer (123, 125) children
        (fun named st => childLoop F writer named false children st) st

/-- The loops of `write_children`. -/
def childLoop (F : CFloat φ) (writer : Writer σ) (named noName : Bool) :
    List (JsonElem φ) → WriteState σ → Except WriteStop (WriteState σ)
  | [], st => .ok st
  | child :: rest, st => do
      let st ← elemWrite F writer noName child st
      let st ← writeSeparator writer named rest.isEmpty st
      childLoop F writer named noName rest st

end

/-- `pj_json_writef`. -/
def pjJsonWritef (F : CFloat φ) (writer : Writer σ) (elem : JsonElem φ) (userData : σ) :
    Except WriteStop (WriteState σ) :=
  elemWrite F writer false elem ⟨userData, 0⟩

/-! ## Writing to a buffer -/

/-- `buf_writer_data`, with the buffer that `pos` points into. -/
structure BufWriterData where
  buffer : Str
  pos : Nat
  size : Nat

/-- `buf_writer`. -/
def bufWriter : Writer BufWriterData := fun s d =>
  if s.length + 1 ≥ d.size then .error .etoobig
  else do
    let buffer ← writeAt .overflow d.buffer d.pos s
    return ⟨buffer, d.pos + s.length, d.size - s.length⟩

/-- `pj_json_write` to a buffer of `*size` bytes: the buffer afterwards, and `*size`. -/
def pjJsonWrite (F : CFloat φ) (elem : JsonElem φ) (buffer : Str) :
    Except WriteStop (Str × Nat) := do
  let st ← pjJsonWritef F bufWriter elem ⟨buffer, 0, buffer.length⟩
  let buffer ← writeAt .overflow st.userData.buffer st.userData.pos [0]
  return (buffer, st.userData.pos)

end Json

/-! ## The calls of the writer

Which calls `elem_write` makes depends on the element alone, until one of them fails. `elemCalls` are
these calls, and `elemWrite_sends` is that nothing else happens: the indentation is the same again
behind each element, and a string is cut into pieces that fit the buffer of `write_string_escaped`.
-/

namespace Json

open Buffer Outcome
open Sdp (Str str)

variable {φ σ : Type}

/-- A call with an array and a length, or the end of the writing at a number that is too long. -/
inductive Call where
  | piece (array : Str) (size : Nat)
  | stop
  deriving DecidableEq

/-- A string that is written whole. -/
def Call.all (s : Str) : Call := .piece s s.length

/-- The calls, one after another. -/
def runCalls (writer : Writer σ) : List Call → σ → Except WriteStop σ
  | [], userData => .ok userData
  | .piece array size :: rest, userData =>
      if size ≤ array.length then do
        let userData ← writer (array.take size) userData
        runCalls writer rest userData
      else .error .overread
  | .stop :: _, _ => .error .etoobig

theorem runCalls_append (writer : Writer σ) (xs ys : List Call) (userData : σ) :
    runCalls writer (xs ++ ys) userData = runCalls writer xs userData >>= runCalls writer ys := by
  induction xs generalizing userData with
  | nil => rfl
  | cons x xs ih =>
      cases x with
      | stop => rfl
      | piece array size =>
          simp only [List.cons_append, runCalls]
          by_cases h : size ≤ array.length
          · rw [if_pos h, if_pos h, bind_assoc]
            congr
            funext userData
            exact ih userData
          · rw [if_neg h, if_neg h]
            rfl

/-- At the indentation `k` the program makes these calls, and the indentation is `k` again behind
them. -/
def Sends (writer : Writer σ) (k : Nat) (calls : List Call)
    (f : WriteState σ → Except WriteStop (WriteState σ)) : Prop :=
  ∀ userData, f ⟨userData, k⟩ = runCalls writer calls userData >>= fun userData => .ok ⟨userData, k⟩

section Rules

variable {writer : Writer σ} {k : Nat} {xs ys : List Call}
variable {f g : WriteState σ → Except WriteStop (WriteState σ)}

theorem Sends.nil : Sends writer k [] .ok := fun _ => rfl

theorem Sends.piece (array : Str) (size : Nat) :
    Sends writer k [.piece array size] (send writer array size) := by
  intro userData
  simp only [send, runCalls]
  by_cases h : size ≤ array.length
  · rw [if_pos h, if_pos h, bind_assoc]
    rfl
  · rw [if_neg h, if_neg h]
    rfl

/-- The rule of a sequence. -/
theorem Sends.bind (hf : Sends writer k xs f) (hg : Sends writer k ys g) :
    Sends writer k (xs ++ ys) (fun st => f st >>= g) := by
  intro userData
  dsimp only
  rw [hf userData, runCalls_append, bind_assoc, bind_assoc]
  congr
  funext userData
  exact hg userData

/-- A call, and what follows it. -/
theorem Sends.cons {array : Str} {size : Nat} (hg : Sends writer k ys g) :
    Sends writer k (.piece array size :: ys) (fun st => send writer array size st >>= g) :=
  (Sends.piece array size).bind hg

/-- The indentation is the same again. -/
theorem Sends.indent (hf : Sends writer k xs f) {userData : σ} {st : WriteState σ}
    (h : f ⟨userData, k⟩ = .ok st) : st.indent = k := by
  rw [hf userData] at h
  obtain ⟨userData, -, hst⟩ := bind_eq_ok h
  cases hst
  rfl

end Rules

/-! ## Strings -/

theorem escapeByte_length (c : UInt8) :
    0 < (escapeByte c).length ∧ (escapeByte c).length ≤ 6 ∧
      (shortEscape c ≠ none ∨ (32 ≤ c ∧ c < 127) → (escapeByte c).length ≤ 2) := by
  unfold escapeByte
  cases shortEscape c with
  | some x => simp
  | none =>
      by_cases hc : 32 ≤ c ∧ c < 127
      · rw [if_pos hc]
        simp
      · rw [if_neg hc]
        simp [hc]

/-- The inner loop without its buffer: the string that is left, and the piece. -/
def fill : Str → Str → Str × Str
  | [], buf => ([], buf)
  | c :: ip, buf =>
      if escBufLen - buf.length < 2 then (c :: ip, buf)
      else if shortEscape c = none ∧ ¬ (32 ≤ c ∧ c < 127) ∧ escBufLen - buf.length < 6 then (c :: ip, buf)
      else fill ip (buf ++ escapeByte c)

/-- The cursor of the inner loop stays inside its buffer. -/
theorem fillBuf_eq (ip buf : Str) : fillBuf ip buf = .ok (fill ip buf) := by
  induction ip generalizing buf with
  | nil => rfl
  | cons c ip ih =>
      obtain ⟨-, hsix, htwo⟩ := escapeByte_length c
      rw [fillBuf, fill]
      by_cases h2 : escBufLen - buf.length < 2
      · rw [if_pos h2, if_pos h2]
      · rw [if_neg h2, if_neg h2]
        by_cases h6 : shortEscape c = none ∧ ¬ (32 ≤ c ∧ c < 127) ∧ escBufLen - buf.length < 6
        · rw [if_pos h6, if_pos h6]
        · have hroom : buf.length + (escapeByte c).length ≤ escBufLen := by
            by_cases hsmall : shortEscape c ≠ none ∨ (32 ≤ c ∧ c < 127)
            · have hlen := htwo hsmall
              omega
            · rw [not_or, not_not] at hsmall
              have hlarge : ¬ escBufLen - buf.length < 6 := fun h => h6 ⟨hsmall.1, hsmall.2, h⟩
              omega
          rw [if_neg h6, if_neg h6, store, if_pos hroom, ok_bind]
          exact ih _

theorem fill_length_le (ip buf : Str) : (fill ip buf).1.length ≤ ip.length := by
  induction ip generalizing buf with
  | nil => exact Nat.le_refl 0
  | cons c ip ih =>
      rw [fill]
      by_cases h2 : escBufLen - buf.length < 2
      · rw [if_pos h2]
      · rw [if_neg h2]
        by_cases h6 : shortEscape c = none ∧ ¬ (32 ≤ c ∧ c < 127) ∧ escBufLen - buf.length < 6
        · rw [if_pos h6]
        · rw [if_neg h6]
          exact (ih _).trans (Nat.le_succ _)

/-- From an empty buffer the inner loop takes at least one character. -/
theorem fill_progress (c : UInt8) (ip : Str) : (fill (c :: ip) []).1.length < (c :: ip).length := by
  rw [fill, if_neg (by decide), if_neg]
  · exact Nat.lt_succ_of_le (fill_length_le _ _)
  · rintro ⟨-, -, h⟩
    exact absurd h (by decide)

/-- The pieces that a string is written in. -/
def pieces : (fuel : Nat) → Str → List Str
  | 0, _ => []
  | fuel + 1, ip => if ip = [] then [] else (fill ip []).2 :: pieces fuel (fill ip []).1

/-- The calls for a string. -/
def strCalls (value : Str) : List Call := (pieces (value.length + 1) value).map .all

/-- **`write_string_escaped`** comes to its end, and stays inside its buffer. -/
theorem writeStringEscaped_sends (writer : Writer σ) (k : Nat) (value : Str) :
    Sends writer k (strCalls value) (writeStringEscaped writer value) := by
  have hloop : ∀ (fuel : Nat) (ip : Str), ip.length < fuel →
      Sends writer k ((pieces fuel ip).map .all) (escapedLoop writer fuel ip) := by
    intro fuel
    induction fuel with
    | zero =>
        intro ip h
        omega
    | succ fuel ih =>
        intro ip h
        cases ip with
        | nil => exact Sends.nil
        | cons c ip =>
            have hprogress := fill_progress c ip
            have hrest := ih (fill (c :: ip) []).1 (by omega)
            intro userData
            rw [escapedLoop, if_neg (List.cons_ne_nil c ip), fillBuf_eq, ok_bind, pieces,
              if_neg (List.cons_ne_nil c ip)]
            exact hrest.cons userData
  exact hloop _ value (Nat.lt_succ_self _)

/-! ## Elements -/

/-- The calls for a name. -/
def nameCalls (noName : Bool) (k : Nat) (name : Str) : List Call :=
  if name = [] then []
  else .piece indentBuf k ::
    if noName then []
    else .all [34] :: (strCalls name ++ .all [34, 58, 32] ::
      if name.length < nameMinLen then [.piece space (nameMinLen - name.length)] else [])

/-- The calls for a number. -/
def numCalls (F : CFloat φ) (num : φ) : List Call :=
  if (numText F num).length ≥ 65 then [.stop] else [.all (numText F num)]

/-- The indentation of the children of a list with names. -/
def deeper (k : Nat) : Nat := if k < maxIndent then k + indentSize else k

/-- The calls between the brackets of a list. -/
def memberCalls (k : Nat) (children : List (JsonElem φ)) (loop : Bool → Nat → List Call) : List Call :=
  match children with
  | [] => []
  | child :: _ =>
      if child.name = [] then loop false k
      else .all [10] :: (loop true (deeper k) ++ [.piece indentBuf k])

/-- The calls for a list. -/
def childrenCalls (quotes : UInt8 × UInt8) (k : Nat) (children : List (JsonElem φ))
    (loop : Bool → Nat → List Call) : List Call :=
  .all [quotes.1] :: .all [32] :: (memberCalls k children loop ++ [.all [quotes.2]])

/-- The calls behind a child. -/
def separatorCalls (named last : Bool) : List Call :=
  if last then if named then [.all [10]] else []
  else [.all (if named then [44, 10] else [44, 32])]

mutual

/-- The calls for an element, at the indentation `k`. -/
def elemCalls (F : CFloat φ) (noName : Bool) (k : Nat) : JsonElem φ → List Call
  | .null name => nameCalls noName k name ++ [.all (str ['n', 'u', 'l', 'l'])]
  | .bool name b => nameCalls noName k name ++
      [.all (if b then str ['t', 'r', 'u', 'e'] else str ['f', 'a', 'l', 's', 'e'])]
  | .number name num => nameCalls noName k name ++ numCalls F num
  | .string name value => nameCalls noName k name ++ .all [34] :: (strCalls value ++ [.all [34]])
  | .array name children => nameCalls noName k name ++
      childrenCalls (91, 93) k children fun named k => loopCalls F named true k children
  | .obj name children => nameCalls noName k name ++
      childrenCalls (123, 125) k children fun named k => loopCalls F named false k children

/-- The calls for the children of a list. -/
def loopCalls (F : CFloat φ) (named noName : Bool) (k : Nat) : List (JsonElem φ) → List Call
  | [] => []
  | child :: rest => elemCalls F noName k child ++ (separatorCalls named rest.isEmpty ++
      loopCalls F named noName k rest)

end

section Elements

variable (F : CFloat φ) (writer : Writer σ)

theorem writeName_sends (noName : Bool) (k : Nat) (name : Str) :
    Sends writer k (nameCalls noName k name) (writeName writer noName name) := by
  intro userData
  rw [nameCalls, writeName]
  by_cases hname : name = []
  · rw [if_pos hname, if_pos hname]
    rfl
  · rw [if_neg hname, if_neg hname]
    have hrest : Sends writer k (if noName then [] else .all [34] :: (strCalls name ++
        .all [34, 58, 32] ::
          if name.length < nameMinLen then [.piece space (nameMinLen - name.length)] else []))
        (fun st => if noName then .ok st else do
          let st ← send writer [34] 1 st
          let st ← writeStringEscaped writer name st
          let st ← send writer [34, 58, 32] 3 st
          if name.length < nameMinLen then send writer space (nameMinLen - name.length) st
          else return st) := by
      cases noName with
      | true => exact Sends.nil
      | false =>
          refine Sends.cons ((writeStringEscaped_sends writer k name).bind (Sends.cons ?_))
          by_cases hlen : name.length < nameMinLen
          · simp only [if_pos hlen]
            exact Sends.piece _ _
          · simp only [if_neg hlen]
            exact Sends.nil
    exact (Sends.cons hrest) userData

theorem writeNumber_sends (k : Nat) (num : φ) :
    Sends writer k (numCalls F num) (writeNumber F writer num) := by
  intro userData
  rw [numCalls, writeNumber]
  by_cases h : (numText F num).length ≥ 65
  · rw [if_pos h, if_pos h]
    rfl
  · rw [if_neg h, if_neg h]
    exact Sends.piece _ _ userData

theorem writeSeparator_sends (k : Nat) (named last : Bool) :
    Sends writer k (separatorCalls named last) (writeSeparator writer named last) := by
  cases last with
  | false =>
      cases named with
      | false => exact Sends.piece _ _
      | true => exact Sends.piece _ _
  | true =>
      cases named with
      | false => exact Sends.nil
      | true => exact Sends.piece _ _

variable {loop : Bool → WriteState σ → Except WriteStop (WriteState σ)} {calls : Bool → Nat → List Call}

/-- Between the brackets the indentation may be another, which is taken back. -/
theorem writeMembers_sends (k : Nat) (children : List (JsonElem φ))
    (hloop : ∀ named k, Sends writer k (calls named k) (loop named)) :
    Sends writer k (memberCalls k children calls) (writeMembers writer children loop) := by
  cases children with
  | nil => exact Sends.nil
  | cons child rest =>
      intro userData
      rw [memberCalls, writeMembers]
      by_cases hname : child.name = []
      · rw [if_pos hname, if_pos hname]
        exact hloop false k userData
      · have hdeeper : (if decide (k < maxIndent) = true then
            ({ userData := userData, indent := k + indentSize } : WriteState σ)
              else ⟨userData, k⟩) = ⟨userData, deeper k⟩ := by
          by_cases hk : k < maxIndent
          · simp [deeper, hk]
          · simp [deeper, hk]
        have hback (userData : σ) : (if decide (k < maxIndent) = true then
            ({ userData := userData, indent := deeper k - indentSize } : WriteState σ)
              else ⟨userData, deeper k⟩) = ⟨userData, k⟩ := by
          by_cases hk : k < maxIndent
          · simp [deeper, hk]
          · simp [deeper, hk]
        have hinner : Sends writer (deeper k) (.all [10] :: calls true (deeper k))
            (fun st => send writer [10] 1 st >>= loop true) := Sends.cons (hloop true (deeper k))
        have hrun := hinner userData
        dsimp only at hrun
        rw [if_neg hname, if_neg hname]
        dsimp only
        rw [hdeeper, ← List.cons_append, runCalls_append, ← bind_assoc, hrun, bind_assoc, bind_assoc]
        congr
        funext userData
        rw [ok_bind]
        dsimp only
        rw [hback]
        exact Sends.piece indentBuf k userData

/-- **`write_children`**, if this holds of its loop. -/
theorem writeChildren_sends (quotes : UInt8 × UInt8) (k : Nat) (children : List (JsonElem φ))
    (hloop : ∀ named k, Sends writer k (calls named k) (loop named)) :
    Sends writer k (childrenCalls quotes k children calls)
      (writeChildren writer quotes children loop) :=
  Sends.cons (Sends.cons ((writeMembers_sends writer k children hloop).bind (Sends.piece _ _)))

mutual

/-- **`elem_write`** makes the calls of its element. -/
theorem elemWrite_sends (noName : Bool) (e : JsonElem φ) (k : Nat) :
    Sends writer k (elemCalls F noName k e) (elemWrite F writer noName e) := by
  cases e with
  | null name => exact (writeName_sends writer noName k name).bind (Sends.piece _ _)
  | bool name b =>
      cases b with
      | false | true => exact (writeName_sends writer noName k name).bind (Sends.piece _ _)
  | number name num =>
      exact (writeName_sends writer noName k name).bind (writeNumber_sends F writer k num)
  | string name value =>
      exact (writeName_sends writer noName k name).bind
        (Sends.cons ((writeStringEscaped_sends writer k value).bind (Sends.piece _ _)))
  | array name children =>
      exact (writeName_sends writer noName k name).bind
        (writeChildren_sends writer _ k children fun named k => childLoop_sends named true children k)
  | obj name children =>
      exact (writeName_sends writer noName k name).bind
        (writeChildren_sends writer _ k children fun named k => childLoop_sends named false children k)

/-- The loops of `write_children` make the calls of the children. -/
theorem childLoop_sends (named noName : Bool) (children : List (JsonElem φ)) (k : Nat) :
    Sends writer k (loopCalls F named noName k children) (childLoop F writer named noName children) := by
  cases children with
  | nil => exact Sends.nil
  | cons child rest =>
      exact (elemWrite_sends noName child k).bind
        ((writeSeparator_sends writer k named rest.isEmpty).bind (childLoop_sends named noName rest k))

end

end Elements

end Json
