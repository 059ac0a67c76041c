import PjProject.Parser.Reader

set_option autoImplicit false

/-! # Printing strings

`pj_strncpy2_escape` of `pjlib-util/src/pjlib-util/string.c`, the macros of
`pjsip/include/pjsip/print_util.h`, and `pjsip_param_print_on` of `pjsip/src/pjsip/sip_uri.c`.

A function that prints gets the text of the buffer so far, from `startbuf` to `buf`, and returns it
with its own text behind, or `none` for `-1`. `size` is `endbuf - startbuf`. A length is a number:
that an `int` of the source cannot hold one of `2^31` or more is left out.
-/

namespace SipPrint

open Scan
open SipParser (Param)
open Sdp (Str str)

/-- A function that prints into a buffer. -/
abbrev Printer := Str → Option Str

/-! ## Escaping -/

/-- `pj_hex_digits[n]`. -/
def hexDigit (n : UInt8) : UInt8 := if n < 10 then 48 + n else 87 + n

/-- A percent sign and what `pj_val_to_hex_digit` writes. -/
def hexEscape (c : UInt8) : Str := [37, hexDigit ((c &&& 0xF0) >>> 4), hexDigit (c &&& 0x0F)]

/-- The loop of `pj_strncpy2_escape`, with `room` for `dst_end - dst`. -/
def escapeLoop (unres : PjCis) : Str → Nat → Option Str
  | [], _ => some []
  | _ :: _, 0 => none
  | c :: src, room + 1 =>
      if unres.mem c then (escapeLoop unres src room).map (c :: ·)
      else if 2 ≤ room then (escapeLoop unres src (room - 2)).map (hexEscape c ++ ·)
      else none

/-- `pj_strncpy2_escape`. -/
def pjStrncpy2Escape (src : Str) (max : Int) (unres : PjCis) : Option Str :=
  if max < src.length then none else escapeLoop unres src max.toNat

/-- The text of a string with the characters escaped that are not in `unres`. -/
def escape (unres : PjCis) (s : Str) : Str := s.flatMap fun c =>
  if unres.mem c then [c] else hexEscape c

/-- A property of bytes holds if it holds of each of the 256. -/
theorem forall_byte {P : UInt8 → Prop} (h : ∀ n : Fin 256, P (UInt8.ofFin n)) (c : UInt8) : P c :=
  h c.toFin

/-- What an escaped character is written with. -/
theorem mem_hexEscape {c x : UInt8} (h : x ∈ hexEscape c) : x = 37 ∨ isXdigit x = true := by
  have hdigits : isXdigit (hexDigit ((c &&& 0xF0) >>> 4)) = true ∧
      isXdigit (hexDigit (c &&& 0x0F)) = true :=
    forall_byte (P := fun c => isXdigit (hexDigit ((c &&& 0xF0) >>> 4)) = true ∧
      isXdigit (hexDigit (c &&& 0x0F)) = true) (by decide +kernel) c
  simp only [hexEscape, List.mem_cons, List.not_mem_nil, or_false] at h
  rcases h with rfl | rfl | rfl
  · exact Or.inl rfl
  · exact Or.inr hdigits.1
  · exact Or.inr hdigits.2

/-- What an escaped string is written with. -/
theorem mem_escape {unres : PjCis} {s : Str} {x : UInt8} (h : x ∈ escape unres s) :
    unres.mem x = true ∧ x ∈ s ∨ x = 37 ∨ isXdigit x = true := by
  rcases List.mem_flatMap.mp h with ⟨c, hc, hx⟩
  split at hx
  · rename_i hmem
    rw [List.mem_singleton.mp hx]
    exact Or.inl ⟨hmem, hc⟩
  · exact Or.inr (mem_hexEscape hx)

theorem escape_cons_mem {unres : PjCis} {c : UInt8} (h : unres.mem c = true) (s : Str) :
    escape unres (c :: s) = c :: escape unres s := by
  unfold escape
  rw [List.flatMap_cons, if_pos h]
  rfl

theorem escape_cons_not {unres : PjCis} {c : UInt8} (h : ¬ unres.mem c = true) (s : Str) :
    escape unres (c :: s) = hexEscape c ++ escape unres s := by
  unfold escape
  rw [List.flatMap_cons, if_neg h]

theorem length_le_escape (unres : PjCis) (s : Str) : s.length ≤ (escape unres s).length := by
  induction s with
  | nil => exact Nat.le_refl _
  | cons c s ih =>
      by_cases hc : unres.mem c = true
      · rw [escape_cons_mem hc]
        simpa using ih
      · rw [escape_cons_not hc]
        simp only [hexEscape, List.length_append, List.length_cons, List.length_nil]
        omega

theorem escapeLoop_eq (unres : PjCis) (s : Str) : ∀ room,
    escapeLoop unres s room =
      if (escape unres s).length ≤ room then some (escape unres s) else none := by
  induction s with
  | nil => exact fun room => (if_pos (Nat.zero_le room)).symm
  | cons c s ih =>
      intro room
      cases room with
      | zero =>
          have hlen := length_le_escape unres (c :: s)
          rw [List.length_cons] at hlen
          rw [if_neg (by omega)]
          rfl
      | succ room =>
          unfold escapeLoop
          by_cases hc : unres.mem c = true
          · rw [if_pos hc, ih, escape_cons_mem hc, List.length_cons]
            by_cases hr : (escape unres s).length ≤ room
            · rw [if_pos hr, if_pos (by omega)]
              rfl
            · rw [if_neg hr, if_neg (by omega)]
              rfl
          · have hlen : (escape unres (c :: s)).length = (escape unres s).length + 3 := by
              rw [escape_cons_not hc]
              simp [hexEscape]
            rw [if_neg hc, ih, hlen]
            by_cases hr : (escape unres s).length + 3 ≤ room + 1
            · rw [if_pos (by omega), if_pos (by omega), if_pos hr, escape_cons_not hc]
              rfl
            · rw [if_neg hr]
              split
              · rw [if_neg (by omega)]
                rfl
              · rfl

/-- **What is escaped** is the whole string, if there is room for it. -/
theorem pjStrncpy2Escape_eq (s : Str) (max : Int) (unres : PjCis) :
    pjStrncpy2Escape s max unres =
      if ((escape unres s).length : Int) ≤ max then some (escape unres s) else none := by
  have hlen := length_le_escape unres s
  unfold pjStrncpy2Escape
  by_cases hmax : max < s.length
  · rw [if_pos hmax, if_neg (by omega)]
  · rw [if_neg hmax, escapeLoop_eq]
    by_cases hr : ((escape unres s).length : Int) ≤ max
    · rw [if_pos hr, if_pos (by omega)]
    · rw [if_neg hr, if_neg (by omega)]

/-! ## Copying -/

/-- `copy_advance_char_check`. -/
def copyAdvanceCharCheck (size : Int) (chr : UInt8) : Printer := fun buf =>
  if size - buf.length ≤ 1 then none else some (buf ++ [chr])

/-- `copy_advance_check`. -/
def copyAdvanceCheck (size : Int) (s : Str) : Printer := fun buf =>
  if size - buf.length ≤ s.length then none else some (buf ++ s)

/-- `copy_advance_escape`. -/
def copyAdvanceEscape (size : Int) (s : Str) (unres : PjCis) : Printer := fun buf =>
  (pjStrncpy2Escape s (size - buf.length) unres).map (buf ++ ·)

/-- The value of a parameter, in `pjsip_param_print_on`. -/
def printValue (size : Int) (pvalueSpec : PjCis) (value : Str) : Printer := fun buf =>
  if value ≠ [] then do
    let buf ← copyAdvanceCharCheck size 61 buf
    if value.headD 0 = 34 then copyAdvanceCheck size value buf
    else copyAdvanceEscape size value pvalueSpec buf
  else some buf

/-- The loop of `pjsip_param_print_on`. -/
def paramPrintLoop (size : Int) (pnameSpec pvalueSpec : PjCis) : List Param → UInt8 → Printer
  | [], _, buf => some buf
  | p :: l, sep, buf => do
      let buf ← copyAdvanceCharCheck size sep buf
      let buf ← copyAdvanceEscape size p.name pnameSpec buf
      let buf ← printValue size pvalueSpec p.value buf
      paramPrintLoop size pnameSpec pvalueSpec l (if sep = 63 then 38 else sep) buf

/-- `pjsip_param_print_on`. -/
def pjsipParamPrintOn (paramList : List Param) (size : Int) (pnameSpec pvalueSpec : PjCis)
    (sep : UInt8) : Option Str :=
  paramPrintLoop size pnameSpec pvalueSpec paramList sep []

/-! ## The text that is printed -/

/-- The function prints this text and nothing else. -/
def Adds (f : Printer) (text : Str) : Prop := ∀ buf out, f buf = some out → out = buf ++ text

theorem adds_append (text : Str) : Adds (fun buf => some (buf ++ text)) text :=
  fun _ _ h => (Option.some.inj h).symm

theorem adds_some : Adds some [] := by
  intro buf out h
  rw [List.append_nil]
  exact (Option.some.inj h).symm

/-- One text behind the other. -/
theorem Adds.bind {f g : Printer} {text text' : Str} (hf : Adds f text) (hg : Adds g text') :
    Adds (fun buf => f buf >>= g) (text ++ text') := by
  intro buf out h
  rcases Option.bind_eq_some_iff.mp h with ⟨buf1, h1, h2⟩
  rw [hg buf1 out h2, hf buf buf1 h1, List.append_assoc]

/-- A choice that does not depend on the buffer. -/
theorem Adds.ite {c : Prop} [Decidable c] {f g : Printer} {text text' : Str}
    (hf : Adds f text) (hg : Adds g text') :
    Adds (fun buf => if c then f buf else g buf) (if c then text else text') := by
  intro buf out h
  dsimp only at h
  by_cases hc : c
  · rw [if_pos hc] at h ⊢
    exact hf buf out h
  · rw [if_neg hc] at h ⊢
    exact hg buf out h

/-- A check in front of a function. -/
theorem Adds.guard {c : Str → Prop} [DecidablePred c] {f : Printer} {text : Str} (hf : Adds f text) :
    Adds (fun buf => if c buf then none else f buf) text := by
  intro buf out h
  dsimp only at h
  split at h
  · cases h
  · exact hf buf out h

theorem adds_char (size : Int) (chr : UInt8) : Adds (copyAdvanceCharCheck size chr) [chr] :=
  (adds_append [chr]).guard

theorem adds_check (size : Int) (s : Str) : Adds (copyAdvanceCheck size s) s :=
  (adds_append s).guard

theorem adds_escape (size : Int) (s : Str) (unres : PjCis) :
    Adds (copyAdvanceEscape size s unres) (escape unres s) := by
  intro buf out h
  unfold copyAdvanceEscape at h
  rw [pjStrncpy2Escape_eq] at h
  split at h
  · exact (Option.some.inj h).symm
  · cases h

/-- The text of the value of a parameter. -/
def valueText (pvalueSpec : PjCis) (value : Str) : Str :=
  if value ≠ [] then [61] ++ (if value.headD 0 = 34 then value else escape pvalueSpec value) else []

theorem adds_value (size : Int) (pvalueSpec : PjCis) (value : Str) :
    Adds (printValue size pvalueSpec value) (valueText pvalueSpec value) :=
  ((adds_char size 61).bind
    ((adds_check size value).ite (adds_escape size value pvalueSpec))).ite adds_some

/-- The text of a list of parameters. -/
def paramsText (pnameSpec pvalueSpec : PjCis) : List Param → UInt8 → Str
  | [], _ => []
  | p :: l, sep =>
      [sep] ++ (escape pnameSpec p.name ++ (valueText pvalueSpec p.value ++
        paramsText pnameSpec pvalueSpec l (if sep = 63 then 38 else sep)))

theorem adds_params (size : Int) (pnameSpec pvalueSpec : PjCis) (l : List Param) : ∀ sep,
    Adds (paramPrintLoop size pnameSpec pvalueSpec l sep) (paramsText pnameSpec pvalueSpec l sep) := by
  induction l with
  | nil => exact fun sep => adds_some
  | cons p l ih =>
      intro sep
      exact (adds_char size sep).bind ((adds_escape size p.name pnameSpec).bind
        ((adds_value size pvalueSpec p.value).bind (ih _)))

theorem pjsipParamPrintOn_eq {l : List Param} {size : Int} {pnameSpec pvalueSpec : PjCis}
    {sep : UInt8} {text : Str} (h : pjsipParamPrintOn l size pnameSpec pvalueSpec sep = some text) :
    text = paramsText pnameSpec pvalueSpec l sep :=
  adds_params size pnameSpec pvalueSpec l sep [] text h

end SipPrint
