import PjProject.Library.Buffer
import PjProject.Library.MachineInt

set_option autoImplicit false

/-! # Base64

`pj_base64_encode` and `pj_base64_decode` of `pjlib-util/base64.c`. A text is its characters; what is left of
it stands for the position `i` of a loop. Of the values `c[k]` only the eight low bits are used, so that `INV`, which
is -1, is 255 here. The lengths of the buffers are `int`s, and a buffer of a negative length has no
bytes.
-/

namespace Base64

open Buffer MachineInt

/-- Why there is no text, or no bytes. -/
inductive Stop where
  | etoosmall
  /-- A character in front of the text is read. -/
  | overread
  /-- A byte behind the buffer is written. -/
  | overrun
  /-- `pj_assert` fails. -/
  | assertion
  /-- A loop does not end. -/
  | endless
  deriving DecidableEq

/-- `PADDING`, the character `=`. -/
def padding : UInt8 := 61

/-- `INV`. -/
def inv : Nat := 255

/-- `PJ_BASE256_TO_BASE64_LEN`. -/
def base256ToBase64Len (len : Int) : Int := int32 ((int32 (len * 4)).tdiv 3 + 3)

/-- `PJ_BASE64_TO_BASE256_LEN`. -/
def base64ToBase256Len (len : Int) : Int := (int32 (len * 3)).tdiv 4

/-- Bytes are written behind `out`, into a buffer of `outLen` bytes. -/
def append (outLen : Int) (out bytes : List UInt8) : Except Stop (List UInt8) :=
  access .overrun ((out.length + bytes.length : Int) ≤ outLen) (out ++ bytes)

/-! ## The encoder -/

/-- The table `base64_char`. -/
def base64Chars : List UInt8 :=
  [65, 66, 67, 68, 69, 70, 71, 72, 73, 74, 75, 76, 77, 78, 79, 80, 81, 82, 83, 84, 85, 86, 87, 88,
    89, 90, 97, 98, 99, 100, 101, 102, 103, 104, 105, 106, 107, 108, 109, 110, 111, 112, 113, 114,
    115, 116, 117, 118, 119, 120, 121, 122, 48, 49, 50, 51, 52, 53, 54, 55, 56, 57, 43, 47]

/-- An entry of the table. -/
def base64Char (v : Nat) : UInt8 := base64Chars.getD v 0

/-- The first value of a group, from the upper six bits of its first byte. -/
def value0 (c1 : UInt8) : Nat := c1.toNat / 4

/-- The second value. -/
def value1 (c1 c2 : UInt8) : Nat := c1.toNat % 4 * 16 + c2.toNat / 16

/-- The third value. -/
def value2 (c2 c3 : UInt8) : Nat := c2.toNat % 16 * 4 + c3.toNat / 64

/-- The fourth value. -/
def value3 (c3 : UInt8) : Nat := c3.toNat % 64

/-- `base256to64`. -/
def base256to64 (c1 c2 c3 : UInt8) (pad : Nat) : List UInt8 :=
  [base64Char (value0 c1), base64Char (value1 c1 c2)] ++
    match pad with
    | 0 => [base64Char (value2 c2 c3), base64Char (value3 c3)]
    | 1 => [base64Char (value2 c2 c3), padding]
    | _ => [padding, padding]

/-- The loop of `pj_base64_encode`. -/
def encodeLoop (outLen : Int) : List UInt8 → List UInt8 → Except Stop (List UInt8)
  | [], out => .ok out
  | [c1], out => append outLen out (base256to64 c1 0 0 2)
  | [c1, c2], out => append outLen out (base256to64 c1 c2 0 1)
  | c1 :: c2 :: c3 :: input, out => do
      let out ← append outLen out (base256to64 c1 c2 c3 0)
      encodeLoop outLen input out

/-- `pj_base64_encode`: the text, whose length is left in `*out_len`. -/
def encode (outLen : Int) (input : List UInt8) : Except Stop (List UInt8) :=
  if outLen < base256ToBase64Len input.length then .error .etoosmall
  else encodeLoop outLen input []

/-! ## The decoder -/

/-- `base256_char`. -/
def base256Char (c : UInt8) : Nat :=
  if 65 ≤ c.toNat ∧ c.toNat ≤ 90 then c.toNat - 65
  else if 97 ≤ c.toNat ∧ c.toNat ≤ 122 then c.toNat - 97 + 26
  else if 48 ≤ c.toNat ∧ c.toNat ≤ 57 then c.toNat - 48 + 52
  else if c.toNat = 43 then 62
  else if c.toNat = 47 then 63
  else inv

/-- The loop over the padding at the end; the character is read before the length is looked at. -/
def stripPadding (text : List UInt8) : Nat → Except Stop Nat
  | 0 => .error .overread
  | len + 1 => if text.getD len 0 = padding then stripPadding text len else .ok (len + 1)

/-- The inner loop: the next value, which is `INV` only if the text ends before there is another. -/
def nextValue : List UInt8 → Nat × List UInt8
  | [] => (inv, [])
  | b :: text =>
      if base256Char b = inv ∧ text ≠ [] then nextValue text else (base256Char b, text)

/-- The loop that fills up `c`. -/
def fill : Nat → List UInt8 → List Nat × List UInt8
  | 0, text => ([], text)
  | _, [] => ([], [])
  | room + 1, text =>
      let next := nextValue text
      let rest := fill room next.2
      (next.1 :: rest.1, rest.2)

/-- The first byte of a group. -/
def byte0 (c0 c1 : Nat) : UInt8 := UInt8.ofNat (c0 * 4 + c1 / 16 % 4)

/-- The second byte. -/
def byte1 (c1 c2 : Nat) : UInt8 := UInt8.ofNat (c1 % 16 * 16 + c2 / 4 % 16)

/-- The third byte. -/
def byte2 (c2 c3 : Nat) : UInt8 := UInt8.ofNat (c2 % 4 * 64 + c3 % 64)

/-- The loop over the groups. -/
def decodeLoop (outLen : Int) : Nat → List UInt8 → List UInt8 → Except Stop (List UInt8)
  | _, [], out => .ok out
  | 0, _, _ => .error .endless
  | turns + 1, text, out =>
      let group := fill 4 text
      match group.1 with
      | [c0, c1, c2, c3] => do
          let out ← append outLen out [byte0 c0 c1, byte1 c1 c2, byte2 c2 c3]
          decodeLoop outLen turns group.2 out
      | [c0, c1, c2] => append outLen out [byte0 c0 c1, byte1 c1 c2]
      | [c0, c1] => append outLen out [byte0 c0 c1]
      | _ => .ok out

/-- `pj_base64_decode`: the bytes, whose number is left in `*out_len`. -/
def decode (outLen : Int) (input : List UInt8) : Except Stop (List UInt8) :=
  if int32 input.length < 0 then .error .overread
  else do
    let len ← stripPadding input (int32 input.length).toNat
    if outLen < base64ToBase256Len len then .error .etoosmall
    else do
      let out ← decodeLoop outLen len (input.take len) []
      if out.length < outLen then .ok out else .error .assertion

end Base64
