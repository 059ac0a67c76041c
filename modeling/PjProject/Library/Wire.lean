import Mathlib.Tactic

set_option autoImplicit false

/-! # Bytes on the wire

Integers in network byte order, strings of a fixed number of bytes, the exclusive or of two strings,
and the padding to a multiple of four. A reader of a buffer either gets what it asks for or finds
that the buffer is too short (`none`); the lemmas say what it gets from a string that something has
been written to.
-/

namespace Wire

/-! ## Integers -/

/-- A 16-bit integer in network byte order. -/
def put16 (v : UInt16) : List UInt8 := [UInt8.ofNat (v.toNat / 256), UInt8.ofNat v.toNat]

/-- The 16-bit integer of two bytes. -/
def get16 (a b : UInt8) : UInt16 := UInt16.ofNat (a.toNat * 256 + b.toNat)

theorem get16_put16 (v : UInt16) :
    get16 (UInt8.ofNat (v.toNat / 256)) (UInt8.ofNat v.toNat) = v := by
  apply UInt16.toNat.inj
  have hv := v.toNat_lt
  simp only [get16, UInt16.toNat_ofNat', UInt8.toNat_ofNat']
  omega

/-- A 32-bit integer in network byte order. -/
def put32 (v : UInt32) : List UInt8 :=
  [UInt8.ofNat (v.toNat / 16777216), UInt8.ofNat (v.toNat / 65536), UInt8.ofNat (v.toNat / 256),
    UInt8.ofNat v.toNat]

/-- The 32-bit integer of four bytes. -/
def get32 (a b c d : UInt8) : UInt32 :=
  UInt32.ofNat (a.toNat * 16777216 + b.toNat * 65536 + c.toNat * 256 + d.toNat)

theorem get32_put32 (v : UInt32) :
    get32 (UInt8.ofNat (v.toNat / 16777216)) (UInt8.ofNat (v.toNat / 65536))
      (UInt8.ofNat (v.toNat / 256)) (UInt8.ofNat v.toNat) = v := by
  apply UInt32.toNat.inj
  have hv := v.toNat_lt
  simp only [get32, UInt32.toNat_ofNat', UInt8.toNat_ofNat']
  omega

theorem length_put16 (v : UInt16) : (put16 v).length = 2 := rfl

theorem length_put32 (v : UInt32) : (put32 v).length = 4 := rfl

/-- A string of `n` bytes. -/
abbrev Bytes (n : Nat) := { l : List UInt8 // l.length = n }

def zeroBytes (n : Nat) : Bytes n := ⟨List.replicate n 0, List.length_replicate⟩

/-! ## Reading -/

/-- The 16-bit integer at `pos`. -/
def read16 (buf : List UInt8) (pos : Nat) : Option UInt16 :=
  match buf.drop pos with
  | a :: b :: _ => some (get16 a b)
  | _ => none

/-- The 32-bit integer at `pos`. -/
def read32 (buf : List UInt8) (pos : Nat) : Option UInt32 :=
  match buf.drop pos with
  | a :: b :: c :: d :: _ => some (get32 a b c d)
  | _ => none

/-- The `n` bytes at `pos`. -/
def readBytes (buf : List UInt8) (pos n : Nat) : Option (Bytes n) :=
  if h : pos + n ≤ buf.length then
    some ⟨(buf.drop pos).take n, by rw [List.length_take, List.length_drop]; omega⟩
  else none

variable {rest s : List UInt8} {pos n : Nat}

theorem read16_append (pre : List UInt8) (h : pre.length = pos) (v : UInt16) :
    read16 (pre ++ (put16 v ++ rest)) pos = some v := by
  unfold read16
  rw [List.drop_left' h]
  show some (get16 _ _) = _
  rw [get16_put16]

theorem read32_append (pre : List UInt8) (h : pre.length = pos) (v : UInt32) :
    read32 (pre ++ (put32 v ++ rest)) pos = some v := by
  unfold read32
  rw [List.drop_left' h]
  show some (get32 _ _ _ _) = _
  rw [get32_put32]

theorem readBytes_append (pre : List UInt8) (h : pre.length = pos) (hs : s.length = n) :
    readBytes (pre ++ (s ++ rest)) pos n = some ⟨s, hs⟩ := by
  have hlen : pos + n ≤ (pre ++ (s ++ rest)).length := by
    rw [List.length_append, List.length_append, h, hs]
    omega
  have hval : ((pre ++ (s ++ rest)).drop pos).take n = s := by
    rw [List.drop_left' h, List.take_left' hs]
  unfold readBytes
  rw [dif_pos hlen]
  exact congrArg some (Subtype.ext hval)

/-- What is behind does not matter. -/
theorem read16_left {buf : List UInt8} (h : pos + 2 ≤ buf.length) (rest : List UInt8) :
    read16 (buf ++ rest) pos = read16 buf pos := by
  have hlen : 2 ≤ (buf.drop pos).length := by
    rw [List.length_drop]
    omega
  unfold read16
  rw [List.drop_append_of_le_length (by omega)]
  match hd : buf.drop pos, hlen with
  | a :: b :: _, _ => rfl

theorem read16_of_le {buf : List UInt8} (h : pos + 2 ≤ buf.length) :
    ∃ v, read16 buf pos = some v := by
  have hlen : 2 ≤ (buf.drop pos).length := by
    rw [List.length_drop]
    omega
  unfold read16
  match hd : buf.drop pos, hlen with
  | a :: b :: _, _ => exact ⟨get16 a b, rfl⟩

/-! ## Padding -/

/-- The next multiple of four. -/
def pad4 (n : Nat) : Nat := (n + 3) / 4 * 4

theorem le_pad4 (n : Nat) : n ≤ pad4 n := by
  unfold pad4
  omega

theorem pad4_mod (n : Nat) : pad4 n % 4 = 0 := by
  unfold pad4
  omega

theorem pad4_of_mod (h : n % 4 = 0) : pad4 n = n := by
  unfold pad4
  omega

theorem pad4_lt (n : Nat) : pad4 n < n + 4 := by
  unfold pad4
  omega

theorem pad4_add_four (n : Nat) : pad4 (n + 4) = pad4 n + 4 := by
  unfold pad4
  omega

/-! ## Strings of bytes -/

/-- The exclusive or of a string with a key. -/
def xorBytes (l key : List UInt8) : List UInt8 := List.zipWith (· ^^^ ·) l key

theorem length_xorBytes (l key : List UInt8) : (xorBytes l key).length = min l.length key.length :=
  List.length_zipWith

theorem xorBytes_xorBytes : ∀ (l key : List UInt8), l.length ≤ key.length →
    xorBytes (xorBytes l key) key = l
  | [], _, _ => by simp [xorBytes]
  | _ :: _, [], h => absurd h (by simp)
  | a :: l, k :: key, h => by
      have ih := xorBytes_xorBytes l key (Nat.le_of_succ_le_succ h)
      show (a ^^^ k ^^^ k) :: xorBytes (xorBytes l key) key = a :: l
      rw [ih, UInt8.xor_assoc, UInt8.xor_self, UInt8.xor_zero]

/-- The exclusive or of strings of the same length. -/
def Bytes.xor {n : Nat} (b key : Bytes n) : Bytes n :=
  ⟨xorBytes b.val key.val, by rw [length_xorBytes, b.property, key.property, Nat.min_self]⟩

theorem Bytes.xor_xor {n : Nat} (b key : Bytes n) : (b.xor key).xor key = b :=
  Subtype.ext (xorBytes_xorBytes _ _ (by rw [b.property, key.property]))

end Wire
