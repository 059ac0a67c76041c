import Mathlib.Tactic

set_option autoImplicit false

/-! # Programs that read and write a buffer

A program reads single bytes, integers in network byte order and strings of a buffer, and writes
strings to it; an access that is not inside is the fault it is given. `Yields Q x` says that the
computation `x` comes to its end without any fault, with a result of `Q`. The rules below take it
apart, step by step: a read has to be inside, and the rest goes on with the content of the buffer, as
`content` has it.
-/

namespace Buffer

variable {ε α β : Type}

/-- The computation ends without a fault, with a result of `Q`. -/
def Yields (Q : α → Prop) (x : Except ε α) : Prop := ∃ a, x = .ok a ∧ Q a

/-- The computation ends without a fault. -/
abbrev Returns (x : Except ε α) : Prop := Yields (fun _ => True) x

/-- The byte at a position, 0 outside. -/
def content (buf : List UInt8) (i : Nat) : Nat := (buf.getD i 0).toNat

/-- The 16-bit integer at a position. -/
def content16 (buf : List UInt8) (i : Nat) : Nat := content buf i * 256 + content buf (i + 1)

/-- The 32-bit integer at a position. -/
def content32 (buf : List UInt8) (i : Nat) : Nat :=
  content16 buf i * 65536 + content16 buf (i + 2)

/-- What is returned if the access is allowed. -/
def access (fault : ε) (c : Prop) [Decidable c] (a : α) : Except ε α :=
  if c then .ok a else .error fault

/-- Read `n` bytes; no byte is read nowhere. -/
def bytesAt (fault : ε) (buf : List UInt8) (i n : Nat) : Except ε (List UInt8) :=
  access fault (n = 0 ∨ i + n ≤ buf.length) ((buf.drop i).take n)

/-- Read a byte. -/
def byteAt (fault : ε) (buf : List UInt8) (i : Nat) : Except ε Nat :=
  access fault (i < buf.length) (content buf i)

/-- Read a 16-bit integer. -/
def be16At (fault : ε) (buf : List UInt8) (i : Nat) : Except ε Nat :=
  access fault (i + 2 ≤ buf.length) (content16 buf i)

/-- Read a 32-bit integer. -/
def be32At (fault : ε) (buf : List UInt8) (i : Nat) : Except ε Nat :=
  access fault (i + 4 ≤ buf.length) (content32 buf i)

/-- Read a text of at most `n` bytes, which a NUL ends: as `%.*s` does. -/
def textAt (fault : ε) (buf : List UInt8) (i n : Nat) : Except ε (List UInt8) :=
  access fault (n = 0 ∨ i + n ≤ buf.length ∨ 0 ∈ buf.drop i)
    (((buf.drop i).take n).takeWhile (· ≠ 0))

/-- Write bytes over those that are there; no byte is written nowhere. -/
def writeAt (fault : ε) (buf : List UInt8) (i : Nat) (bytes : List UInt8) : Except ε (List UInt8) :=
  access fault (bytes = [] ∨ i + bytes.length ≤ buf.length)
    (buf.take i ++ bytes ++ buf.drop (i + bytes.length))

variable {x : Except ε α} {f : α → Except ε β} {fault : ε} {buf : List UInt8} {i n : Nat}

variable {Q : α → Prop} {R : β → Prop}

/-! ## The rules -/

@[simp] theorem yields_ok {a : α} : Yields Q (.ok a : Except ε α) ↔ Q a := by
  constructor
  · rintro ⟨b, h, hb⟩
    cases h
    exact hb
  · intro h
    exact ⟨a, rfl, h⟩

theorem returns_iff : Returns x ↔ Yields (fun _ => True) x := Iff.rfl

@[simp] theorem yields_error {e : ε} : ¬ Yields Q (.error e : Except ε α) := by
  rintro ⟨a, h, -⟩
  cases h

theorem yields_bind : Yields R (x >>= f) ↔ Yields (fun a => Yields R (f a)) x := by
  cases x with
  | error e => exact ⟨fun h => absurd h yields_error, fun h => absurd h yields_error⟩
  | ok a =>
      rw [yields_ok]
      exact Iff.rfl

theorem Yields.mono (h : Yields Q x) {Q' : α → Prop} (hQ : ∀ a, Q a → Q' a) : Yields Q' x := by
  rcases h with ⟨a, hx, ha⟩
  exact ⟨a, hx, hQ a ha⟩

/-- The rule of a sequence whose rest does not depend on the first result. -/
theorem yields_bind_const {P : Prop} (hf : ∀ a, Yields R (f a) ↔ P) :
    Yields R (x >>= f) ↔ Returns x ∧ P := by
  rw [yields_bind]
  constructor
  · rintro ⟨a, hx, ha⟩
    exact ⟨⟨a, hx, trivial⟩, (hf a).mp ha⟩
  · rintro ⟨⟨a, hx, -⟩, hp⟩
    exact ⟨a, hx, (hf a).mpr hp⟩

/-- The rule of an access: it has to be allowed, and then the rest goes on with its value. -/
theorem yields_access {c : Prop} [Decidable c] {a : α} :
    Yields R (access fault c a >>= f) ↔ c ∧ Yields R (f a) := by
  unfold access
  by_cases h : c
  · rw [if_pos h]
    exact ⟨fun hf => ⟨h, hf⟩, fun hf => hf.2⟩
  · rw [if_neg h]
    exact ⟨fun hf => absurd hf yields_error, fun hf => absurd hf.1 h⟩

/-- An access at the end of a computation. -/
theorem yields_access_iff {c : Prop} [Decidable c] {a : α} :
    Yields Q (access fault c a) ↔ c ∧ Q a := by
  unfold access
  by_cases h : c
  · simp [h]
  · simp [h]

theorem yields_byteAt {f : Nat → Except ε β} :
    Yields R (byteAt fault buf i >>= f) ↔ i < buf.length ∧ Yields R (f (content buf i)) :=
  yields_access

theorem yields_be16At {f : Nat → Except ε β} :
    Yields R (be16At fault buf i >>= f) ↔ i + 2 ≤ buf.length ∧ Yields R (f (content16 buf i)) :=
  yields_access

theorem yields_be32At {f : Nat → Except ε β} :
    Yields R (be32At fault buf i >>= f) ↔ i + 4 ≤ buf.length ∧ Yields R (f (content32 buf i)) :=
  yields_access

theorem yields_bytesAt {f : List UInt8 → Except ε β} :
    Yields R (bytesAt fault buf i n >>= f) ↔
      (n = 0 ∨ i + n ≤ buf.length) ∧ Yields R (f ((buf.drop i).take n)) :=
  yields_access

theorem yields_textAt {f : List UInt8 → Except ε β} :
    Yields R (textAt fault buf i n >>= f) ↔
      (n = 0 ∨ i + n ≤ buf.length ∨ 0 ∈ buf.drop i) ∧
        Yields R (f (((buf.drop i).take n).takeWhile (· ≠ 0))) :=
  yields_access

theorem yields_writeAt {bytes : List UInt8} {f : List UInt8 → Except ε β} :
    Yields R (writeAt fault buf i bytes >>= f) ↔
      (bytes = [] ∨ i + bytes.length ≤ buf.length) ∧
        Yields R (f (buf.take i ++ bytes ++ buf.drop (i + bytes.length))) :=
  yields_access

/-- Bytes that are written inside a buffer do not change its length. -/
theorem length_write {bytes : List UInt8} (h : bytes = [] ∨ i + bytes.length ≤ buf.length) :
    (buf.take i ++ bytes ++ buf.drop (i + bytes.length)).length = buf.length := by
  rcases h with rfl | h
  · simp
  · simp
    omega

/-! ## Writing a byte -/

theorem length_write_byte {b : UInt8} (h : i < buf.length) :
    (buf.take i ++ [b] ++ buf.drop (i + 1)).length = buf.length :=
  length_write (.inr (by simpa using h))

/-- The bytes in front of it, and the byte itself. -/
theorem take_write_byte {b : UInt8} (h : i < buf.length) :
    (buf.take i ++ [b] ++ buf.drop (i + 1)).take (i + 1) = buf.take i ++ [b] :=
  List.take_left' (by simp; omega)

/-- The bytes behind it are what they were. -/
theorem drop_write_byte {b : UInt8} (h : i < buf.length) (hn : i + 1 ≤ n) :
    (buf.take i ++ [b] ++ buf.drop (i + 1)).drop n = buf.drop n := by
  have hsplit : n = i + 1 + (n - (i + 1)) := by omega
  rw [hsplit, ← List.drop_drop, List.drop_left' (by simp; omega), List.drop_drop]

/-- The byte that is read is the first of the rest. -/
theorem drop_eq_content (h : i < buf.length) :
    buf.drop i = UInt8.ofNat (content buf i) :: buf.drop (i + 1) := by
  rw [List.drop_eq_getElem_cons h]
  simp [content, List.getElem?_eq_getElem h]

/-! ## Writing a string -/

/-- The buffer with bytes over those from a position on. -/
def written (buf : List UInt8) (i : Nat) (bytes : List UInt8) : List UInt8 :=
  buf.take i ++ bytes ++ buf.drop (i + bytes.length)

variable {bytes more : List UInt8}

/-- The rule of a write at a position of the buffer. -/
theorem yields_written {f : List UInt8 → Except ε β} (hi : i ≤ buf.length) :
    Yields R (writeAt fault buf i bytes >>= f) ↔
      i + bytes.length ≤ buf.length ∧ Yields R (f (written buf i bytes)) := by
  have hin : bytes = [] ∨ i + bytes.length ≤ buf.length ↔ i + bytes.length ≤ buf.length := by
    constructor
    · rintro (rfl | h)
      · exact hi
      · exact h
    · exact .inr
  rw [yields_writeAt, hin]
  exact Iff.rfl

@[simp] theorem length_written (h : i + bytes.length ≤ buf.length) :
    (written buf i bytes).length = buf.length :=
  length_write (.inr h)

/-- One string behind the other. -/
theorem written_written (hi : i ≤ buf.length) {j : Nat} (hj : j = i + bytes.length) :
    written (written buf i bytes) j more = written buf i (bytes ++ more) := by
  subst hj
  have hlen : (buf.take i ++ bytes).length = i + bytes.length := by
    rw [List.length_append, List.length_take]
    omega
  unfold written
  rw [List.take_left' hlen, ← List.drop_drop, List.drop_left' hlen, List.drop_drop,
    List.length_append]
  simp only [List.append_assoc, Nat.add_assoc]

/-- The rule of a write where the last one ends. -/
theorem yields_written_more {f : List UInt8 → Except ε β} (h : i + bytes.length ≤ buf.length)
    {j : Nat} (hj : j = i + bytes.length) :
    Yields R (writeAt fault (written buf i bytes) j more >>= f) ↔
      i + (bytes ++ more).length ≤ buf.length ∧ Yields R (f (written buf i (bytes ++ more))) := by
  rw [yields_written (by rw [length_written h]; omega), length_written h,
    written_written (by omega) hj, List.length_append, hj, Nat.add_assoc]

/-- The rule of two writes, the second one where the first one ends. -/
theorem yields_written_append {f : List UInt8 → Except ε β} (hi : i ≤ buf.length) {j : Nat}
    (hj : j = i + bytes.length) :
    Yields R (writeAt fault buf i bytes >>= fun buf => writeAt fault buf j more >>= f) ↔
      i + (bytes ++ more).length ≤ buf.length ∧ Yields R (f (written buf i (bytes ++ more))) := by
  rw [yields_written hi, and_congr_right fun h => yields_written_more h hj]
  constructor
  · exact And.right
  · intro h
    rw [List.length_append] at h
    exact ⟨by omega, by rw [List.length_append]; exact h⟩

/-- A write over a part of what has been written. -/
theorem written_inside (hi : i ≤ buf.length) {k : Nat} (hk : k + more.length ≤ bytes.length) {j : Nat}
    (hj : j = i + k) : written (written buf i bytes) j more = written buf i (written bytes k more) := by
  subst hj
  have hlen : (buf.take i).length = i := by
    rw [List.length_take]
    omega
  have htake : (buf.take i ++ (bytes ++ buf.drop (i + bytes.length))).take (i + k) =
      buf.take i ++ bytes.take k := by
    rw [List.take_append, hlen, List.take_of_length_le (by omega), Nat.add_sub_cancel_left,
      List.take_append_of_le_length (by omega)]
  have hdrop : (buf.take i ++ (bytes ++ buf.drop (i + bytes.length))).drop (i + k + more.length) =
      bytes.drop (k + more.length) ++ buf.drop (i + bytes.length) := by
    rw [Nat.add_assoc, ← List.drop_drop, List.drop_left' hlen, List.drop_append_of_le_length hk]
  have hsame : (written bytes k more).length = bytes.length := length_written hk
  have hout : written (written buf i bytes) (i + k) more =
      buf.take i ++ bytes.take k ++ more ++
        (bytes.drop (k + more.length) ++ buf.drop (i + bytes.length)) := by
    rw [← htake, ← hdrop]
    simp only [written, List.append_assoc]
  rw [hout, written, hsame]
  simp only [written, List.append_assoc]

/-- What is in front of the end of what has been written. -/
theorem take_written (hi : i ≤ buf.length) (hn : n = i + bytes.length) :
    (written buf i bytes).take n = buf.take i ++ bytes := by
  refine List.take_left' ?_
  rw [List.length_append, List.length_take]
  omega

/-- A string is read where it stands. -/
theorem content_append {pre rest : List UInt8} {b : UInt8} (h : pre.length = i) :
    content (pre ++ b :: rest) i = b.toNat := by
  subst h
  simp [content]

end Buffer
