import Mathlib.Data.List.DropRight
import PjProject.Base64.Base64
import PjProject.Library.Outcome

set_option autoImplicit false

/-! # Base64 there and back

The decoder takes the values of the characters one after the other and passes over the characters of no value; but
at the end of the text it takes `INV` for one (`values`). The bytes of these values are what it writes
(`decodeLoop_eq`), so that a text that ends outside of the alphabet has a byte too many unless its groups
are full.
-/

namespace Base64

open Buffer MachineInt

/-! ## The alphabet -/

/-- A character of the alphabet. -/
abbrev Alphabet (b : UInt8) : Prop := base256Char b ≠ inv

theorem base256Char_base64Char : ∀ v, v < 64 → base256Char (base64Char v) = v := by decide

theorem base64Char_ne_padding : ∀ v, v < 64 → base64Char v ≠ padding := by decide

theorem not_alphabet_padding : ¬ Alphabet padding := by decide

/-! ## Values of a text -/

/-- The values that the decoder takes from a text. -/
def values : List UInt8 → List Nat
  | [] => []
  | b :: text =>
      if base256Char b = inv ∧ text ≠ [] then values text else base256Char b :: values text

/-- The values of its characters of the alphabet. -/
def cleanValues (text : List UInt8) : List Nat := (text.filter Alphabet).map base256Char

/-- The last character is not one of the alphabet. -/
def EndsOutside (text : List UInt8) : Prop := ∃ b, text.getLast? = some b ∧ ¬ Alphabet b

instance (text : List UInt8) : Decidable (EndsOutside text) :=
  decidable_of_iff ((text.getLast?.any fun b => ¬ Alphabet b) = true) (by
    unfold EndsOutside
    cases text.getLast? <;> simp)

variable {text : List UInt8} {outLen : Int}

/-- `INV` is taken at the end of a text, and only there. -/
theorem values_eq (text : List UInt8) :
    values text = cleanValues text ++ if EndsOutside text then [inv] else [] := by
  induction text with
  | nil => simp [values, cleanValues, EndsOutside]
  | cons b text ih =>
      unfold values
      by_cases hnil : text = []
      · subst hnil
        by_cases hb : base256Char b = inv
        · simp [cleanValues, EndsOutside, hb, values]
        · simp [cleanValues, EndsOutside, hb, values]
      · have hlast : EndsOutside (b :: text) ↔ EndsOutside text := by
          unfold EndsOutside
          rw [List.getLast?_cons_of_ne_nil hnil]
        by_cases hb : base256Char b = inv
        · rw [if_pos ⟨hb, hnil⟩, ih]
          simp [cleanValues, hb, hlast]
        · rw [if_neg fun h => hb h.1, ih]
          simp [cleanValues, hb, hlast]

theorem length_values_le (text : List UInt8) : (values text).length ≤ text.length := by
  induction text with
  | nil => simp [values]
  | cons b text ih =>
      unfold values
      split
      · simp only [List.length_cons]
        omega
      · simpa using ih

theorem values_eq_nil_iff : values text = [] ↔ text = [] := by
  constructor
  · induction text with
    | nil => simp
    | cons b text ih =>
        unfold values
        split
        · rename_i h
          exact fun hv => absurd (ih hv) h.2
        · simp
  · rintro rfl
    rfl

/-- The next value, and those behind it. -/
theorem nextValue_spec (h : text ≠ []) :
    values text = (nextValue text).1 :: values (nextValue text).2 ∧
      (nextValue text).2.length < text.length := by
  induction text with
  | nil => exact absurd rfl h
  | cons b text ih =>
      rw [values, nextValue]
      by_cases hb : base256Char b = inv ∧ text ≠ []
      · have hrest := ih hb.2
        rw [if_pos hb, if_pos hb]
        exact ⟨hrest.1, by rw [List.length_cons]; omega⟩
      · rw [if_neg hb, if_neg hb]
        exact ⟨rfl, by simp⟩

/-- A group takes as many values as there are, up to its room. -/
theorem fill_spec : ∀ (room : Nat) (text : List UInt8),
    (fill room text).1 = (values text).take room ∧
      values (fill room text).2 = (values text).drop room ∧
      (fill room text).2.length + (fill room text).1.length ≤ text.length
  | 0, text => by simp [fill]
  | room + 1, [] => by simp [fill, values]
  | room + 1, b :: text => by
      have hnext := nextValue_spec (List.cons_ne_nil b text)
      have ih := fill_spec room (nextValue (b :: text)).2
      simp only [fill]
      rw [hnext.1]
      refine ⟨?_, ?_, ?_⟩
      · rw [List.take_succ_cons, ih.1]
      · rw [List.drop_succ_cons, ih.2.1]
      · simp only [List.length_cons] at hnext ⊢
        omega

/-! ## Bytes of the values -/

/-- The bytes of the values, in groups of four. -/
def bytesOf : List Nat → List UInt8
  | c0 :: c1 :: c2 :: c3 :: vs => byte0 c0 c1 :: byte1 c1 c2 :: byte2 c2 c3 :: bytesOf vs
  | [c0, c1, c2] => [byte0 c0 c1, byte1 c1 c2]
  | [c0, c1] => [byte0 c0 c1]
  | _ => []

theorem length_bytesOf : ∀ vs : List Nat, (bytesOf vs).length = vs.length * 3 / 4
  | [] => rfl
  | [_] => by simp [bytesOf]
  | [_, _] => by simp [bytesOf]
  | [_, _, _] => by simp [bytesOf]
  | c0 :: c1 :: c2 :: c3 :: vs => by
      have ih := length_bytesOf vs
      simp only [bytesOf, List.length_cons, ih]
      omega

theorem append_fits {out bytes : List UInt8} (h : (out.length + bytes.length : Int) ≤ outLen) :
    append outLen out bytes = .ok (out ++ bytes) := if_pos h

theorem append_overrun {out bytes : List UInt8} (h : ¬ (out.length + bytes.length : Int) ≤ outLen) :
    append outLen out bytes = .error .overrun := if_neg h

/-- **The loop over the groups** writes the bytes of the values. -/
theorem decodeLoop_eq : ∀ (turns : Nat) (text out : List UInt8), text.length ≤ turns →
    (out.length + (bytesOf (values text)).length : Int) ≤ outLen →
    decodeLoop outLen turns text out = .ok (out ++ bytesOf (values text))
  | turns, [], out, _, _ => by
      unfold decodeLoop
      simp [values, bytesOf]
  | 0, b :: text, _, hturns, _ => absurd hturns (by simp)
  | turns + 1, b :: text, out, hturns, hroom => by
      have hfill := fill_spec 4 (b :: text)
      have hne : values (b :: text) ≠ [] := fun h => by simpa using values_eq_nil_iff.mp h
      unfold decodeLoop
      simp only
      rw [hfill.1]
      match hv : values (b :: text) with
      | [] => exact absurd hv hne
      | [c0] =>
          simp [bytesOf]
      | [c0, c1] =>
          rw [hv] at hroom
          exact append_fits hroom
      | [c0, c1, c2] =>
          rw [hv] at hroom
          exact append_fits hroom
      | c0 :: c1 :: c2 :: c3 :: vs =>
          rw [hv] at hroom hfill
          have hrest : values (fill 4 (b :: text)).2 = vs := hfill.2.1
          have hlen := hfill.2.2
          rw [hfill.1] at hlen
          simp only [bytesOf, List.length_cons, List.take_succ_cons, List.take_zero,
            List.length_nil] at hroom hlen hturns ⊢
          rw [append_fits (by simp only [List.length_cons, List.length_nil]; omega),
            Outcome.ok_bind, decodeLoop_eq turns _ _ (by omega)
              (by rw [hrest]; simp only [List.length_append, List.length_cons, List.length_nil]; omega),
            hrest]
          simp

/-! ## Padding -/

/-- The text without the padding at its end. -/
def unpadded (text : List UInt8) : List UInt8 := text.rdropWhile (· = padding)

/-- The loop over the padding comes to the text without it, or reads in front of the text if nothing is
left. -/
theorem stripPadding_eq (text : List UInt8) : ∀ len, len ≤ text.length →
    (unpadded (text.take len) = [] → stripPadding text len = .error .overread) ∧
      (unpadded (text.take len) ≠ [] →
        stripPadding text len = .ok (unpadded (text.take len)).length ∧
          text.take (unpadded (text.take len)).length = unpadded (text.take len))
  | 0, _ => by
      simp [unpadded, stripPadding]
  | len + 1, h => by
      have ih := stripPadding_eq text len (by omega)
      have hget : text.getD len 0 = text[len] := by
        rw [List.getD_eq_getElem?_getD, List.getElem?_eq_getElem h, Option.getD_some]
      have htake : text.take (len + 1) = text.take len ++ [text[len]] := by
        rw [List.take_add_one, List.getElem?_eq_getElem h]
        rfl
      unfold stripPadding
      rw [htake, hget]
      by_cases hp : text[len] = padding
      · have hdrop : unpadded (text.take len ++ [text[len]]) = unpadded (text.take len) :=
          List.rdropWhile_concat_pos _ _ _ (by simpa using hp)
        rw [if_pos hp, hdrop]
        exact ih
      · have hdrop : unpadded (text.take len ++ [text[len]]) = text.take len ++ [text[len]] :=
          List.rdropWhile_concat_neg _ _ _ (by simpa using hp)
        have hlen : (text.take len ++ [text[len]]).length = len + 1 := by
          rw [List.length_append, List.length_take]
          simp
          omega
        rw [if_neg hp, hdrop, hlen, htake]
        exact ⟨fun h => absurd h (List.append_ne_nil_of_right_ne_nil _ (List.cons_ne_nil _ _)),
          fun _ => ⟨rfl, rfl⟩⟩

theorem length_unpadded_le (text : List UInt8) : (unpadded text).length ≤ text.length :=
  (List.rdropWhile_prefix _ text).length_le

/-! ## The decoder -/

/-- Nothing but padding: the character in front of the text is read. -/
theorem decode_overread (hlen : text.length < 2147483648) (hnil : unpadded text = []) :
    decode outLen text = .error .overread := by
  have hint : int32 text.length = text.length := int32_of_range (by omega) (by omega)
  have hstrip := (stripPadding_eq text text.length (Nat.le_refl _)).1 (by rwa [List.take_length])
  rw [decode, hint, if_neg (by omega), Int.toNat_natCast, hstrip]
  rfl

/-- **`pj_base64_decode`** of a text with something but padding, into a buffer that it takes. -/
theorem decode_eq (hlen : text.length < 2147483648) (hne : unpadded text ≠ [])
    (hcheck : base64ToBase256Len (unpadded text).length ≤ outLen)
    (hroom : ((bytesOf (values (unpadded text))).length : Int) ≤ outLen) :
    decode outLen text =
      if ((bytesOf (values (unpadded text))).length : Int) < outLen then
        .ok (bytesOf (values (unpadded text))) else .error .assertion := by
  have hint : int32 text.length = text.length := int32_of_range (by omega) (by omega)
  have hstrip := (stripPadding_eq text text.length (Nat.le_refl _)).2 (by rwa [List.take_length])
  rw [List.take_length] at hstrip
  rw [decode, hint, if_neg (by omega), Int.toNat_natCast, hstrip.1, Outcome.ok_bind,
    if_neg (by omega), hstrip.2, decodeLoop_eq _ _ _ (Nat.le_refl _) (by simpa using hroom),
    Outcome.ok_bind, List.nil_append]

/-! ## Characters outside of the alphabet -/

theorem base64ToBase256Len_le (n : Nat) : base64ToBase256Len n ≤ (n * 3 / 4 : Nat) := by
  have hle : int32 ((n : Int) * 3) ≤ n * 3 := by
    unfold int32
    omega
  unfold base64ToBase256Len
  by_cases h0 : 0 ≤ int32 ((n : Int) * 3)
  · rw [Int.tdiv_eq_ediv_of_nonneg h0]
    omega
  · have hneg : 0 ≤ (-int32 ((n : Int) * 3)).tdiv 4 := Int.tdiv_nonneg (by omega) (by decide)
    rw [Int.neg_tdiv] at hneg
    omega

/-- What stands in for the padding has no value. -/
theorem filter_unpadded (text : List UInt8) :
    (unpadded text).filter Alphabet = text.filter Alphabet := by
  induction text using List.reverseRecOn with
  | nil => rfl
  | append_singleton text b ih =>
      unfold unpadded at ih ⊢
      by_cases hb : b = padding
      · rw [List.rdropWhile_concat_pos _ _ _ (by simpa using hb), ih, List.filter_append, hb]
        simp [not_alphabet_padding]
      · rw [List.rdropWhile_concat_neg _ _ _ (by simpa using hb)]

/-- A text of the alphabet ends in it. -/
theorem not_endsOutside_filter (text : List UInt8) : ¬ EndsOutside (text.filter Alphabet) := by
  rintro ⟨b, hb, hout⟩
  have hmem := List.mem_of_getLast? hb
  exact hout (by simpa using (List.mem_filter.mp hmem).2)

/-- ... and has no padding. -/
theorem unpadded_filter (text : List UInt8) :
    unpadded (text.filter Alphabet) = text.filter Alphabet := by
  refine List.rdropWhile_eq_self_iff.mpr fun hne hb => ?_
  have hmem := List.mem_filter.mp (List.getLast_mem hne)
  rw [of_decide_eq_true hb] at hmem
  exact absurd hmem.2 (by decide)

/-- One value more gives no byte only to full groups. -/
theorem bytesOf_concat_iff (v : Nat) (vs : List Nat) :
    bytesOf (vs ++ [v]) = bytesOf vs ↔ 4 ∣ vs.length := by
  constructor
  · intro h
    have hlen := congrArg List.length h
    rw [length_bytesOf, length_bytesOf, List.length_append, List.length_singleton] at hlen
    omega
  · match vs with
    | [] => exact fun _ => rfl
    | [_] => exact fun h => absurd h (by simp)
    | [_, _] => exact fun h => absurd h (by simp)
    | [_, _, _] => exact fun h => absurd h (by simp)
    | c0 :: c1 :: c2 :: c3 :: vs =>
        intro h
        have ih := (bytesOf_concat_iff v vs).mpr (by simp only [List.length_cons] at h; omega)
        simp only [List.cons_append, bytesOf, ih]

/-- The decoder takes the text for the one without the characters outside of the alphabet. -/
def Tolerant (outLen : Int) (text : List UInt8) : Prop :=
  ∃ out, decode outLen text = .ok out ∧ decode outLen (text.filter Alphabet) = .ok out

/-- **Characters outside of the alphabet are ignored** if there is one of the alphabet, and the text does not
end in another one in the middle of a group. -/
theorem tolerant_iff (hroom : (text.length * 3 / 4 : Nat) < outLen) (hint : outLen < 2147483648) :
    Tolerant outLen text ↔ text.length < 2147483648 ∧ text.filter Alphabet ≠ [] ∧
      (4 ∣ (text.filter Alphabet).length ∨ ¬ EndsOutside (unpadded text)) := by
  by_cases hlen : text.length < 2147483648
  swap
  · -- the length is negative as an `int`
    have hneg : int32 text.length < 0 := by
      rw [int32_of_upper (by omega) (by omega)]
      omega
    refine iff_of_false ?_ fun h => hlen h.1
    rintro ⟨out, h, -⟩
    rw [decode, if_pos hneg] at h
    cases h
  have hdecode : ∀ t : List UInt8, t.length ≤ text.length → unpadded t ≠ [] →
      decode outLen t = .ok (bytesOf (values (unpadded t))) := by
    intro t ht hne
    have hle := length_unpadded_le t
    have hcheck := base64ToBase256Len_le (unpadded t).length
    have hvalues := length_values_le (unpadded t)
    have hbytes := length_bytesOf (values (unpadded t))
    rw [decode_eq (by omega) hne (by omega) (by omega), if_pos (by omega)]
  have hfilter : (text.filter Alphabet).length ≤ text.length := List.length_filter_le _ _
  by_cases hnil : text.filter Alphabet = []
  · refine iff_of_false ?_ fun h => h.2.1 hnil
    rintro ⟨out, -, h⟩
    rw [hnil, decode_overread (by simp) rfl] at h
    cases h
  have hne : unpadded text ≠ [] := by
    intro h
    rw [← filter_unpadded, h] at hnil
    exact hnil rfl
  have hclean : values (text.filter Alphabet) = cleanValues text := by
    rw [values_eq, if_neg (not_endsOutside_filter text), List.append_nil, cleanValues,
      List.filter_filter]
    simp [cleanValues]
  have hcount : (cleanValues text).length = (text.filter Alphabet).length := by simp [cleanValues]
  have hsame : Tolerant outLen text ↔
      bytesOf (values (unpadded text)) = bytesOf (cleanValues text) := by
    unfold Tolerant
    rw [hdecode text (Nat.le_refl _) hne,
      hdecode _ hfilter (by rwa [unpadded_filter]), unpadded_filter, hclean]
    simp [eq_comm]
  rw [hsame, values_eq, cleanValues, filter_unpadded]
  by_cases hends : EndsOutside (unpadded text)
  · rw [if_pos hends]
    refine (bytesOf_concat_iff inv (cleanValues text)).trans ?_
    rw [hcount]
    exact ⟨fun h => ⟨hlen, hnil, .inl h⟩, fun h => h.2.2.resolve_right (not_not.mpr hends)⟩
  · rw [if_neg hends, List.append_nil]
    exact iff_of_true rfl ⟨hlen, hnil, .inr hends⟩

/-! ## The encoder -/

/-- The values of a string of bytes. -/
def encodeValues : List UInt8 → List Nat
  | [] => []
  | [c1] => [value0 c1, value1 c1 0]
  | [c1, c2] => [value0 c1, value1 c1 c2, value2 c2 0]
  | c1 :: c2 :: c3 :: input => value0 c1 :: value1 c1 c2 :: value2 c2 c3 :: value3 c3 :: encodeValues input

/-- The text of a string of bytes. -/
def encodeText : List UInt8 → List UInt8
  | [] => []
  | [c1] => base256to64 c1 0 0 2
  | [c1, c2] => base256to64 c1 c2 0 1
  | c1 :: c2 :: c3 :: input => base256to64 c1 c2 c3 0 ++ encodeText input

theorem length_encodeText : ∀ input, (encodeText input).length = (input.length + 2) / 3 * 4
  | [] => rfl
  | [_] => by simp [encodeText, base256to64]
  | [_, _] => by simp [encodeText, base256to64]
  | c1 :: c2 :: c3 :: input => by
      have ih := length_encodeText input
      simp only [encodeText, base256to64, List.length_append, List.length_cons, List.length_nil, ih]
      omega

/-- The characters of the values, and the padding. -/
theorem encodeText_eq : ∀ input, ∃ pad, (pad = 0 ↔ input.length % 3 = 0) ∧
    encodeText input = (encodeValues input).map base64Char ++ List.replicate pad padding
  | [] => ⟨0, by simp, rfl⟩
  | [_] => ⟨2, by simp, rfl⟩
  | [_, _] => ⟨1, by simp, rfl⟩
  | c1 :: c2 :: c3 :: input => by
      rcases encodeText_eq input with ⟨pad, hpad, h⟩
      refine ⟨pad, ?_, ?_⟩
      · rw [hpad]
        simp only [List.length_cons]
        omega
      · simp [encodeText, encodeValues, base256to64, h]

theorem encodeValues_lt : ∀ input, ∀ v ∈ encodeValues input, v < 64
  | [] => by simp [encodeValues]
  | [c1] => by
      have h1 := c1.toNat_lt
      simp only [encodeValues, value0, value1, List.forall_mem_cons, UInt8.toNat_zero]
      exact ⟨by omega, by omega, by simp⟩
  | [c1, c2] => by
      have h1 := c1.toNat_lt
      have h2 := c2.toNat_lt
      simp only [encodeValues, value0, value1, value2, List.forall_mem_cons, UInt8.toNat_zero]
      exact ⟨by omega, by omega, by omega, by simp⟩
  | c1 :: c2 :: c3 :: input => by
      have h1 := c1.toNat_lt
      have h2 := c2.toNat_lt
      have h3 := c3.toNat_lt
      simp only [encodeValues, value0, value1, value2, value3, List.forall_mem_cons]
      exact ⟨by omega, by omega, by omega, by omega, encodeValues_lt input⟩

theorem byte0_value (c1 c2 : UInt8) : byte0 (value0 c1) (value1 c1 c2) = c1 := by
  apply UInt8.toNat.inj
  have h1 := c1.toNat_lt
  have h2 := c2.toNat_lt
  simp only [byte0, value0, value1, UInt8.toNat_ofNat']
  omega

theorem byte1_value (c1 c2 c3 : UInt8) : byte1 (value1 c1 c2) (value2 c2 c3) = c2 := by
  apply UInt8.toNat.inj
  have h2 := c2.toNat_lt
  have h3 := c3.toNat_lt
  simp only [byte1, value1, value2, UInt8.toNat_ofNat']
  omega

theorem byte2_value (c2 c3 : UInt8) : byte2 (value2 c2 c3) (value3 c3) = c3 := by
  apply UInt8.toNat.inj
  have h3 := c3.toNat_lt
  simp only [byte2, value2, value3, UInt8.toNat_ofNat']
  omega

/-- The bytes of the values are those that have been encoded. -/
theorem bytesOf_encodeValues : ∀ input, bytesOf (encodeValues input) = input
  | [] => rfl
  | [c1] => by simp [encodeValues, bytesOf, byte0_value]
  | [c1, c2] => by simp [encodeValues, bytesOf, byte0_value, byte1_value]
  | c1 :: c2 :: c3 :: input => by
      simp only [encodeValues, bytesOf, byte0_value, byte1_value, byte2_value,
        bytesOf_encodeValues input]

/-- The values of characters that have been taken from the table. -/
theorem values_map {vs : List Nat} (h : ∀ v ∈ vs, v < 64) : values (vs.map base64Char) = vs := by
  induction vs with
  | nil => rfl
  | cons v vs ih =>
      have hv := base256Char_base64Char v (h v List.mem_cons_self)
      have hne : base256Char (base64Char v) ≠ inv := by
        have := h v List.mem_cons_self
        rw [hv, inv]
        omega
      rw [List.map_cons, values, if_neg fun hi => hne hi.1, hv,
        ih fun w hw => h w (List.mem_cons_of_mem _ hw)]

theorem unpadded_replicate (t : List UInt8) (pad : Nat) :
    unpadded (t ++ List.replicate pad padding) = unpadded t := by
  induction pad with
  | zero => simp
  | succ pad ih =>
      rw [List.replicate_succ', ← List.append_assoc]
      unfold unpadded at ih ⊢
      rw [List.rdropWhile_concat_pos _ _ _ (by simp), ih]

/-- The padding of a text is all that is stripped. -/
theorem unpadded_encodeText (input : List UInt8) :
    unpadded (encodeText input) = (encodeValues input).map base64Char := by
  rcases encodeText_eq input with ⟨pad, -, h⟩
  rw [h, unpadded_replicate]
  refine List.rdropWhile_eq_self_iff.mpr fun hne hb => ?_
  rcases List.mem_map.mp (List.getLast_mem hne) with ⟨v, hv, hchar⟩
  rw [← hchar] at hb
  exact base64Char_ne_padding v (encodeValues_lt input v hv) (of_decide_eq_true hb)

theorem encodeLoop_eq : ∀ (input out : List UInt8),
    ((out.length + (encodeText input).length : Nat) : Int) ≤ outLen →
    encodeLoop outLen input out = .ok (out ++ encodeText input)
  | [], out, _ => by simp [encodeLoop, encodeText]
  | [c1], out, h => append_fits (by simpa [encodeText] using h)
  | [c1, c2], out, h => append_fits (by simpa [encodeText] using h)
  | c1 :: c2 :: c3 :: input, out, h => by
      simp only [encodeText, List.length_append] at h
      rw [encodeLoop, append_fits (by omega), Outcome.ok_bind,
        encodeLoop_eq input _ (by simp only [List.length_append]; omega), encodeText,
        List.append_assoc]

/-- A text that does not fit is written behind its buffer. -/
theorem encodeLoop_overrun : ∀ (input out : List UInt8), input ≠ [] →
    outLen < (out.length + (encodeText input).length : Nat) →
    encodeLoop outLen input out = .error .overrun
  | [], _, h, _ => absurd rfl h
  | [c1], out, _, h => append_overrun (by simp only [encodeText] at h; omega)
  | [c1, c2], out, _, h => append_overrun (by simp only [encodeText] at h; omega)
  | c1 :: c2 :: c3 :: input, out, _, h => by
      simp only [encodeText, List.length_append] at h
      rw [encodeLoop]
      by_cases hfit : ((out.length : Int) + (base256to64 c1 c2 c3 0).length) ≤ outLen
      · rw [append_fits hfit, Outcome.ok_bind]
        by_cases hnil : input = []
        · subst hnil
          simp only [encodeText, List.length_nil] at h
          omega
        · exact encodeLoop_overrun input _ hnil (by simp only [List.length_append]; omega)
      · rw [append_overrun hfit]
        rfl

/-! ## The macros -/

/-- Division rounds towards zero. -/
theorem tdiv_range (x k : Int) (hk : 0 < k) :
    (0 ≤ x → x.tdiv k = x / k) ∧ (x < 0 → x ≤ x.tdiv k ∧ x.tdiv k ≤ 0) := by
  refine ⟨fun h => Int.tdiv_eq_ediv_of_nonneg h, fun h => ?_⟩
  have hneg : (-x).tdiv k = -x / k := Int.tdiv_eq_ediv_of_nonneg (by omega)
  rw [Int.neg_tdiv] at hneg
  have h0 : 0 ≤ -x / k := Int.ediv_nonneg (by omega) (by omega)
  have h1 : -x / k ≤ -x := Int.ediv_le_self _ (by omega)
  omega

theorem base256ToBase64Len_eq {n : Nat} (h : n < 536870912) :
    base256ToBase64Len n = (n * 4 / 3 + 3 : Nat) := by
  have h4 : int32 ((n : Int) * 4) = n * 4 := int32_of_range (by omega) (by omega)
  unfold base256ToBase64Len
  rw [h4, (tdiv_range _ 3 (by decide)).1 (by omega), int32_of_range (by omega) (by omega)]
  omega

/-- With an overflow, the macro gives less than there is to be written. -/
theorem base256ToBase64Len_lt {n : Nat} (h1 : 536870912 ≤ n) (h2 : n < 2147483648) :
    base256ToBase64Len n < ((n + 2) / 3 * 4 : Nat) := by
  obtain ⟨y, hy⟩ : ∃ y, y = int32 ((n : Int) * 4) := ⟨_, rfl⟩
  have hrange : -2147483648 ≤ y ∧ y ≤ n * 4 - 4294967296 := by
    rw [hy]
    by_cases hone : (n : Int) * 4 < 6442450944
    · rw [int32_of_upper (by omega) hone]
      omega
    · unfold int32
      omega
  have hdiv := tdiv_range y 3 (by decide)
  unfold base256ToBase64Len
  rw [← hy]
  by_cases h0 : 0 ≤ y
  · rw [hdiv.1 h0, int32_of_range (by omega) (by omega)]
    omega
  · have hle := hdiv.2 (by omega)
    rw [int32_of_range (by omega) (by omega)]
    omega

theorem base64ToBase256Len_eq {n : Nat} (h : n * 3 < 2147483648) :
    base64ToBase256Len n = (n * 3 / 4 : Nat) := by
  unfold base64ToBase256Len
  rw [int32_of_range (by omega) (by omega), (tdiv_range _ 4 (by decide)).1 (by omega)]
  omega

/-! ## There and back -/

/-- The bytes come back, through buffers of the sizes that the macros give. -/
def RoundTrips (input : List UInt8) : Prop :=
  ∃ text, encode (base256ToBase64Len input.length) input = .ok text ∧
    decode (base64ToBase256Len text.length) text = .ok input

/-- What is decoded is shorter than its buffer. -/
theorem lt_of_decode {out : List UInt8} (h : decode outLen text = .ok out) :
    (out.length : Int) < outLen := by
  rw [decode] at h
  split at h
  · cases h
  · rcases Outcome.bind_eq_ok h with ⟨len, -, h⟩
    split at h
    · cases h
    · rcases Outcome.bind_eq_ok h with ⟨out', -, h⟩
      split at h
      · rename_i hlt
        cases h
        exact hlt
      · cases h

theorem encode_eq {input : List UInt8} (h : input.length < 536870912) :
    encode (base256ToBase64Len input.length) input = .ok (encodeText input) := by
  have hlen := length_encodeText input
  have hbase := base256ToBase64Len_eq h
  rw [encode, if_neg (by omega), encodeLoop_eq _ _ (by simp only [List.length_nil]; omega),
    List.nil_append]

/-- **Bytes come back** exactly if their number is not a multiple of three, and the macros do not
overflow. -/
theorem restores_iff (input : List UInt8) (hint : input.length < 2147483648) :
    RoundTrips input ↔ input.length % 3 ≠ 0 ∧ input.length < 536870911 := by
  have hlen := length_encodeText input
  by_cases hlarge : 536870912 ≤ input.length
  · -- the text is written behind its buffer
    have hbase := base256ToBase64Len_lt hlarge hint
    refine iff_of_false ?_ fun h => by omega
    rintro ⟨text, h, -⟩
    rw [encode, if_neg (by omega), encodeLoop_overrun] at h
    · cases h
    · rintro rfl
      simp at hlarge
    · simp only [List.length_nil]
      omega
  have htrip : RoundTrips input ↔
      decode (base64ToBase256Len (encodeText input).length) (encodeText input) = .ok input := by
    unfold RoundTrips
    rw [encode_eq (by omega)]
    constructor
    · rintro ⟨_, ⟨⟩, h⟩
      exact h
    · exact fun h => ⟨_, rfl, h⟩
  rw [htrip]
  by_cases hover : input.length = 536870911
  · -- the second macro overflows
    refine iff_of_false (fun h => ?_) fun h => by omega
    have hlt := lt_of_decode h
    have hneg := (tdiv_range (int32 (((encodeText input).length : Int) * 3)) 4 (by decide)).2
      (by rw [hlen, hover, int32_of_upper (by decide) (by decide)]; decide)
    unfold base64ToBase256Len at hlt
    omega
  by_cases hnil : input = []
  · subst hnil
    refine iff_of_false ?_ (by simp)
    rw [encodeText, decode_overread (by simp) rfl]
    simp
  have hpos : 0 < input.length := List.length_pos_iff.mpr hnil
  have hbase : base64ToBase256Len (encodeText input).length = ((input.length + 2) / 3 * 3 : Nat) := by
    rw [base64ToBase256Len_eq (by omega)]
    omega
  have hbytes : bytesOf (values (unpadded (encodeText input))) = input := by
    rw [unpadded_encodeText, values_map (encodeValues_lt input), bytesOf_encodeValues]
  have hne : unpadded (encodeText input) ≠ [] := by
    intro h
    rw [h] at hbytes
    exact hnil hbytes.symm
  have hcheck := base64ToBase256Len_le (unpadded (encodeText input)).length
  have hle := length_unpadded_le (encodeText input)
  rw [hbase, decode_eq (by omega) hne (by omega) (by rw [hbytes]; omega), hbytes]
  by_cases hthree : input.length % 3 = 0
  · rw [if_neg (by omega)]
    exact iff_of_false nofun fun h => h.1 hthree
  · rw [if_pos (by omega)]
    exact iff_of_true rfl ⟨hthree, by omega⟩

/-- **Base64**: bytes come back exactly if their number is not a multiple of three and the macros do not
overflow, and characters outside of the alphabet are ignored exactly if there is one of the alphabet, and the
text does not end in another one in the middle of a group. -/
theorem base64_iff (input text : List UInt8) (outLen : Int) (hinput : input.length < 2147483648)
    (hroom : (text.length * 3 / 4 : Nat) < outLen) (hint : outLen < 2147483648) :
    (RoundTrips input ↔ input.length % 3 ≠ 0 ∧ input.length < 536870911) ∧
      (Tolerant outLen text ↔ text.length < 2147483648 ∧ text.filter Alphabet ≠ [] ∧
        (4 ∣ (text.filter Alphabet).length ∨ ¬ EndsOutside (unpadded text))) :=
  ⟨restores_iff input hinput, tolerant_iff hroom hint⟩

/-- The byte `M`, and `Q-UJD-` for `QUJD`. -/
theorem base64_sample : RoundTrips [77] ∧ Tolerant 8 [81, 45, 85, 74, 68, 45] := by
  have h := base64_iff [77] [81, 45, 85, 74, 68, 45] 8 (by decide) (by decide) (by decide)
  exact ⟨h.1.mpr (by decide), h.2.mpr (by decide)⟩

/-- The bytes `Man` trip the assertion, and the line end behind `QQ` gives a byte more. -/
theorem base64_mistakes :
    ¬ RoundTrips [77, 97, 110] ∧ decode 3 [84, 87, 70, 117] = .error .assertion ∧
      ¬ Tolerant 8 [81, 81, 10] ∧ decode 8 [81, 81, 10] = .ok [65, 15] ∧
        decode 8 [81, 81] = .ok [65] := by
  have htext : encode (base256ToBase64Len ([77, 97, 110] : List UInt8).length) [77, 97, 110] =
      .ok [84, 87, 70, 117] := by decide +kernel
  have hthree : decode 3 [84, 87, 70, 117] = .error .assertion := by decide +kernel
  have hmore : decode 8 [81, 81, 10] = .ok [65, 15] := by decide +kernel
  have hclean : decode 8 [81, 81] = .ok [65] := by decide +kernel
  refine ⟨?_, hthree, ?_, hmore, hclean⟩
  · rintro ⟨text, h, hback⟩
    rw [htext] at h
    cases h
    have hbase : base64ToBase256Len ([84, 87, 70, 117] : List UInt8).length = 3 := by
      decide +kernel
    rw [hbase, hthree] at hback
    cases hback
  · rintro ⟨out, h, hfiltered⟩
    have hfilter : ([81, 81, 10] : List UInt8).filter Alphabet = [81, 81] := by decide
    rw [hmore] at h
    rw [hfilter, hclean] at hfiltered
    cases h
    cases hfiltered

end Base64
