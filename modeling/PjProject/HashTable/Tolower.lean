import PjProject.HashTable.Table

set_option autoImplicit false

/-! # Two hashes of a key in lower case

`pj_hash_calc_tolower` of `pj/hash.c` and the loop of `find_entry` for keys without case. The first one puts
each byte in lower case into a `char`, which is signed, and adds this to the hash; the second one adds it as
an unsigned number. With `PJ_HASH_USE_OWN_TOLOWER` the first one moreover sets bit 32 of every byte that has
bit 64, of which the letters are only some. So a byte from 128 on, and then also one of the characters
`@ [ \ ] ^ _`, counts for another number in the one loop than in the other (`drift`).

An entry that is stored under the first hash is found under the second one exactly if these differences,
each with the weight of its place, come to a multiple of 2^32.
-/

namespace HashTable

universe u

variable {α : Type u}

/-! ## The first hash -/

/-- What `lower` is set to, as the byte that it is: `own` is `PJ_HASH_USE_OWN_TOLOWER`. -/
def lowerByte (own : Bool) (c : UInt8) : UInt8 :=
  if own then
    if c &&& 64 ≠ 0 then c ||| 32 else c
  else tolower c

/-- A `char` that is added to a `pj_uint32_t`. -/
def ofChar (c : UInt8) : UInt32 := if c < 128 then c.toUInt32 else c.toUInt32 - 256

/-- `pj_hash_calc_tolower`: the hash, and what `result` is set to unless it is `NULL`. -/
def calcTolower (own : Bool) (hval : UInt32) (key : List UInt8) : UInt32 × List UInt8 :=
  (key.foldl (fun hval c => hval * 33 + ofChar (lowerByte own c)) hval, key.map (lowerByte own))

/-! ## Sums with weights -/

/-- The number that the hash adds for the byte in the first loop. -/
def charOf (own : Bool) (c : UInt8) : Int :=
  if lowerByte own c < 128 then (lowerByte own c).toNat else (lowerByte own c).toNat - 256

/-- The sum of the numbers, each with the weight of its place. -/
def weighted (g : UInt8 → Int) : List UInt8 → Int
  | [] => 0
  | c :: key => g c * 33 ^ key.length + weighted g key

theorem weighted_sub (g g' : UInt8 → Int) (key : List UInt8) :
    weighted g key - weighted g' key = weighted (fun c => g c - g' c) key := by
  induction key with
  | nil => rfl
  | cons c key ih =>
      simp only [weighted]
      rw [← ih]
      ring

theorem weighted_congr {g g' : UInt8 → Int} {key : List UInt8} (h : ∀ c ∈ key, g c = g' c) :
    weighted g key = weighted g' key := by
  induction key with
  | nil => rfl
  | cons c key ih =>
      rw [weighted, weighted, h c List.mem_cons_self, ih fun b hb => h b (List.mem_cons_of_mem c hb)]

/-- A hash is this sum, modulo 2^32. -/
theorem hash_modEq {f : UInt8 → UInt32} {g : UInt8 → Int}
    (hfg : ∀ c, ((f c).toNat : Int) ≡ g c [ZMOD 4294967296]) (key : List UInt8) (hval : UInt32) :
    ((key.foldl (fun hval c => hval * 33 + f c) hval).toNat : Int) ≡
      hval.toNat * 33 ^ key.length + weighted g key [ZMOD 4294967296] := by
  induction key generalizing hval with
  | nil => simp [weighted, Int.ModEq.refl]
  | cons c key ih =>
      have hstep : ((hval * 33 + f c).toNat : Int) ≡ hval.toNat * 33 + g c [ZMOD 4294967296] := by
        rw [UInt32.toNat_add, UInt32.toNat_mul]
        push_cast
        refine (Int.mod_modEq _ _).trans (Int.ModEq.add (Int.mod_modEq _ _) (hfg c))
      calc ((key.foldl (fun hval c => hval * 33 + f c) (hval * 33 + f c)).toNat : Int)
          ≡ (hval * 33 + f c).toNat * 33 ^ key.length + weighted g key [ZMOD 4294967296] := ih _
        _ ≡ (hval.toNat * 33 + g c) * 33 ^ key.length + weighted g key [ZMOD 4294967296] :=
            (hstep.mul_right _).add_right _
        _ = hval.toNat * 33 ^ (c :: key).length + weighted g (c :: key) := by
            rw [weighted, List.length_cons, pow_succ]
            ring

/-! ## Where they differ -/

/-- By how much the byte counts for more in the first loop. -/
def deviation (own : Bool) (c : UInt8) : Int :=
  if own then
    if c = 64 ∨ 91 ≤ c ∧ c ≤ 95 then 32
    else if c < 128 then 0
    else if 192 ≤ c ∧ c < 224 then -224
    else -256
  else if c < 128 then 0
  else -256

/-- The differences of a key, with the weights of their places. -/
def drift (own : Bool) (key : List UInt8) : Int := weighted (deviation own) key

/-- To show something of all bytes, show it of the 256 numbers. -/
theorem forall_byte {P : UInt8 → Prop} (h : ∀ n : Fin 256, P (UInt8.ofNat n)) (c : UInt8) : P c := by
  have hc := h ⟨c.toNat, c.toNat_lt⟩
  rwa [UInt8.ofNat_toNat] at hc

theorem deviation_eq (own : Bool) (c : UInt8) :
    charOf own c - (tolower c).toNat = deviation own c := by
  cases own with
  | false => exact @forall_byte (fun c => charOf false c - (tolower c).toNat = deviation false c) (by decide +kernel) c
  | true => exact @forall_byte (fun c => charOf true c - (tolower c).toNat = deviation true c) (by decide +kernel) c

theorem ofChar_modEq (own : Bool) (c : UInt8) :
    ((ofChar (lowerByte own c)).toNat : Int) ≡ charOf own c [ZMOD 4294967296] := by
  have hbyte : ∀ b : UInt8, ((ofChar b).toNat : Int) ≡
      (if b < 128 then b.toNat else b.toNat - 256 : Int) [ZMOD 4294967296] :=
    forall_byte (by decide +kernel)
  exact hbyte (lowerByte own c)

/-- **The two hashes agree** exactly if the differences come to a multiple of 2^32. -/
theorem calcTolower_eq_iff (own : Bool) (key : List UInt8) :
    (calcTolower own 0 key).1 = calcHash true key ↔ (4294967296 : Int) ∣ drift own key := by
  have hfirst : ((calcTolower own 0 key).1.toNat : Int) ≡ weighted (charOf own) key [ZMOD 4294967296] := by
    have h := hash_modEq (ofChar_modEq own) key 0
    rw [UInt32.toNat_zero, Nat.cast_zero, zero_mul, zero_add] at h
    exact h
  have hsecond : ((calcHash true key).toNat : Int) ≡
      weighted (fun c => (tolower c).toNat) key [ZMOD 4294967296] := by
    have hbyte : ∀ c, (((if true then tolower c else c).toUInt32).toNat : Int) ≡
        (tolower c).toNat [ZMOD 4294967296] := by
      intro c
      simp [Int.ModEq.refl]
    have h := hash_modEq hbyte key 0
    rw [UInt32.toNat_zero, Nat.cast_zero, zero_mul, zero_add] at h
    exact h
  have hdrift : drift own key = weighted (charOf own) key - weighted (fun c => ((tolower c).toNat : Int)) key := by
    rw [weighted_sub]
    exact weighted_congr fun c _ => (deviation_eq own c).symm
  have hlt := (calcTolower own 0 key).1.toNat_lt
  have hlt' := (calcHash true key).toNat_lt
  calc (calcTolower own 0 key).1 = calcHash true key
      ↔ ((calcTolower own 0 key).1.toNat : Int) ≡ (calcHash true key).toNat [ZMOD 4294967296] := by
        rw [← UInt32.toNat_inj, Int.ModEq]
        omega
    _ ↔ weighted (charOf own) key ≡ weighted (fun c => ((tolower c).toNat : Int)) key [ZMOD 4294967296] :=
        ⟨fun h => (hfirst.symm.trans h).trans hsecond, fun h => (hfirst.trans h).trans hsecond.symm⟩
    _ ↔ (4294967296 : Int) ∣ drift own key := by
        rw [hdrift, Int.modEq_comm, Int.modEq_iff_dvd]

/-! ## Storing and finding -/

/-- A key with its length. -/
def ofBytes (key : List UInt8) : KeyArg := ⟨key, UInt32.ofNat key.length⟩

/-- The keys are the same but for the case of letters. -/
def SameLetters (key key' : List UInt8) : Prop := key.map tolower = key'.map tolower

theorem bytes_ofBytes {key : List UInt8} (h : key.length < 4294967295) : (ofBytes key).bytes = key := by
  have hlen : (UInt32.ofNat key.length).toNat = key.length := UInt32.toNat_ofNat_of_lt' (by
    show key.length < 4294967296
    omega)
  unfold KeyArg.bytes ofBytes
  have hne : UInt32.ofNat key.length ≠ keyString := by
    intro heq
    have hnat := congrArg UInt32.toNat heq
    rw [hlen] at hnat
    have hstring : keyString.toNat = 4294967295 := rfl
    omega
  dsimp only
  rw [if_neg hne, hlen, List.take_length]

theorem len_ofBytes {key : List UInt8} (h : key.length < 4294967295) :
    (ofBytes key).len = UInt32.ofNat key.length := by
  have hbytes := bytes_ofBytes h
  unfold KeyArg.len
  rw [hbytes]
  split <;> rfl

/-- Comparing without case sees the letters only. -/
theorem strnicmpEq_congr {b b' : List UInt8} (h : SameLetters b b') :
    ∀ (n : Nat) (a : List UInt8), strnicmpEq a b n = strnicmpEq a b' n := by
  intro n
  induction n generalizing b b' with
  | zero => exact fun _ => rfl
  | succ n ih =>
      intro a
      cases b with
      | nil =>
          cases b' with
          | nil => rfl
          | cons c' b' => simp [SameLetters] at h
      | cons c b =>
          cases b' with
          | nil => simp [SameLetters] at h
          | cons c' b' =>
              simp only [SameLetters, List.map_cons, List.cons.injEq] at h
              have hhead : tolower ((c :: b).headD 0) = tolower ((c' :: b').headD 0) := h.1
              have htail : strnicmpEq a.tail (c :: b).tail n = strnicmpEq a.tail (c' :: b').tail n :=
                ih h.2 a.tail
              rw [strnicmpEq, strnicmpEq, hhead, htail]

theorem strnicmpEq_self : ∀ (n : Nat) (a : List UInt8), strnicmpEq a a n = true := by
  intro n
  induction n with
  | zero => exact fun _ => rfl
  | succ n ih =>
      intro a
      simp [strnicmpEq, ih]

theorem chain_setChain {ht : Table α} {i : Nat} (hi : i < ht.table.length) (l : List (Entry α)) :
    (ht.setChain i l).chain i = l := by
  simp [Table.chain, Table.setChain, hi]

/-- Another value of an entry is not seen by the test. -/
theorem findIdx_modify (arg : KeyArg) (hash : UInt32) (v : α) (l : List (Entry α)) (i : Nat) :
    (l.modify i fun e => { e with value := v }).findIdx (isEntry true arg hash) =
      l.findIdx (isEntry true arg hash) := by
  induction l generalizing i with
  | nil => simp
  | cons e l ih =>
      cases i with
      | zero => simp [List.findIdx_cons, isEntry]
      | succ i => simp [List.findIdx_cons, ih]

variable {ht : Table α} {key : List UInt8}

/-- What `hash_set` leaves in the row of the hash: at the place where it stopped, the value. -/
theorem hashSet_chain (hrows : ht.table.length = ht.rows + 1) (hlen : key.length < 4294967295)
    {hval hash : UInt32} (hhash : searchHash (ofBytes key) (some hval) true = hash) (v : α) :
    (hashSet ht (ofBytes key) hval (some v) true).rows = ht.rows ∧
      ∃ l, (hashSet ht (ofBytes key) hval (some v) true).chain (hash.toNat &&& ht.rows) = l ∧
        (l[l.findIdx (isEntry true (ofBytes key) hash)]?).map Entry.value = some v := by
  obtain ⟨row, hrow⟩ : ∃ row, row = hash.toNat &&& ht.rows := ⟨_, rfl⟩
  have hlt : row < ht.table.length := by
    rw [hrows, hrow]
    exact Nat.lt_succ_of_le Nat.and_le_right
  obtain ⟨l, hl⟩ : ∃ l, ht.chain row = l := ⟨_, rfl⟩
  unfold hashSet findEntry
  simp only [hhash, ← hrow, hl]
  by_cases hfound : l.findIdx (isEntry true (ofBytes key) hash) < l.length
  · simp only [if_pos hfound, hl]
    refine ⟨rfl, _, chain_setChain hlt _, ?_⟩
    rw [findIdx_modify, List.getElem?_modify_eq, List.getElem?_eq_getElem hfound]
    rfl
  · -- the new entry stands at the end
    have hend : l.findIdx (isEntry true (ofBytes key) hash) = l.length :=
      le_antisymm List.findIdx_le_length (not_lt.mp hfound)
    obtain ⟨entry, hentry⟩ : ∃ entry : Entry α, entry =
        ⟨(ofBytes key).bytes.take (ofBytes key).len.toNat, hash, (ofBytes key).len, v⟩ := ⟨_, rfl⟩
    have htrue : isEntry true (ofBytes key) hash entry = true := by
      have htake : (ofBytes key).bytes.take (ofBytes key).len.toNat = (ofBytes key).bytes := by
        rw [len_ofBytes hlen, bytes_ofBytes hlen, UInt32.toNat_ofNat_of_lt' (by
          show key.length < 4294967296
          omega), List.take_length]
      simp [hentry, isEntry, htake, strnicmpEq_self]
    have hplace : (l ++ [entry]).findIdx (isEntry true (ofBytes key) hash) = l.length := by
      rw [List.findIdx_append, if_neg hfound]
      simp [List.findIdx_cons, htrue]
    have hnew : ({ ht.setChain row (l ++ [entry]) with count := ht.count + 1 } : Table α).chain row =
        l ++ [entry] := chain_setChain hlt _
    simp only [hend, lt_irrefl, if_false, ← hentry, hnew]
    rw [if_pos (by simp)]
    refine ⟨rfl, _, chain_setChain (by simpa [Table.setChain] using hlt) _, ?_⟩
    rw [findIdx_modify, hplace, List.getElem?_modify_eq]
    simp

/-- **An entry that is stored under its hash is found** under every key with the same letters. -/
theorem getLower_setNpLower (hrows : ht.table.length = ht.rows + 1) (hlen : key.length < 4294967295)
    {key' : List UInt8} (hsame : SameLetters key key') {hval : UInt32} (hhash : hval = calcHash true key)
    (v : α) :
    (getLower (setNpLower ht (ofBytes key) hval (some v)) (ofBytes key') (some 0)).1 = some v := by
  have hlength : key.length = key'.length := by
    have h := congrArg List.length hsame
    simpa using h
  have hlen' : key'.length < 4294967295 := by omega
  have hcalc : calcHash true key' = calcHash true key := by
    rw [calcHash_eq, calcHash_eq]
    exact congrArg rawHash hsame.symm
  have hstore : searchHash (ofBytes key) (some hval) true = calcHash true key := by
    rw [searchHash, bytes_ofBytes hlen, hhash]
    split <;> rfl
  have hfind : searchHash (ofBytes key') (some 0) true = calcHash true key := by
    rw [searchHash, bytes_ofBytes hlen', if_neg (not_not.mpr rfl), hcalc]
  -- the two keys pass the same entries
  have htest : (isEntry true (ofBytes key') (calcHash true key) : Entry α → Bool) =
      isEntry true (ofBytes key) (calcHash true key) := by
    funext e
    unfold isEntry
    rw [len_ofBytes hlen, len_ofBytes hlen', bytes_ofBytes hlen, bytes_ofBytes hlen', hlength,
      strnicmpEq_congr hsame]
    simp
  rcases hashSet_chain hrows hlen hstore v with ⟨hrows', l, hl, hvalue⟩
  unfold getLower getEntry findEntry Found.entry setNpLower
  simp only [hfind, hrows', hl, htest]
  exact hvalue

/-- The two loops give one hash for keys with the same letters, and what is stored under the first is found
under the second. -/
structure LowerFound (α : Type u) (own : Bool) (key : List UInt8) : Prop where
  hash : ∀ key', SameLetters key key' → (calcTolower own 0 key).1 = calcHash true key'
  found : ∀ (ht : Table α) (key' : List UInt8) (v : α), ht.table.length = ht.rows + 1 →
    SameLetters key key' →
      (getLower (setNpLower ht (ofBytes key) (calcTolower own 0 key).1 (some v)) (ofBytes key')
        (some 0)).1 = some v

/-- **Hashes without case agree** exactly if the differences of the bytes come to a multiple of 2^32. -/
theorem lowerFound_iff (α : Type u) (own : Bool) (key : List UInt8) (hlen : key.length < 4294967295) :
    LowerFound α own key ↔ (4294967296 : Int) ∣ drift own key := by
  rw [← calcTolower_eq_iff]
  constructor
  · exact fun h => h.hash key rfl
  · intro h
    refine ⟨fun key' hsame => ?_, fun ht key' v hrows hsame => ?_⟩
    · rw [h, calcHash_eq, calcHash_eq]
      exact congrArg rawHash hsame
    · exact getLower_setNpLower hrows hlen hsame h v

/-- The tag `a-Z_9`, without `PJ_HASH_USE_OWN_TOLOWER`. -/
theorem lowerFound_tag : LowerFound Nat false [97, 45, 90, 95, 57] :=
  (lowerFound_iff Nat false [97, 45, 90, 95, 57] (by decide)).mpr (by decide)

/-- The byte 228 is not found again, under either setting. -/
theorem not_lowerFound_highByte :
    ¬ LowerFound Nat false [228] ∧ ¬ LowerFound Nat true [228] ∧ ¬ LowerFound Nat true [95] ∧
      (getLower (setNpLower ⟨List.replicate 16 [], 0, 15⟩ (ofBytes [228]) (calcTolower false 0 [228]).1
        (some 7)) (ofBytes [228]) (some 0)).1 = none := by
  refine ⟨fun h => ?_, fun h => ?_, fun h => ?_, by decide⟩
  · exact absurd (h.hash [228] rfl) (by decide)
  · exact absurd (h.hash [228] rfl) (by decide)
  · exact absurd (h.hash [95] rfl) (by decide)

/-! ## Which keys these are -/

theorem weighted_append (g : UInt8 → Int) (key rest : List UInt8) :
    weighted g (key ++ rest) = weighted g key * 33 ^ rest.length + weighted g rest := by
  induction key with
  | nil => simp [weighted]
  | cons c key ih =>
      rw [List.cons_append, weighted, ih, weighted, List.length_append, pow_add]
      ring

/-- **Keys of ordinary characters are found**: none of their bytes is counted differently. -/
theorem drift_of_agree {own : Bool} {key : List UInt8} (h : ∀ c ∈ key, deviation own c = 0) :
    drift own key = 0 := by
  induction key with
  | nil => rfl
  | cons c key ih =>
      have hrest := ih fun b hb => h b (List.mem_cons_of_mem c hb)
      rw [drift] at hrest ⊢
      rw [weighted, h c List.mem_cons_self, hrest, zero_mul, zero_add]

/-- **Keys with one other byte are not**: its weight is odd. -/
theorem not_dvd_drift_of_one {own : Bool} {key rest : List UInt8} {c : UInt8}
    (hkey : ∀ b ∈ key, deviation own b = 0) (hrest : ∀ b ∈ rest, deviation own b = 0)
    (hc : deviation own c ≠ 0) : ¬ (4294967296 : Int) ∣ drift own (key ++ c :: rest) := by
  have hsum : drift own (key ++ c :: rest) = deviation own c * 33 ^ rest.length := by
    have hfirst : weighted (deviation own) key = 0 := drift_of_agree hkey
    have hlast : weighted (deviation own) rest = 0 := drift_of_agree hrest
    rw [drift, weighted_append, weighted, hfirst, hlast]
    ring
  have hcoprime : IsCoprime (4294967296 : Int) (33 ^ rest.length) := by
    refine IsCoprime.pow_right ?_
    rw [Int.isCoprime_iff_gcd_eq_one]
    decide
  rw [hsum]
  intro hdvd
  have hsmall : (4294967296 : Int) ∣ deviation own c := hcoprime.dvd_of_dvd_mul_right hdvd
  have hbound : deviation own c = 32 ∨ deviation own c = -224 ∨ deviation own c = -256 := by
    unfold deviation at hc ⊢
    split_ifs at hc ⊢ <;> simp_all
  omega

end HashTable
