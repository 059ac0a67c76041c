import PjProject.Library.Chained

set_option autoImplicit false

/-! # The hash table of `pj/hash.c`

A table has `rows + 1` chains of entries, and `rows + 1` is a power of two, so that `hash & rows`
selects a chain. A key is given by what can be read behind a pointer and by a length, where
`PJ_HASH_KEY_STRING` stands for the length of a string that ends with NUL. `findEntry` returns the
link at which its search stops, as the number of links in front of it in the chain; the entry behind
this link is the one that was found, or the new one, and `hashSet` overwrites or deletes it.

`NULL` values are `none`. An entry holds the `keylen` bytes of its key that are compared, whether
they are a copy in a pool or the caller's.
-/

namespace HashTable

universe u

variable {α : Type u}

/-- `pj_hash_entry`; its `next` is the rest of the chain. -/
structure Entry (α : Type u) where
  key : List UInt8
  hash : UInt32
  keylen : UInt32
  value : α
  deriving DecidableEq

/-- `pj_hash_table_t`. -/
structure Table (α : Type u) where
  table : List (List (Entry α))
  count : UInt32
  rows : Nat
  deriving DecidableEq

/-- The chain of a row. -/
def Table.chain (ht : Table α) (i : Nat) : List (Entry α) := ht.table.getD i []

/-- The table with another chain in a row. -/
def Table.setChain (ht : Table α) (i : Nat) (l : List (Entry α)) : Table α :=
  { ht with table := ht.table.set i l }

/-! ## Creation -/

/-- The loop of `pj_hash_create` that doubles `table_size`, with a number of turns it may take. The
product is an `unsigned`. -/
def roundUp (size : UInt32) : Nat → UInt32 → Option UInt32
  | 0, _ => none
  | turns + 1, table_size =>
      let table_size := table_size <<< 1
      if table_size < size then roundUp size turns table_size else some table_size

/-- `pj_hash_create`, with a number of turns its loop may take. -/
def create (turns : Nat) (size : UInt32) : Option (Table α) :=
  (roundUp size turns 8).map fun table_size =>
    let rows := table_size - 1
    { table := List.replicate (rows.toNat + 1) [], count := 0, rows := rows.toNat }

/-! ## Keys -/

/-- `PJ_HASH_KEY_STRING`. -/
def keyString : UInt32 := 4294967295

/-- A key argument: what can be read behind the pointer, and `keylen`. -/
structure KeyArg where
  key : List UInt8
  keylen : UInt32
  deriving DecidableEq

/-- The bytes of the key. -/
def KeyArg.bytes (arg : KeyArg) : List UInt8 :=
  if arg.keylen = keyString then arg.key.takeWhile (fun c => decide (c ≠ 0))
  else arg.key.take arg.keylen.toNat

/-- The length of the key, after the conversion to `unsigned`. -/
def KeyArg.len (arg : KeyArg) : UInt32 :=
  if arg.keylen = keyString then UInt32.ofNat arg.bytes.length else arg.keylen

/-- All bytes of the key can be read, and their number is an `unsigned`. -/
def KeyArg.Valid (arg : KeyArg) : Prop :=
  if arg.keylen = keyString then 0 ∈ arg.key ∧ arg.bytes.length < 4294967296
  else arg.keylen.toNat ≤ arg.key.length

instance (arg : KeyArg) : Decidable arg.Valid := by
  unfold KeyArg.Valid
  exact inferInstance

/-- `pj_tolower`, in the C locale. -/
def tolower (c : UInt8) : UInt8 := if 65 ≤ c ∧ c ≤ 90 then c + 32 else c

/-- The hash of `find_entry`, with `PJ_HASH_MULTIPLIER` 33. -/
def calcHash (lower : Bool) (bytes : List UInt8) : UInt32 :=
  bytes.foldl (fun hash c => hash * 33 + (if lower then tolower c else c).toUInt32) 0

/-- `strncasecmp(a, b, n) == 0`. -/
def strnicmpEq : List UInt8 → List UInt8 → Nat → Bool
  | _, _, 0 => true
  | a, b, n + 1 =>
      let ca := tolower (a.headD 0)
      let cb := tolower (b.headD 0)
      if ca ≠ cb then false
      else if ca = 0 then true
      else strnicmpEq a.tail b.tail n

/-! ## Searching -/

/-- The test of `find_entry`. -/
def isEntry (lower : Bool) (arg : KeyArg) (hash : UInt32) (entry : Entry α) : Bool :=
  decide (entry.hash = hash) && decide (entry.keylen = arg.len) &&
    (lower && strnicmpEq entry.key arg.bytes arg.len.toNat ||
      !lower && decide (entry.key.take arg.len.toNat = arg.bytes.take arg.len.toNat))

/-- What `find_entry` returns: the table, the row and the number of links of its chain in front of
the one returned, and the hash it reports. -/
structure Found (α : Type u) where
  ht : Table α
  row : Nat
  link : Nat
  hash : UInt32

/-- The entry behind the link. -/
def Found.entry (f : Found α) : Option (Entry α) := (f.ht.chain f.row)[f.link]?

/-- The hash that `find_entry` searches for. -/
def searchHash (arg : KeyArg) (hval : Option UInt32) (lower : Bool) : UInt32 :=
  match hval with
  | none => calcHash lower arg.bytes
  | some hval => if hval ≠ 0 then hval else calcHash lower arg.bytes

/-- `find_entry`. -/
def findEntry (ht : Table α) (arg : KeyArg) (val : Option α) (hval : Option UInt32) (lower : Bool) :
    Found α :=
  let hash := searchHash arg hval lower
  let row := hash.toNat &&& ht.rows
  let chain := ht.chain row
  let link := chain.findIdx (isEntry lower arg hash)
  match val with
  | none => ⟨ht, row, link, hash⟩
  | some v =>
      if link < chain.length then ⟨ht, row, link, hash⟩
      else
        -- not found: a new entry is linked in at the end
        let entry := ⟨arg.bytes.take arg.len.toNat, hash, arg.len, v⟩
        ⟨{ ht.setChain row (chain ++ [entry]) with count := ht.count + 1 }, row, link, hash⟩

/-- `pj_hash_get` and `pj_hash_get_lower`: the value, and what `*hval` is afterwards. -/
def getEntry (ht : Table α) (arg : KeyArg) (hval : Option UInt32) (lower : Bool) :
    Option α × Option UInt32 :=
  let f := findEntry ht arg none hval lower
  (f.entry.map Entry.value, hval.map fun _ => f.hash)

/-- `pj_hash_get`. -/
def get (ht : Table α) (arg : KeyArg) (hval : Option UInt32) : Option α × Option UInt32 :=
  getEntry ht arg hval false

/-- `pj_hash_get_lower`. -/
def getLower (ht : Table α) (arg : KeyArg) (hval : Option UInt32) : Option α × Option UInt32 :=
  getEntry ht arg hval true

/-! ## Setting -/

/-- `hash_set`. -/
def hashSet (ht : Table α) (arg : KeyArg) (hval : UInt32) (value : Option α) (lower : Bool) : Table α :=
  let f := findEntry ht arg value (some hval) lower
  let chain := f.ht.chain f.row
  if f.link < chain.length then
    match value with
    | none => { f.ht.setChain f.row (chain.eraseIdx f.link) with count := f.ht.count - 1 }
    | some v => f.ht.setChain f.row (chain.modify f.link fun entry => { entry with value := v })
  else f.ht

/-- `pj_hash_set`: a new entry and a copy of its key are in a pool. -/
def set (ht : Table α) (arg : KeyArg) (hval : UInt32) (value : Option α) : Table α :=
  hashSet ht arg hval value false

/-- `pj_hash_set_lower`. -/
def setLower (ht : Table α) (arg : KeyArg) (hval : UInt32) (value : Option α) : Table α :=
  hashSet ht arg hval value true

/-- `pj_hash_set_np`: a new entry is in the caller's buffer and points to the caller's key. -/
def setNp (ht : Table α) (arg : KeyArg) (hval : UInt32) (value : Option α) : Table α :=
  hashSet ht arg hval value false

/-- `pj_hash_set_np_lower`. -/
def setNpLower (ht : Table α) (arg : KeyArg) (hval : UInt32) (value : Option α) : Table α :=
  hashSet ht arg hval value true

/-! ## Enumeration -/

/-- `pj_hash_iterator_t`: a row, and the part of its chain that begins with `entry`. -/
structure Iterator (α : Type u) where
  index : Nat
  entry : List (Entry α)

/-- The loop of `pj_hash_first` and `pj_hash_next`: the next row with an entry, with the number of
rows that are left. -/
def nextRow (ht : Table α) : Nat → Nat → Option (Iterator α)
  | 0, _ => none
  | left + 1, index =>
      match ht.chain index with
      | [] => nextRow ht left (index + 1)
      | e :: l => some ⟨index, e :: l⟩

/-- `pj_hash_first`. -/
def first (ht : Table α) : Option (Iterator α) := nextRow ht (ht.rows + 1) 0

/-- `pj_hash_next`. -/
def next (ht : Table α) (it : Iterator α) : Option (Iterator α) :=
  match it.entry.tail with
  | e :: l => some ⟨it.index, e :: l⟩
  | [] => nextRow ht (ht.rows - it.index) (it.index + 1)

/-- The entries at which an iterator stands until there is none left, with a number of calls of
`pj_hash_next` that may be made. -/
def enumerate (ht : Table α) : Nat → Option (Iterator α) → Option (List (Entry α))
  | _, none => some []
  | 0, some _ => none
  | calls + 1, some it => (enumerate ht calls (next ht it)).map (it.entry.take 1 ++ ·)

end HashTable

/-! ## Which entry a search finds

Keys of a table without case are compared after both are in lower case, so the canonical form
`canon` of a key is the key itself or the key in lower case. The hash of a key depends on its
canonical form only (`calcHash_eq`). Against a well-formed entry, the test of `find_entry` says
whether the canonical forms are equal (`isEntry_iff`).
-/

namespace HashTable

universe u

variable {α : Type u} {lower : Bool}

/-- What two keys are compared by. -/
def canon (lower : Bool) (bytes : List UInt8) : List UInt8 :=
  if lower then bytes.map tolower else bytes

/-- The hash of a canonical key. -/
def rawHash (bytes : List UInt8) : UInt32 := bytes.foldl (fun hash c => hash * 33 + c.toUInt32) 0

theorem calcHash_eq (bytes : List UInt8) : calcHash lower bytes = rawHash (canon lower bytes) := by
  unfold calcHash rawHash canon
  cases lower with
  | false => simp
  | true => simp [List.foldl_map]

@[simp] theorem canon_length (bytes : List UInt8) : (canon lower bytes).length = bytes.length := by
  unfold canon
  split
  · simp
  · rfl

theorem tolower_eq_zero (c : UInt8) : tolower c = 0 ↔ c = 0 := by
  unfold tolower
  split
  next hup =>
    simp only [UInt8.le_iff_toNat_le, UInt8.toNat_ofNat] at hup
    simp only [← UInt8.toNat_inj, UInt8.toNat_add, UInt8.toNat_ofNat]
    omega
  next => exact Iff.rfl

/-! ## Comparing keys -/

/-- On keys of the same length without NUL, `strncasecmp` compares all bytes. -/
theorem strnicmpEq_iff {a b : List UInt8} (ha : (0 : UInt8) ∉ a) (hlen : a.length = b.length) :
    strnicmpEq a b a.length = decide (a.map tolower = b.map tolower) := by
  induction a generalizing b with
  | nil =>
      have hb : b = [] := List.length_eq_zero_iff.mp hlen.symm
      simp [strnicmpEq, hb]
  | cons ca a ih =>
      cases b with
      | nil => simp at hlen
      | cons cb b =>
          have hca : tolower ca ≠ 0 := by
            intro hz
            apply ha
            simp [(tolower_eq_zero ca).mp hz]
          have hrest := ih (fun hc => ha (List.mem_cons_of_mem ca hc)) (by simpa using hlen)
          simp only [List.length_cons, strnicmpEq, List.headD_cons, List.tail_cons, List.map_cons,
            List.cons.injEq]
          by_cases hc : tolower ca = tolower cb
          · have hcb : tolower cb ≠ 0 := hc ▸ hca
            simp [hc, hcb, hrest]
          · simp [hc]

/-- A key argument as the table takes it: valid, without a NUL byte if case is ignored, and with a
hash that is the one the table computes, or none. -/
structure Allowed (lower : Bool) (arg : KeyArg) (hval : Option UInt32) : Prop where
  valid : arg.Valid
  noNul : lower = true → (0 : UInt8) ∉ arg.bytes
  hash : ∀ h, hval = some h → h = 0 ∨ h = calcHash lower arg.bytes

/-- An entry with the hash and the length of its key. -/
structure Entry.Wf (lower : Bool) (e : Entry α) : Prop where
  hash : e.hash = rawHash (canon lower e.key)
  len : e.keylen.toNat = e.key.length
  noNul : lower = true → (0 : UInt8) ∉ e.key

variable {arg : KeyArg} {hval : Option UInt32}

/-- The length of a valid key is that of its bytes. -/
theorem KeyArg.Valid.len_eq (h : arg.Valid) : arg.len.toNat = arg.bytes.length := by
  unfold KeyArg.Valid at h
  unfold KeyArg.len
  by_cases hs : arg.keylen = keyString
  · rw [if_pos hs] at h ⊢
    exact UInt32.toNat_ofNat_of_lt' h.2
  · rw [if_neg hs] at h ⊢
    unfold KeyArg.bytes
    rw [if_neg hs, List.length_take]
    omega

theorem Allowed.searchHash_eq (h : Allowed lower arg hval) :
    searchHash arg hval lower = rawHash (canon lower arg.bytes) := by
  rw [← calcHash_eq]
  unfold searchHash
  cases hval with
  | none => rfl
  | some hv =>
      rcases h.hash hv rfl with rfl | rfl
      · simp
      · simp

/-- **A search finds the entries of its key.** -/
theorem Allowed.isEntry_iff (h : Allowed lower arg hval) {e : Entry α} (he : e.Wf lower) :
    isEntry lower arg (rawHash (canon lower arg.bytes)) e =
      decide (canon lower e.key = canon lower arg.bytes) := by
  have hlen := h.valid.len_eq
  have hiff : e.keylen = arg.len ↔ e.key.length = arg.bytes.length := by
    rw [← UInt32.toNat_inj, he.len, hlen]
  unfold isEntry
  by_cases hk : e.key.length = arg.bytes.length
  · have hcmp : (lower && strnicmpEq e.key arg.bytes arg.len.toNat ||
        !lower && decide (e.key.take arg.len.toNat = arg.bytes.take arg.len.toNat)) =
          decide (canon lower e.key = canon lower arg.bytes) := by
      rw [hlen]
      cases lower with
      | false => simp [canon, hk, List.take_of_length_le]
      | true => simp [canon, ← hk, strnicmpEq_iff (he.noNul rfl) hk]
    rw [hcmp, he.hash, decide_eq_true (hiff.mpr hk)]
    by_cases heq : canon lower e.key = canon lower arg.bytes
    · simp [heq]
    · simp [heq]
  · have hne : canon lower e.key ≠ canon lower arg.bytes := by
      intro heq
      apply hk
      rw [← canon_length e.key, heq, canon_length]
    have hlen' : e.keylen ≠ arg.len := fun hc => hk (hiff.mp hc)
    simp [hlen', hne]

/-- The entry that `find_entry` makes for a key. -/
theorem Allowed.wf_new (h : Allowed lower arg hval) (v : α) :
    Entry.Wf lower ⟨arg.bytes.take arg.len.toNat, rawHash (canon lower arg.bytes), arg.len, v⟩ := by
  have htake : arg.bytes.take arg.len.toNat = arg.bytes := by
    rw [h.valid.len_eq, List.take_length]
  constructor
  · simp [htake]
  · simp [h.valid.len_eq]
  · simpa [htake] using h.noNul

end HashTable
