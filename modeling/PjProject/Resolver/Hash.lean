import Mathlib.Tactic

set_option autoImplicit false

/-! # A hash table of intrusive entries

`pj/hash.c`, as the resolver uses it: an entry lies in a buffer that belongs to some object, and it
points to a key in an object. Objects are numbers, and `keyOf` reads the key of an object as it is
now. A search of the chain that a hash selects finds the first entry with this hash and this key, so
the chains of all rows are kept in one list.

`Owned` says that every entry lies in the object that is its value. While it holds, the table is the
list of these objects (`get_eq_some`), and it holds as long as no entry is overwritten
(`Owned.setNp`).
-/

namespace Hash

universe u

variable {κ : Type u} [DecidableEq κ]

/-- `pj_hash_entry`. -/
structure Entry where
  /-- The object in whose buffer the entry lies. -/
  buf : Nat
  hash : Nat
  /-- The object to whose key it points. -/
  key : Nat
  value : Nat
  deriving DecidableEq

/-- `pj_hash_table_t`. -/
structure Table where
  entries : List Entry
  count : Nat
  deriving DecidableEq

/-- A table without entries. -/
def Table.empty : Table := ⟨[], 0⟩

/-- The objects that are in the table. -/
def Table.values (t : Table) : List Nat := t.entries.map Entry.value

variable (keyOf : Nat → κ) (hashOf : κ → Nat)

/-- The test of `find_entry`. -/
def isEntry (k : κ) (e : Entry) : Bool := decide (e.hash = hashOf k) && decide (keyOf e.key = k)

/-- `pj_hash_get`. -/
def get (t : Table) (k : κ) : Option Nat := (t.entries.find? (isEntry keyOf hashOf k)).map Entry.value

/-- Overwrite the value of the first entry that satisfies `p`. -/
def overwrite (p : Entry → Bool) (value : Nat) : List Entry → List Entry
  | [] => []
  | e :: l => if p e then { e with value := value } :: l else e :: overwrite p value l

/-- `pj_hash_set_np`, with key and buffer of an object. -/
def setNp (t : Table) (obj value : Nat) : Table :=
  if (t.entries.find? (isEntry keyOf hashOf (keyOf obj))).isSome then
    { t with entries := overwrite (isEntry keyOf hashOf (keyOf obj)) value t.entries }
  else
    { entries := t.entries ++ [⟨obj, hashOf (keyOf obj), obj, value⟩]
      count := t.count + 1 }

/-- `pj_hash_set` without a value: the entry is deleted. -/
def remove (t : Table) (k : κ) : Table :=
  if (t.entries.find? (isEntry keyOf hashOf k)).isSome then
    { entries := t.entries.eraseP (isEntry keyOf hashOf k)
      count := t.count - 1 }
  else t

/-- Every entry lies in the object that is its value, with the key and the hash of that, and no two
objects have the same key. -/
structure Owned (t : Table) : Prop where
  own : ∀ e ∈ t.entries, e.buf = e.value ∧ e.key = e.value ∧ e.hash = hashOf (keyOf e.value)
  keys : (t.values.map keyOf).Nodup
  count : t.count = t.entries.length

variable {keyOf hashOf} {t : Table}

omit [DecidableEq κ] in
theorem owned_empty : Owned keyOf hashOf Table.empty :=
  ⟨fun _ he => absurd he List.not_mem_nil, List.nodup_nil, rfl⟩

/-- An entry is found by the key of its object. -/
theorem Owned.isEntry_iff (h : Owned keyOf hashOf t) {e : Entry} (he : e ∈ t.entries) (k : κ) :
    isEntry keyOf hashOf k e = true ↔ keyOf e.value = k := by
  rcases h.own e he with ⟨-, hkey, hhash⟩
  unfold isEntry
  rw [hkey, hhash, Bool.and_eq_true, decide_eq_true_eq, decide_eq_true_eq]
  constructor
  · exact fun hc => hc.2
  · rintro rfl
    exact ⟨rfl, rfl⟩

theorem mem_values {v : Nat} : v ∈ t.values ↔ ∃ e ∈ t.entries, e.value = v := List.mem_map

theorem Owned.get_eq_none (h : Owned keyOf hashOf t) (k : κ) :
    get keyOf hashOf t k = none ↔ ∀ v ∈ t.values, keyOf v ≠ k := by
  unfold get
  rw [Option.map_eq_none_iff, List.find?_eq_none]
  constructor
  · intro hnone v hv
    rcases mem_values.mp hv with ⟨e, he, rfl⟩
    exact fun hk => hnone e he ((h.isEntry_iff he k).mpr hk)
  · intro hnone e he hc
    exact hnone e.value (mem_values.mpr ⟨e, he, rfl⟩) ((h.isEntry_iff he k).mp hc)

theorem Owned.mem_of_get (h : Owned keyOf hashOf t) {k : κ} {v : Nat}
    (hget : get keyOf hashOf t k = some v) : v ∈ t.values ∧ keyOf v = k := by
  rcases Option.map_eq_some_iff.mp hget with ⟨e, hfind, rfl⟩
  have he := List.mem_of_find?_eq_some hfind
  exact ⟨mem_values.mpr ⟨e, he, rfl⟩, (h.isEntry_iff he k).mp (List.find?_some hfind)⟩

omit [DecidableEq κ] in
/-- Objects of the table with the same key are the same. -/
theorem Owned.inj (h : Owned keyOf hashOf t) {v v' : Nat} (hv : v ∈ t.values) (hv' : v' ∈ t.values)
    (hk : keyOf v = keyOf v') : v = v' :=
  List.inj_on_of_nodup_map h.keys hv hv' hk

/-- **The table finds an object by its key.** -/
theorem Owned.get_eq_some (h : Owned keyOf hashOf t) {k : κ} {v : Nat} :
    get keyOf hashOf t k = some v ↔ v ∈ t.values ∧ keyOf v = k := by
  constructor
  · exact h.mem_of_get
  · rintro ⟨hv, hk⟩
    cases hget : get keyOf hashOf t k with
    | none => exact absurd hk ((h.get_eq_none k).mp hget v hv)
    | some v' =>
        have hv' := h.mem_of_get hget
        rw [h.inj hv hv'.1 (hk.trans hv'.2.symm)]

omit [DecidableEq κ] in
theorem Owned.values_nodup (h : Owned keyOf hashOf t) : t.values.Nodup := List.Nodup.of_map _ h.keys

/-- An object whose key is not in the table is put behind the others. -/
theorem setNp_eq (h : Owned keyOf hashOf t) {v : Nat} (hnew : ∀ v' ∈ t.values, keyOf v' ≠ keyOf v) :
    setNp keyOf hashOf t v v =
      ⟨t.entries ++ [⟨v, hashOf (keyOf v), v, v⟩], t.count + 1⟩ := by
  have hget := (h.get_eq_none (keyOf v)).mpr hnew
  unfold get at hget
  rw [Option.map_eq_none_iff] at hget
  unfold setNp
  rw [hget]
  rfl

theorem setNp_values (h : Owned keyOf hashOf t) {v : Nat}
    (hnew : ∀ v' ∈ t.values, keyOf v' ≠ keyOf v) :
    (setNp keyOf hashOf t v v).values = t.values ++ [v] := by
  rw [setNp_eq h hnew]
  unfold Table.values
  simp

/-- **An object with a new key** keeps the table owned. -/
theorem Owned.setNp (h : Owned keyOf hashOf t) {v : Nat}
    (hnew : ∀ v' ∈ t.values, keyOf v' ≠ keyOf v) : Owned keyOf hashOf (setNp keyOf hashOf t v v) := by
  have hvalues := setNp_values h hnew
  constructor
  · rw [setNp_eq h hnew]
    intro e he
    rcases List.mem_append.mp he with he | he
    · exact h.own e he
    · rw [List.mem_singleton.mp he]
      simp
  · rw [hvalues, List.map_append]
    apply List.Nodup.append h.keys
    · simp
    · simp only [List.map_cons, List.map_nil, List.disjoint_singleton, List.mem_map, not_exists,
        not_and]
      exact hnew
  · rw [setNp_eq h hnew]
    simp [h.count]

theorem mem_overwrite {p : Entry → Bool} {l : List Entry} {e : Entry} (hfind : l.find? p = some e)
    (value : Nat) : { e with value := value } ∈ overwrite p value l := by
  induction l with
  | nil => simp at hfind
  | cons x l ih =>
      unfold overwrite
      rw [List.find?_cons] at hfind
      split at hfind
      · rename_i hp
        rw [if_pos hp, Option.some.inj hfind]
        exact List.mem_cons_self
      · rename_i hp
        rw [if_neg (by simp [hp])]
        exact List.mem_cons_of_mem _ (ih hfind)

/-- **An object whose key is in the table** goes into the entry of another one. -/
theorem mem_setNp_of_key (h : Owned keyOf hashOf t) {v w : Nat} (hw : w ∈ t.values)
    (hk : keyOf w = keyOf v) :
    ∃ e ∈ (setNp keyOf hashOf t v v).entries, e.buf ∈ t.values ∧ e.value = v := by
  cases hfind : t.entries.find? (isEntry keyOf hashOf (keyOf v)) with
  | none =>
      have hnone : get keyOf hashOf t (keyOf v) = none := by
        unfold get
        rw [hfind]
        rfl
      exact absurd hk ((h.get_eq_none _).mp hnone w hw)
  | some e =>
      have he := List.mem_of_find?_eq_some hfind
      refine ⟨{ e with value := v }, ?_, ?_, rfl⟩
      · unfold setNp
        rw [hfind]
        exact mem_overwrite hfind v
      · show e.buf ∈ t.values
        rw [(h.own e he).1]
        exact mem_values.mpr ⟨e, he, rfl⟩

/-- The object with the key is taken out, the others stay. -/
theorem mem_remove (h : Owned keyOf hashOf t) (k : κ) (v : Nat) :
    v ∈ (remove keyOf hashOf t k).values ↔ v ∈ t.values ∧ keyOf v ≠ k := by
  cases hget : get keyOf hashOf t k with
  | none =>
      have hnone := (h.get_eq_none k).mp hget
      unfold get at hget
      rw [Option.map_eq_none_iff] at hget
      unfold remove
      rw [hget]
      exact ⟨fun hv => ⟨hv, hnone v hv⟩, fun hv => hv.1⟩
  | some w =>
      have hw := h.mem_of_get hget
      rcases Option.map_eq_some_iff.mp hget with ⟨e, hfind, rfl⟩
      unfold remove
      rw [hfind, Option.isSome_some, if_pos rfl]
      rcases List.find?_eq_some_iff_append.mp hfind with ⟨hp, l, l', hl, hbefore⟩
      have herase : t.entries.eraseP (isEntry keyOf hashOf k) = l ++ l' := by
        rw [hl, List.eraseP_append_right _ (by simpa using hbefore), List.eraseP_cons_of_pos hp]
      have hvalues : t.values = l.map Entry.value ++ e.value :: l'.map Entry.value := by
        unfold Table.values
        rw [hl, List.map_append, List.map_cons]
      have hnodup := h.values_nodup
      rw [hvalues, List.nodup_append] at hnodup
      have hrest : (⟨t.entries.eraseP (isEntry keyOf hashOf k), t.count - 1⟩ : Table).values =
          l.map Entry.value ++ l'.map Entry.value := by
        show (t.entries.eraseP _).map Entry.value = _
        rw [herase, List.map_append]
      rw [hrest, hvalues]
      simp only [List.mem_append, List.mem_cons]
      constructor
      · intro hv
        have hne : v ≠ e.value := by
          rintro rfl
          rcases hv with hv | hv
          · exact hnodup.2.2 _ hv _ List.mem_cons_self rfl
          · exact (List.nodup_cons.mp hnodup.2.1).1 hv
        refine ⟨hv.imp_right Or.inr, fun hk => hne ?_⟩
        refine h.inj ?_ hw.1 (hk.trans hw.2.symm)
        rw [hvalues]
        simp only [List.mem_append, List.mem_cons]
        exact hv.imp_right Or.inr
      · rintro ⟨hv | rfl | hv, hk⟩
        · exact Or.inl hv
        · exact absurd hw.2 hk
        · exact Or.inr hv

/-- **Taking an object out** keeps the table owned. -/
theorem Owned.remove (h : Owned keyOf hashOf t) (k : κ) : Owned keyOf hashOf (remove keyOf hashOf t k) := by
  unfold Hash.remove
  cases hfind : t.entries.find? (isEntry keyOf hashOf k) with
  | none => exact h
  | some e =>
      have he := List.mem_of_find?_eq_some hfind
      have hsub : (t.entries.eraseP (isEntry keyOf hashOf k)).Sublist t.entries := List.eraseP_sublist
      rw [Option.isSome_some, if_pos rfl]
      constructor
      · exact fun e' he' => h.own e' (hsub.subset he')
      · exact h.keys.sublist ((hsub.map Entry.value).map keyOf)
      · show t.count - 1 = _
        rw [List.length_eraseP_of_mem he (List.find?_some hfind), h.count]

omit [DecidableEq κ] in
/-- The table stays owned while the keys of its objects do not change. -/
theorem Owned.congr {keyOf' : Nat → κ} (h : Owned keyOf hashOf t)
    (hkeys : ∀ v ∈ t.values, keyOf' v = keyOf v) : Owned keyOf' hashOf t := by
  constructor
  · intro e he
    rw [hkeys e.value (mem_values.mpr ⟨e, he, rfl⟩)]
    exact h.own e he
  · rw [List.map_congr_left hkeys]
    exact h.keys
  · exact h.count

end Hash
