import Mathlib.Tactic

set_option autoImplicit false

/-! # Finite maps in chains of entries

A chain is a list of entries, each with a key and a value; `key` and `value` read them. It
represents the map `m` if its keys are distinct and its entries are what `m` maps
(`Represents`). What is done at a link of a chain (an entry appended at its end, the entry behind
the link taken out or given another value) is an update of the map at one key.

A table of chains, with a number of its row for every key, represents `m` if every row represents
what `m` maps among the keys of this row (`Chained`). Then the chains one after the other
represent `m` (`Chained.flatten`), and an update of one row updates `m`
(`Chained.set`).
-/

namespace Chained

universe u v w

variable {ε : Type u} {κ : Type v} {α : Type w} {key : ε → κ} {value : ε → α}

/-! ## A chain -/

/-- The entries of the chain have distinct keys and are what `m` maps. -/
structure Represents (key : ε → κ) (value : ε → α) (l : List ε) (m : κ → Option α) : Prop where
  nodup : (l.map key).Nodup
  mem : ∀ k v, m k = some v ↔ ∃ e ∈ l, key e = k ∧ value e = v

theorem represents_nil : Represents key value [] (fun _ => none) := by
  constructor
  · simp
  · simp

variable {l l₁ l₂ : List ε} {e e' : ε} {m : κ → Option α} {k : κ}

theorem Represents.eq_none (h : Represents key value l m) : m k = none ↔ ∀ e ∈ l, key e ≠ k := by
  constructor
  · intro hnone e he hk
    have hsome := (h.mem k (value e)).mpr ⟨e, he, hk, rfl⟩
    simp [hnone] at hsome
  · intro hall
    cases hm : m k with
    | none => rfl
    | some v =>
        rcases (h.mem k v).mp hm with ⟨e, he, hk, -⟩
        exact absurd hk (hall e he)

/-- **The first entry with the key has its value.** -/
theorem Represents.find [DecidableEq κ] (h : Represents key value l m) (k : κ) :
    (l.find? (fun e => decide (key e = k))).map value = m k := by
  cases hf : l.find? (fun e => decide (key e = k)) with
  | none =>
      have hall := List.find?_eq_none.mp hf
      have hnone : m k = none := h.eq_none.mpr (by simpa using hall)
      simp [hnone]
  | some e =>
      have hk : key e = k := by simpa using List.find?_some hf
      have hsome := (h.mem k (value e)).mpr ⟨e, List.mem_of_find?_eq_some hf, hk, rfl⟩
      simp [hsome]

/-- A new key at the end of the chain. -/
theorem Represents.append [DecidableEq κ] (h : Represents key value l m) (hnew : m (key e) = none) :
    Represents key value (l ++ [e]) (Function.update m (key e) (some (value e))) := by
  have hne := h.eq_none.mp hnew
  constructor
  · simp only [List.map_append, List.map_cons, List.map_nil, List.nodup_append, List.mem_map,
      List.mem_singleton]
    refine ⟨h.nodup, by simp, ?_⟩
    rintro _ ⟨e', he', rfl⟩ _ rfl
    exact hne e' he'
  · intro k v
    by_cases hk : k = key e
    · subst hk
      simp only [Function.update_self, List.mem_append, List.mem_singleton, Option.some.injEq]
      constructor
      · rintro rfl
        exact ⟨e, by simp⟩
      · rintro ⟨e', he' | rfl, hkey, hv⟩
        · exact absurd hkey (hne e' he')
        · exact hv
    · rw [Function.update_of_ne hk, h.mem]
      simp only [List.mem_append, List.mem_singleton]
      constructor
      · rintro ⟨e', he', hkv⟩
        exact ⟨e', .inl he', hkv⟩
      · rintro ⟨e', he' | rfl, hkv⟩
        · exact ⟨e', he', hkv⟩
        · exact absurd hkv.1.symm hk

/-- The keys of the entries around an entry are other keys. -/
theorem Represents.around (h : Represents key value (l₁ ++ e :: l₂) m) :
    ∀ e' ∈ l₁ ++ l₂, key e' ≠ key e := by
  have hnd := h.nodup
  simp only [List.map_append, List.map_cons] at hnd
  have hnot := (List.nodup_middle.mp hnd)
  rw [List.nodup_cons] at hnot
  intro e' he' hk
  apply hnot.1
  rw [← hk, ← List.map_append]
  exact List.mem_map_of_mem he'

/-- The entry behind a link is taken out. -/
theorem Represents.erase [DecidableEq κ] (h : Represents key value (l₁ ++ e :: l₂) m) :
    Represents key value (l₁ ++ l₂) (Function.update m (key e) none) := by
  have hne := h.around
  constructor
  · have hnd := h.nodup
    simp only [List.map_append, List.map_cons] at hnd
    have hcons := List.nodup_middle.mp hnd
    rw [List.map_append]
    exact (List.nodup_cons.mp hcons).2
  · intro k v
    by_cases hk : k = key e
    · subst hk
      simp only [Function.update_self]
      constructor
      · exact fun hc => absurd hc (by simp)
      · rintro ⟨e', he', hkey, -⟩
        exact absurd hkey (hne e' he')
    · rw [Function.update_of_ne hk, h.mem]
      simp only [List.mem_append, List.mem_cons]
      constructor
      · rintro ⟨e', he' | rfl | he', hkv⟩
        · exact ⟨e', .inl he', hkv⟩
        · exact absurd hkv.1.symm hk
        · exact ⟨e', .inr he', hkv⟩
      · rintro ⟨e', he' | he', hkv⟩
        · exact ⟨e', .inl he', hkv⟩
        · exact ⟨e', .inr (.inr he'), hkv⟩

/-- The entry behind a link gets another value. -/
theorem Represents.overwrite [DecidableEq κ] (h : Represents key value (l₁ ++ e :: l₂) m)
    (hkey : key e' = key e) :
    Represents key value (l₁ ++ e' :: l₂) (Function.update m (key e) (some (value e'))) := by
  have hne := h.around
  constructor
  · have hnd := h.nodup
    simpa [hkey] using hnd
  · intro k v
    by_cases hk : k = key e
    · subst hk
      simp only [Function.update_self, Option.some.injEq]
      constructor
      · rintro rfl
        exact ⟨e', by simp, hkey, rfl⟩
      · rintro ⟨e'', he'', hk'', hv⟩
        simp only [List.mem_append, List.mem_cons] at he''
        rcases he'' with he'' | rfl | he''
        · exact absurd hk'' (hne e'' (List.mem_append_left l₂ he''))
        · exact hv
        · exact absurd hk'' (hne e'' (List.mem_append_right l₁ he''))
    · rw [Function.update_of_ne hk, h.mem]
      simp only [List.mem_append, List.mem_cons]
      constructor
      · rintro ⟨e'', he'' | rfl | he'', hkv⟩
        · exact ⟨e'', .inl he'', hkv⟩
        · exact absurd hkv.1.symm hk
        · exact ⟨e'', .inr (.inr he''), hkv⟩
      · rintro ⟨e'', he'' | rfl | he'', hkv⟩
        · exact ⟨e'', .inl he'', hkv⟩
        · exact absurd (hkv.1.symm.trans hkey) hk
        · exact ⟨e'', .inr (.inr he''), hkv⟩

/-- The domain of the map is the set of the keys of the chain. -/
theorem Represents.domain [DecidableEq κ] (h : Represents key value l m) :
    {k | m k ≠ none} = ((l.map key).toFinset : Set κ) := by
  ext k
  simp only [Set.mem_ofPred_eq, ne_eq, h.eq_none, List.coe_toFinset, List.mem_map]
  push Not
  rfl

theorem domain_update_some [DecidableEq κ] (v : α) :
    {k' | Function.update m k (some v) k' ≠ none} = insert k {k' | m k' ≠ none} := by
  ext k'
  by_cases hk : k' = k
  · simp [hk]
  · simp [hk]

theorem domain_update_none [DecidableEq κ] :
    {k' | Function.update m k none k' ≠ none} = {k' | m k' ≠ none} \ {k} := by
  ext k'
  by_cases hk : k' = k
  · simp [hk]
  · simp [hk]

/-! ## The link that a search stops at -/

/-- What is around the link at which a search for `p` stops. -/
theorem exists_split (p : ε → Bool) (h : l.findIdx p < l.length) :
    ∃ l₁ e l₂, l = l₁ ++ e :: l₂ ∧ l.findIdx p = l₁.length ∧ p e = true := by
  refine ⟨l.take (l.findIdx p), l[l.findIdx p], l.drop (l.findIdx p + 1), ?_, ?_, ?_⟩
  · simp
  · rw [List.length_take]
    omega
  · exact List.findIdx_getElem

theorem eraseIdx_split : (l₁ ++ e :: l₂).eraseIdx l₁.length = l₁ ++ l₂ := by
  simp [List.eraseIdx_append]

theorem modify_split (f : ε → ε) : (l₁ ++ e :: l₂).modify l₁.length f = l₁ ++ f e :: l₂ := by
  induction l₁ with
  | nil => simp
  | cons e' l₁ ih => simpa using ih

/-- Two searches that decide alike on the entries of a chain stop at the same link. -/
theorem findIdx_congr {p q : ε → Bool} (h : ∀ e ∈ l, p e = q e) : l.findIdx p = l.findIdx q := by
  induction l with
  | nil => rfl
  | cons e l ih =>
      rw [List.findIdx_cons, List.findIdx_cons, h e List.mem_cons_self,
        ih fun e' he' => h e' (List.mem_cons_of_mem e he')]

/-! ## A table of chains -/

/-- What `m` maps among the keys of a row. -/
def inRow (row : κ → Nat) (i : Nat) (m : κ → Option α) (k : κ) : Option α :=
  if row k = i then m k else none

/-- Every row of the table represents what `m` maps among its keys. -/
structure Table (key : ε → κ) (value : ε → α) (row : κ → Nat) (rows : List (List ε))
    (m : κ → Option α) : Prop where
  bound : ∀ k, row k < rows.length
  chain : ∀ i l, rows[i]? = some l → Represents key value l (inRow row i m)

variable {row : κ → Nat} {rows : List (List ε)}

theorem inRow_self : inRow row (row k) m k = m k := by
  simp [inRow]

theorem inRow_update_self [DecidableEq κ] {x : Option α} :
    inRow row (row k) (Function.update m k x) = Function.update (inRow row (row k) m) k x := by
  funext k'
  by_cases hk : k' = k
  · subst hk
    simp [inRow]
  · simp [inRow, hk]

theorem inRow_update_of_ne [DecidableEq κ] {x : Option α} {i : Nat} (hi : row k ≠ i) :
    inRow row i (Function.update m k x) = inRow row i m := by
  funext k'
  by_cases hk : k' = k
  · subst hk
    simp [inRow, hi]
  · simp [inRow, hk]

/-- The chain of the row of a key. -/
theorem Table.get (h : Table key value row rows m) (k : κ) :
    Represents key value (rows.getD (row k) []) (inRow row (row k) m) := by
  have hb := h.bound k
  have hget : rows[row k]? = some rows[row k] := List.getElem?_eq_getElem hb
  rw [List.getD_eq_getElem?_getD, hget]
  exact h.chain _ _ hget

/-- **An update of one row updates the map.** -/
theorem Table.set [DecidableEq κ] (h : Table key value row rows m) {x : Option α}
    (hl : Represents key value l (Function.update (inRow row (row k) m) k x)) :
    Table key value row (rows.set (row k) l) (Function.update m k x) := by
  constructor
  · simpa using h.bound
  · intro i l' hget
    rw [List.getElem?_set] at hget
    by_cases hi : row k = i
    · subst hi
      rw [if_pos rfl, if_pos (h.bound k)] at hget
      cases hget
      rw [inRow_update_self]
      exact hl
    · rw [if_neg hi] at hget
      rw [inRow_update_of_ne hi]
      exact h.chain i l' hget

/-- Entries of a row have keys of this row. -/
theorem Table.row_eq (h : Table key value row rows m) {i : Nat} (hget : rows[i]? = some l)
    (he : e ∈ l) : row (key e) = i := by
  have hm := ((h.chain i l hget).mem (key e) (value e)).mpr ⟨e, he, rfl, rfl⟩
  unfold inRow at hm
  by_contra hne
  simp [hne] at hm

/-- **The chains one after the other represent the map.** -/
theorem Table.flatten (h : Table key value row rows m) : Represents key value rows.flatten m := by
  constructor
  · rw [List.map_flatten, List.nodup_flatten]
    constructor
    · intro ks hks
      rcases List.mem_map.mp hks with ⟨l, hl, rfl⟩
      rcases List.getElem?_of_mem hl with ⟨i, hi⟩
      exact (h.chain i l hi).nodup
    · rw [List.pairwise_map, List.pairwise_iff_getElem]
      intro i j hi hj hlt k hki hkj
      rcases List.mem_map.mp hki with ⟨e, he, rfl⟩
      rcases List.mem_map.mp hkj with ⟨e', he', hk⟩
      -- the key would be in two rows
      have hri := h.row_eq (List.getElem?_eq_getElem hi) he
      have hrj := h.row_eq (List.getElem?_eq_getElem hj) he'
      rw [hk] at hrj
      omega
  · intro k v
    have hself : inRow row (row k) m k = m k := inRow_self
    rw [← hself, (h.get k).mem]
    constructor
    · rintro ⟨e, he, hkv⟩
      rw [List.getD_eq_getElem?_getD, List.getElem?_eq_getElem (h.bound k)] at he
      exact ⟨e, List.mem_flatten.mpr ⟨_, List.getElem_mem (h.bound k), he⟩, hkv⟩
    · rintro ⟨e, he, rfl, hv⟩
      rcases List.mem_flatten.mp he with ⟨l, hl, hel⟩
      rcases List.getElem?_of_mem hl with ⟨i, hi⟩
      have hrow := h.row_eq hi hel
      refine ⟨e, ?_, rfl, hv⟩
      rw [hrow, List.getD_eq_getElem?_getD, hi]
      exact hel

/-- A table of empty chains represents nothing. -/
theorem table_replicate {n : Nat} (hn : ∀ k, row k < n) :
    Table key value row (List.replicate n []) (fun _ => none) := by
  constructor
  · simpa using hn
  · intro i l hget
    have hl : l = [] := by
      rw [List.getElem?_replicate] at hget
      split at hget
      · exact (Option.some.inj hget).symm
      · cases hget
    have hm : inRow row i (fun _ : κ => (none : Option α)) = fun _ => none := by
      funext k
      simp [inRow]
    rw [hl, hm]
    exact represents_nil

end Chained
