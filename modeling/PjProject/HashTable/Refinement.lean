import PjProject.HashTable.Table

set_option autoImplicit false

/-! # The hash table refines a finite map

The map that a list of operations makes is `specOf`: a partial function on canonical keys. The
invariant `Inv` says that the chains of the table represent it (`Chained.Table`), with
well-formed entries, and that `count` is the number of its keys modulo `2^32`. An operation updates
the map at the key of its argument (`Inv.hashSet`).

What a reader of the table sees, `Agrees`, follows but for the count, which is the number of keys
while it fits an `unsigned`. No table comes out of `pj_hash_create` for more than `2^31` rows:
`table_size` becomes 0 and the loop does not end. So the table refines the map exactly if the size is
at most `2^31` and there are never `2^32` keys (`refines_iff`).
-/

namespace HashTable

universe u

variable {α : Type u} {lower : Bool}

/-! ## Operations and what they mean -/

/-- An operation on the table, by the caller's storage for a new entry. -/
inductive Op (α : Type u) where
  | set (arg : KeyArg) (hval : UInt32) (value : Option α)
  | setNp (arg : KeyArg) (hval : UInt32) (value : Option α)

/-- The operation on a table of the given case mode. -/
def Op.apply (lower : Bool) (ht : Table α) : Op α → Table α
  | .set arg hval value => if lower then setLower ht arg hval value else HashTable.set ht arg hval value
  | .setNp arg hval value =>
      if lower then setNpLower ht arg hval value else HashTable.setNp ht arg hval value

def Op.arg : Op α → KeyArg
  | .set arg _ _ => arg
  | .setNp arg _ _ => arg

def Op.hval : Op α → UInt32
  | .set _ hval _ => hval
  | .setNp _ hval _ => hval

def Op.value : Op α → Option α
  | .set _ _ value => value
  | .setNp _ _ value => value

/-- The operations of the list, one after the other. -/
def runOps (lower : Bool) (ht : Table α) (ops : List (Op α)) : Table α := ops.foldl (Op.apply lower) ht

/-- The map that the operations make. -/
def specOf (lower : Bool) (ops : List (Op α)) : List UInt8 → Option α :=
  ops.foldl (fun m op => Function.update m (canon lower op.arg.bytes) op.value) fun _ => none

/-- `pj_hash_get` or `pj_hash_get_lower`. -/
def getMode (lower : Bool) (ht : Table α) (arg : KeyArg) (hval : Option UInt32) : Option α :=
  if lower then (getLower ht arg hval).1 else (get ht arg hval).1

/-- What a reader of the table sees is the map: by key, by the count, and by enumeration. -/
structure Agrees (lower : Bool) (ht : Table α) (m : List UInt8 → Option α) : Prop where
  get : ∀ arg hval, Allowed lower arg hval → getMode lower ht arg hval = m (canon lower arg.bytes)
  count : ht.count.toNat = {k | m k ≠ none}.ncard
  enumerate : ∃ calls es, enumerate ht calls (first ht) = some es ∧
    Chained.Represents (fun e => canon lower e.key) Entry.value es m

/-- A table of this size is created, and agrees with the map after every operation. -/
def Refines (lower : Bool) (size : UInt32) (ops : List (Op α)) : Prop :=
  ∃ turns ht, create turns size = some ht ∧
    ∀ l, l <+: ops → Agrees lower (runOps lower ht l) (specOf lower l)

theorem Op.apply_eq (ht : Table α) (op : Op α) :
    op.apply lower ht = hashSet ht op.arg op.hval op.value lower := by
  cases op with
  | set arg hval value =>
      cases lower with
      | false => rfl
      | true => rfl
  | setNp arg hval value =>
      cases lower with
      | false => rfl
      | true => rfl

theorem getMode_eq (ht : Table α) (arg : KeyArg) (hval : Option UInt32) :
    getMode lower ht arg hval = (getEntry ht arg hval lower).1 := by
  cases lower with
  | false => rfl
  | true => rfl

/-! ## The invariant -/

/-- The row of a canonical key. -/
def rowOf (rows : Nat) (k : List UInt8) : Nat := (rawHash k).toNat &&& rows

structure Inv (lower : Bool) (ht : Table α) (m : List UInt8 → Option α) : Prop where
  chains : Chained.Table (fun e => canon lower e.key) Entry.value (rowOf ht.rows) ht.table m
  size : ht.table.length = ht.rows + 1
  wf : ∀ i, ∀ e ∈ ht.chain i, Entry.Wf lower e
  count : ht.count.toNat = {k | m k ≠ none}.ncard % 4294967296

theorem rowOf_lt (rows : Nat) (k : List UInt8) : rowOf rows k < rows + 1 :=
  Nat.lt_succ_of_le Nat.and_le_right

/-- A table without entries. -/
theorem inv_empty (rows : Nat) :
    Inv lower (⟨List.replicate (rows + 1) [], 0, rows⟩ : Table α) fun _ => none := by
  constructor
  · exact Chained.table_replicate (rowOf_lt rows)
  · simp
  · intro i e he
    unfold Table.chain at he
    rw [List.getD_eq_getElem?_getD, List.getElem?_replicate] at he
    split at he
    · simp at he
    · simp at he
  · simp

variable {ht : Table α} {m : List UInt8 → Option α} {arg : KeyArg} {hval : Option UInt32}

theorem Inv.finite (h : Inv lower ht m) : {k | m k ≠ none}.Finite := by
  rw [h.chains.flatten.domain]
  exact Finset.finite_toSet _

/-- The chain of a key represents what is mapped among the keys of its row. -/
theorem Inv.chain (h : Inv lower ht m) (k : List UInt8) :
    Chained.Represents (fun e => canon lower e.key) Entry.value (ht.chain (rowOf ht.rows k))
      (Chained.inRow (rowOf ht.rows) (rowOf ht.rows k) m) :=
  h.chains.get k

/-- The link at which a search for an allowed key stops. -/
theorem Inv.link (h : Inv lower ht m) (ha : Allowed lower arg hval) (i : Nat) :
    (ht.chain i).findIdx (isEntry lower arg (rawHash (canon lower arg.bytes))) =
      (ht.chain i).findIdx fun e => decide (canon lower e.key = canon lower arg.bytes) :=
  Chained.findIdx_congr fun e he => ha.isEntry_iff (h.wf i e he)

/-- **The value of a key.** -/
theorem Inv.get (h : Inv lower ht m) (ha : Allowed lower arg hval) :
    (getEntry ht arg hval lower).1 = m (canon lower arg.bytes) := by
  have hfind := (h.chain (canon lower arg.bytes)).find (canon lower arg.bytes)
  rw [Chained.inRow_self, List.find?_eq_getElem?_findIdx, ← h.link ha] at hfind
  unfold getEntry findEntry Found.entry
  simp only [ha.searchHash_eq]
  exact hfind

/-! ## One operation -/

theorem Table.mem_setChain {i j : Nat} {l : List (Entry α)} {e : Entry α}
    (he : e ∈ (ht.setChain i l).chain j) : e ∈ ht.chain j ∨ e ∈ l := by
  unfold Table.setChain Table.chain at he
  rw [List.getD_eq_getElem?_getD, List.getElem?_set] at he
  split at he
  · split at he
    · exact .inr (by simpa using he)
    · simp at he
  · refine .inl ?_
    unfold Table.chain
    rwa [List.getD_eq_getElem?_getD]

/-- **A row is updated.** The other rows and the size of the table stay. -/
theorem Inv.setChain (h : Inv lower ht m) {k : List UInt8} {l : List (Entry α)} {x : Option α}
    {count : UInt32}
    (hl : Chained.Represents (fun e => canon lower e.key) Entry.value l
      (Function.update (Chained.inRow (rowOf ht.rows) (rowOf ht.rows k) m) k x))
    (hwf : ∀ e ∈ l, Entry.Wf lower e)
    (hcount : count.toNat = {k' | Function.update m k x k' ≠ none}.ncard % 4294967296) :
    Inv lower { ht.setChain (rowOf ht.rows k) l with count := count } (Function.update m k x) := by
  constructor
  · exact h.chains.set hl
  · show (ht.table.set _ _).length = _
    rw [List.length_set]
    exact h.size
  · intro i e he
    rcases Table.mem_setChain he with he | he
    · exact h.wf i e he
    · exact hwf e he
  · exact hcount

theorem Inv.count_new (h : Inv lower ht m) {k : List UInt8} (hk : m k = none) (v : α) :
    (ht.count + 1).toNat = {k' | Function.update m k (some v) k' ≠ none}.ncard % 4294967296 := by
  rw [Chained.domain_update_some, Set.ncard_insert_of_notMem (by simpa using hk) h.finite,
    UInt32.toNat_add, h.count]
  simp

theorem Inv.count_same (h : Inv lower ht m) {k : List UInt8} (hk : m k ≠ none) (v : α) :
    ht.count.toNat = {k' | Function.update m k (some v) k' ≠ none}.ncard % 4294967296 := by
  rw [Chained.domain_update_some, Set.insert_eq_of_mem (by simpa using hk), h.count]

theorem Inv.count_erase (h : Inv lower ht m) {k : List UInt8} (hk : m k ≠ none) :
    (ht.count - 1).toNat = {k' | Function.update m k none k' ≠ none}.ncard % 4294967296 := by
  have hcard := Set.ncard_sdiff_singleton_add_one (s := {k' | m k' ≠ none}) (a := k) hk h.finite
  rw [Chained.domain_update_none, UInt32.toNat_sub, h.count, ← hcard]
  simp only [UInt32.toNat_one]
  omega

/-- Where the search for an allowed key stops: at its entry, or at the end of the chain if the key is
not in the table. -/
theorem Inv.search (h : Inv lower ht m) (ha : Allowed lower arg hval) :
    (∃ l₁ e l₂, ht.chain (rowOf ht.rows (canon lower arg.bytes)) = l₁ ++ e :: l₂ ∧
      (l₁ ++ e :: l₂).findIdx (isEntry lower arg (rawHash (canon lower arg.bytes))) = l₁.length ∧
      canon lower e.key = canon lower arg.bytes ∧ m (canon lower arg.bytes) ≠ none) ∨
    ((ht.chain (rowOf ht.rows (canon lower arg.bytes))).findIdx
        (isEntry lower arg (rawHash (canon lower arg.bytes))) =
        (ht.chain (rowOf ht.rows (canon lower arg.bytes))).length ∧
      m (canon lower arg.bytes) = none) := by
  have hlink := h.link ha (rowOf ht.rows (canon lower arg.bytes))
  have hchain := h.chain (canon lower arg.bytes)
  have hself : Chained.inRow (rowOf ht.rows) (rowOf ht.rows (canon lower arg.bytes)) m
      (canon lower arg.bytes) = m (canon lower arg.bytes) := Chained.inRow_self
  rw [hlink]
  by_cases hlt : (ht.chain (rowOf ht.rows (canon lower arg.bytes))).findIdx
      (fun e => decide (canon lower e.key = canon lower arg.bytes)) <
        (ht.chain (rowOf ht.rows (canon lower arg.bytes))).length
  · left
    rcases Chained.exists_split _ hlt with ⟨l₁, e, l₂, hl, hidx, he⟩
    have hkey : canon lower e.key = canon lower arg.bytes := by simpa using he
    refine ⟨l₁, e, l₂, hl, ?_, hkey, ?_⟩
    · rw [← hl, hlink, hidx]
    · rw [← hself]
      intro hnone
      apply hchain.eq_none.mp hnone e
      · simp [hl]
      · exact hkey
  · right
    have hge := Nat.le_antisymm List.findIdx_le_length (Nat.le_of_not_lt hlt)
    refine ⟨hge, ?_⟩
    rw [← hself]
    apply hchain.eq_none.mpr
    simpa using List.findIdx_eq_length.mp hge

/-- The row of the chain that is searched. -/
theorem row_eq (rows : Nat) (k : List UInt8) : (rawHash k).toNat &&& rows = rowOf rows k := rfl

theorem Inv.chain_setChain (h : Inv lower ht m) (k : List UInt8) (l : List (Entry α))
    (count : UInt32) :
    ({ ht.setChain (rowOf ht.rows k) l with count := count } : Table α).chain (rowOf ht.rows k) =
      l := by
  have hlt : rowOf ht.rows k < ht.table.length := by
    rw [h.size]
    exact rowOf_lt ht.rows k
  unfold Table.setChain Table.chain
  rw [List.getD_eq_getElem?_getD, List.getElem?_set, if_pos rfl, if_pos hlt]
  rfl

/-- The entry of a key that is in the table is deleted. -/
theorem Inv.delete (h : Inv lower ht m) {hv : UInt32} (ha : Allowed lower arg (some hv))
    (hk : m (canon lower arg.bytes) ≠ none) :
    Inv lower (hashSet ht arg hv none lower) (Function.update m (canon lower arg.bytes) none) := by
  rcases h.search ha with ⟨l₁, e, l₂, hl, hidx, hkey, -⟩ | ⟨-, hnone⟩
  · have heq : hashSet ht arg hv none lower =
        { ht.setChain (rowOf ht.rows (canon lower arg.bytes)) (l₁ ++ l₂) with
          count := ht.count - 1 } := by
      simp only [hashSet, findEntry, ha.searchHash_eq, row_eq, hl, hidx, Chained.eraseIdx_split]
      rw [if_pos (by simp)]
    have hchain := h.chain (canon lower arg.bytes)
    rw [hl] at hchain
    rw [heq]
    refine h.setChain ?_ ?_ (h.count_erase hk)
    · have herase := hchain.erase
      rwa [hkey] at herase
    · intro e' he'
      apply h.wf (rowOf ht.rows (canon lower arg.bytes))
      rw [hl]
      simp only [List.mem_append, List.mem_cons] at he' ⊢
      tauto
  · exact absurd hnone hk

/-- The entry of a key that is in the table gets the new value. -/
theorem Inv.overwrite (h : Inv lower ht m) {hv : UInt32} (ha : Allowed lower arg (some hv))
    (hk : m (canon lower arg.bytes) ≠ none) (v : α) :
    Inv lower (hashSet ht arg hv (some v) lower)
      (Function.update m (canon lower arg.bytes) (some v)) := by
  rcases h.search ha with ⟨l₁, e, l₂, hl, hidx, hkey, -⟩ | ⟨-, hnone⟩
  · have hlt : l₁.length < (l₁ ++ e :: l₂).length := by simp
    have heq : hashSet ht arg hv (some v) lower =
        { ht.setChain (rowOf ht.rows (canon lower arg.bytes)) (l₁ ++ { e with value := v } :: l₂)
          with count := ht.count } := by
      simp only [hashSet, findEntry, ha.searchHash_eq, row_eq, hl, hidx, if_pos hlt,
        Chained.modify_split]
      rfl
    have hchain := h.chain (canon lower arg.bytes)
    have hwf := h.wf (rowOf ht.rows (canon lower arg.bytes))
    rw [hl] at hchain hwf
    rw [heq]
    refine h.setChain ?_ ?_ (h.count_same hk v)
    · have hsame : canon lower { e with value := v }.key = canon lower e.key := rfl
      have hover := hchain.overwrite hsame
      rwa [hkey] at hover
    · intro e' he'
      simp only [List.mem_append, List.mem_cons] at he'
      rcases he' with he' | rfl | he'
      · exact hwf e' (by simp [he'])
      · have hw := hwf e (by simp)
        exact ⟨hw.hash, hw.len, hw.noNul⟩
      · exact hwf e' (by simp [he'])
  · exact absurd hnone hk

/-- A new entry is made for a key that is not in the table. -/
theorem Inv.create (h : Inv lower ht m) {hv : UInt32} (ha : Allowed lower arg (some hv))
    (hk : m (canon lower arg.bytes) = none) (v : α) :
    Inv lower (hashSet ht arg hv (some v) lower)
      (Function.update m (canon lower arg.bytes) (some v)) := by
  rcases h.search ha with ⟨-, -, -, -, -, -, hsome⟩ | ⟨hidx, -⟩
  · exact absurd hk hsome
  · have hlt : (ht.chain (rowOf ht.rows (canon lower arg.bytes))).length <
        (ht.chain (rowOf ht.rows (canon lower arg.bytes)) ++ [Entry.mk
          (arg.bytes.take arg.len.toNat) (rawHash (canon lower arg.bytes)) arg.len v]).length := by
      simp
    -- the new entry is overwritten with the value that it has already
    have heq : hashSet ht arg hv (some v) lower =
        { ht.setChain (rowOf ht.rows (canon lower arg.bytes))
            (ht.chain (rowOf ht.rows (canon lower arg.bytes)) ++ [Entry.mk
              (arg.bytes.take arg.len.toNat) (rawHash (canon lower arg.bytes)) arg.len v])
          with count := ht.count + 1 } := by
      simp only [hashSet, findEntry, ha.searchHash_eq, row_eq, hidx, Nat.lt_irrefl, if_false]
      rw [h.chain_setChain, if_pos hlt, Chained.modify_split]
      unfold Table.setChain
      simp
    have hkey : canon lower (arg.bytes.take arg.len.toNat) = canon lower arg.bytes := by
      rw [ha.valid.len_eq, List.take_length]
    rw [heq]
    refine h.setChain ?_ ?_ (h.count_new hk v)
    · have happend := (h.chain (canon lower arg.bytes)).append
        (e := Entry.mk (arg.bytes.take arg.len.toNat) (rawHash (canon lower arg.bytes)) arg.len v)
      rw [hkey, Chained.inRow_self] at happend
      exact happend hk
    · intro e he
      rcases List.mem_append.mp he with he | he
      · exact h.wf _ e he
      · rw [List.mem_singleton.mp he]
        exact ha.wf_new v

/-- Nothing is deleted for a key that is not in the table. -/
theorem Inv.absent (h : Inv lower ht m) {hv : UInt32} (ha : Allowed lower arg (some hv))
    (hk : m (canon lower arg.bytes) = none) :
    Inv lower (hashSet ht arg hv none lower) (Function.update m (canon lower arg.bytes) none) := by
  have hsame : Function.update m (canon lower arg.bytes) none = m := by
    rw [← hk, Function.update_eq_self]
  rcases h.search ha with ⟨-, -, -, -, -, -, hsome⟩ | ⟨hidx, -⟩
  · exact absurd hk hsome
  · have heq : hashSet ht arg hv none lower = ht := by
      simp only [hashSet, findEntry, ha.searchHash_eq, row_eq, hidx, Nat.lt_irrefl, if_false]
    rw [heq, hsame]
    exact h

/-- **An operation updates the map at its key.** -/
theorem Inv.hashSet (h : Inv lower ht m) {hv : UInt32} (ha : Allowed lower arg (some hv))
    (value : Option α) :
    Inv lower (hashSet ht arg hv value lower) (Function.update m (canon lower arg.bytes) value) := by
  by_cases hk : m (canon lower arg.bytes) = none
  · cases value with
    | none => exact h.absent ha hk
    | some v => exact h.create ha hk v
  · cases value with
    | none => exact h.delete ha hk
    | some v => exact h.overwrite ha hk v

/-! ## Enumeration -/

/-- From an entry on, the iterator goes through the rest of its chain and then through what comes from
the next row on. -/
theorem enumerate_chain {i : Nat} {rest : List (Entry α)}
    (hrest : ∃ calls, enumerate ht calls (nextRow ht (ht.rows - i) (i + 1)) = some rest)
    (e : Entry α) (l : List (Entry α)) :
    ∃ calls, enumerate ht calls (some ⟨i, e :: l⟩) = some (e :: l ++ rest) := by
  induction l generalizing e with
  | nil =>
      rcases hrest with ⟨calls, hcalls⟩
      refine ⟨calls + 1, ?_⟩
      simp [enumerate, next, hcalls]
  | cons e' l ih =>
      rcases ih e' with ⟨calls, hcalls⟩
      refine ⟨calls + 1, ?_⟩
      simp [enumerate, next, hcalls]

/-- From a row on, the iterator goes through all chains. -/
theorem enumerate_rows (hsize : ht.table.length = ht.rows + 1) (left i : Nat)
    (hi : left + i = ht.rows + 1) :
    ∃ calls, enumerate ht calls (nextRow ht left i) = some (ht.table.drop i).flatten := by
  induction left generalizing i with
  | zero =>
      refine ⟨0, ?_⟩
      rw [List.drop_eq_nil_of_le (by omega)]
      simp [nextRow, enumerate]
  | succ left ih =>
      have hlt : i < ht.table.length := by omega
      have hdrop := List.drop_eq_getElem_cons hlt
      have hchain : ht.chain i = ht.table[i] := by
        unfold Table.chain
        rw [List.getD_eq_getElem?_getD, List.getElem?_eq_getElem hlt, Option.getD_some]
      have hnext := ih (i + 1) (by omega)
      rw [hdrop, List.flatten_cons, ← hchain]
      cases hc : ht.chain i with
      | nil => simpa [nextRow, hc] using hnext
      | cons e l =>
          have hleft : left = ht.rows - i := by omega
          rw [hleft] at hnext
          simpa [nextRow, hc] using enumerate_chain hnext e l

/-- **The iterator goes through all entries once.** -/
theorem enumerate_first (hsize : ht.table.length = ht.rows + 1) :
    ∃ calls, enumerate ht calls (first ht) = some ht.table.flatten := by
  have h := enumerate_rows hsize (ht.rows + 1) 0 (by omega)
  rwa [List.drop_zero] at h

/-! ## Every run -/

/-- The argument of the operation is allowed. -/
def Op.Allowed (lower : Bool) (op : Op α) : Prop := HashTable.Allowed lower op.arg (some op.hval)

theorem inv_runOps {rows : Nat} (ops : List (Op α)) (hops : ∀ op ∈ ops, op.Allowed lower) :
    Inv lower (runOps lower (⟨List.replicate (rows + 1) [], 0, rows⟩ : Table α) ops)
      (specOf lower ops) := by
  induction ops using List.reverseRecOn with
  | nil => exact inv_empty rows
  | append_singleton ops op ih =>
      have hinv := ih fun op' hop' => hops op' (by simp [hop'])
      unfold runOps specOf at hinv ⊢
      rw [List.foldl_append, List.foldl_append]
      simp only [List.foldl_cons, List.foldl_nil, Op.apply_eq]
      exact hinv.hashSet (hops op (by simp)) op.value

/-- **What a reader sees is the map**, if the number of keys fits the count. -/
theorem Inv.agrees_iff (h : Inv lower ht m) :
    Agrees lower ht m ↔ {k | m k ≠ none}.ncard < 4294967296 := by
  constructor
  · intro hagrees
    rw [← hagrees.count]
    exact ht.count.toNat_lt
  · intro hlt
    constructor
    · intro arg hval ha
      rw [getMode_eq]
      exact h.get ha
    · rw [h.count, Nat.mod_eq_of_lt hlt]
    · rcases enumerate_first h.size with ⟨calls, hcalls⟩
      exact ⟨calls, ht.table.flatten, hcalls, h.chains.flatten⟩

/-! ## Creation -/

theorem shiftLeft_one (x : UInt32) : (x <<< 1).toNat = x.toNat * 2 % 4294967296 := by
  rw [UInt32.toNat_shiftLeft]
  simp [Nat.shiftLeft_eq]

/-- The loop ends if the size is at most `2^31`: with a power of two that is not below it. -/
theorem roundUp_ends {size : UInt32} (hsize : size.toNat ≤ 2147483648) (d k : Nat)
    (hk : d + k = 30) {table_size : UInt32} (hts : table_size.toNat = 2 ^ k) :
    ∃ turns ts, roundUp size turns table_size = some ts := by
  induction d generalizing k table_size with
  | zero =>
      have hk30 : k = 30 := by omega
      have hnext : (table_size <<< 1).toNat = 2147483648 := by
        rw [shiftLeft_one, hts, hk30]
        norm_num
      refine ⟨1, table_size <<< 1, ?_⟩
      have hnlt : ¬ table_size <<< 1 < size := by
        rw [UInt32.lt_iff_toNat_lt, hnext]
        omega
      simp [roundUp, hnlt]
  | succ d ih =>
      have hnext : (table_size <<< 1).toNat = 2 ^ (k + 1) := by
        have hle : 2 ^ (k + 1) ≤ 2 ^ 31 := Nat.pow_le_pow_right (by omega) (by omega)
        rw [shiftLeft_one, hts, ← pow_succ]
        omega
      rcases ih (k + 1) (by omega) hnext with ⟨turns, ts, hrest⟩
      by_cases hlt : table_size <<< 1 < size
      · exact ⟨turns + 1, ts, by simpa [roundUp, hlt] using hrest⟩
      · exact ⟨1, table_size <<< 1, by simp [roundUp, hlt]⟩

/-- Beyond that it does not end: from `2^31`, `table_size` becomes 0 and stays so. -/
theorem roundUp_hangs {size : UInt32} (hsize : 2147483648 < size.toNat) (turns : Nat)
    {table_size : UInt32} (hts : table_size.toNat = 0 ∨ ∃ k ≤ 31, table_size.toNat = 2 ^ k) :
    roundUp size turns table_size = none := by
  induction turns generalizing table_size with
  | zero => rfl
  | succ turns ih =>
      have hnext : (table_size <<< 1).toNat = 0 ∨ ∃ k ≤ 31, (table_size <<< 1).toNat = 2 ^ k := by
        rw [shiftLeft_one]
        rcases hts with h0 | ⟨k, hk, hts⟩
        · left
          rw [h0]
        · rcases Nat.lt_or_ge k 31 with hk31 | hk31
          · right
            have hle : 2 ^ (k + 1) ≤ 2 ^ 31 := Nat.pow_le_pow_right (by omega) (by omega)
            refine ⟨k + 1, hk31, ?_⟩
            rw [hts, ← pow_succ]
            omega
          · left
            have hk' : k = 31 := by omega
            rw [hts, hk']
            norm_num
      have hle : (table_size <<< 1).toNat ≤ 2147483648 := by
        rcases hnext with h0 | ⟨k, hk, h2⟩
        · omega
        · have hle : 2 ^ k ≤ 2 ^ 31 := Nat.pow_le_pow_right (by omega) hk
          omega
      have hlt : table_size <<< 1 < size := by
        rw [UInt32.lt_iff_toNat_lt]
        omega
      simpa [roundUp, hlt] using ih hnext

/-- A table is created exactly for the sizes up to `2^31`. -/
theorem create_iff (size : UInt32) :
    (∃ turns ht, create (α := α) turns size = some ht) ↔ size.toNat ≤ 2147483648 := by
  constructor
  · rintro ⟨turns, ht, h⟩
    by_contra hlarge
    have hstart : (8 : UInt32).toNat = 0 ∨ ∃ k ≤ 31, (8 : UInt32).toNat = 2 ^ k :=
      .inr ⟨3, by simp⟩
    have hhang : roundUp size turns 8 = none := roundUp_hangs (by omega) turns hstart
    simp [create, hhang] at h
  · intro hsize
    have hstart : (8 : UInt32).toNat = 2 ^ 3 := by simp
    rcases roundUp_ends hsize 27 3 rfl hstart with ⟨turns, ts, hts⟩
    exact ⟨turns, ⟨List.replicate ((ts - 1).toNat + 1) [], 0, (ts - 1).toNat⟩, by simp [create, hts]⟩

/-- A created table is empty. -/
theorem create_eq {turns : Nat} {size : UInt32} (h : create turns size = some ht) :
    ht = ⟨List.replicate (ht.rows + 1) [], 0, ht.rows⟩ := by
  unfold create at h
  rcases Option.map_eq_some_iff.mp h with ⟨ts, -, rfl⟩
  rfl

/-- **The exact condition.** The table refines the map if and only if its size is at most `2^31` and
there are never `2^32` keys. -/
theorem refines_iff (lower : Bool) (size : UInt32) (ops : List (Op α))
    (hops : ∀ op ∈ ops, op.Allowed lower) :
    Refines lower size ops ↔
      size.toNat ≤ 2147483648 ∧ ∀ l, l <+: ops → {k | specOf lower l k ≠ none}.ncard < 4294967296 := by
  have hagrees : ∀ (ht : Table α) turns, create turns size = some ht → ∀ l, l <+: ops →
      (Agrees lower (runOps lower ht l) (specOf lower l) ↔
        {k | specOf lower l k ≠ none}.ncard < 4294967296) := by
    intro ht turns hcreate l hl
    rw [create_eq hcreate]
    exact (inv_runOps l fun op hop => hops op (hl.subset hop)).agrees_iff
  constructor
  · rintro ⟨turns, ht, hcreate, hall⟩
    refine ⟨(create_iff size).mp ⟨turns, ht, hcreate⟩, fun l hl => ?_⟩
    exact (hagrees ht turns hcreate l hl).mp (hall l hl)
  · rintro ⟨hsize, hall⟩
    rcases (create_iff (α := α) size).mpr hsize with ⟨turns, ht, hcreate⟩
    exact ⟨turns, ht, hcreate, fun l hl => (hagrees ht turns hcreate l hl).mpr (hall l hl)⟩

/-- Operations on a table without case: `Ab` is set, `aB` overwrites it, `c` is not there, and `AB` is
deleted with the hash of the table. -/
def sampleOps : List (Op Nat) :=
  [.set ⟨[65, 98], 2⟩ 0 (some 1), .setNp ⟨[97, 66, 0], keyString⟩ 0 (some 2),
    .set ⟨[99], 1⟩ 0 none, .setNp ⟨[65, 66], 2⟩ 3299 none]

theorem sampleOps_allowed : ∀ op ∈ sampleOps, op.Allowed true := by
  intro op hop
  simp only [sampleOps, List.mem_cons, List.not_mem_nil, or_false] at hop
  rcases hop with rfl | rfl | rfl | rfl
  all_goals exact ⟨by decide, fun _ => by decide, fun h hh => Option.some.inj hh ▸ by decide⟩

theorem refines_sample :
    Refines true 16 sampleOps ↔ (16 : UInt32).toNat ≤ 2147483648 ∧
      ∀ l, l <+: sampleOps → {k | specOf true l k ≠ none}.ncard < 4294967296 :=
  refines_iff true 16 sampleOps sampleOps_allowed

/-- No table of `2^31 + 1` rows is created. -/
theorem refines_large : ¬ Refines false 2147483649 ([] : List (Op Nat)) := by
  rintro ⟨turns, ht, h, -⟩
  have hsize := (create_iff (α := Nat) 2147483649).mp ⟨turns, ht, h⟩
  simp at hsize

end HashTable
