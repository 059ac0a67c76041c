import PjProject.Pool.Caching

set_option autoImplicit false

/-! # The accounting of the caching pool

A pool that is too large for every list has a capacity above the largest size from its creation on, so
it is destroyed when it is released, and the assertion there does not fail. A pool that is kept is reset
first, so it is as large as its list says, whatever it had grown to. `CacheInv` holds all along
every run, and with it what is promised of the factory (`cache_run`).
-/

namespace PjPool

/-! ## The pools of the factory -/

/-- The memory of the pools. -/
def memoryOf (l : List Member) : List Region := l.flatMap fun m => m.pool.memory

/-- All pools of the factory. -/
def CachingPool.pools (cp : CachingPool) : List Member := cp.usedList ++ cp.freeList.flatten

/-- The capacities of the pools. -/
def capacities (l : List Member) : Nat := (l.map fun m => m.pool.capacity).sum

structure CacheInv (cp : CachingPool) : Prop where
  rows : cp.freeList.length = arraySize
  free : ∀ i l, cp.freeList[i]? = some l → ∀ m ∈ l, IsReset m.pool (poolSize i)
  used : ∀ m ∈ cp.usedList, MemberOk m
  laid : Laid (memoryOf cp.pools)
  capacity : cp.capacity = capacities cp.freeList.flatten
  max : cp.capacity ≤ cp.maxCapacity
  count : cp.usedCount = cp.usedList.length

@[simp] theorem memoryOf_nil : memoryOf [] = [] := rfl

@[simp] theorem memoryOf_cons (m : Member) (l : List Member) :
    memoryOf (m :: l) = m.pool.memory ++ memoryOf l := by
  simp [memoryOf]

@[simp] theorem memoryOf_append (l l' : List Member) :
    memoryOf (l ++ l') = memoryOf l ++ memoryOf l' := by
  simp [memoryOf]

theorem memoryOf_perm {l l' : List Member} (h : l.Perm l') : (memoryOf l).Perm (memoryOf l') :=
  h.flatMap_right _

theorem capacities_perm {l l' : List Member} (h : l.Perm l') : capacities l = capacities l' :=
  (h.map _).sum_eq

@[simp] theorem capacities_cons (m : Member) (l : List Member) :
    capacities (m :: l) = m.pool.capacity + capacities l := by
  simp [capacities]

/-! ## The free lists -/

variable {L : List (List Member)} {i : Nat}

/-- A pool is put into a free list. -/
theorem flatten_put (hi : i < L.length) (m : Member) :
    (L.set i (m :: L.getD i [])).flatten.Perm (m :: L.flatten) := by
  induction L generalizing i with
  | nil => simp at hi
  | cons l L ih =>
      cases i with
      | zero => simp
      | succ i =>
          have hrest := ih (i := i) (by simpa using hi)
          simp only [List.set_cons_succ, List.getD_cons_succ, List.flatten_cons]
          exact (hrest.append_left l).trans List.perm_middle

/-- A pool is taken out of a free list. -/
theorem flatten_take {m : Member} {rest : List Member} (h : L.getD i [] = m :: rest) :
    L.flatten.Perm (m :: (L.set i rest).flatten) := by
  induction L generalizing i with
  | nil => simp at h
  | cons l L ih =>
      cases i with
      | zero =>
          rw [List.getD_cons_zero] at h
          simp [h]
      | succ i =>
          rw [List.getD_cons_succ] at h
          simp only [List.set_cons_succ, List.flatten_cons]
          exact ((ih h).append_left l).trans List.perm_middle

/-- The pools of a row after it has been set. -/
theorem free_set {l : List Member} (hfree : ∀ j l, L[j]? = some l → ∀ m ∈ l, IsReset m.pool (poolSize j))
    (hl : ∀ m ∈ l, IsReset m.pool (poolSize i)) :
    ∀ j l', (L.set i l)[j]? = some l' → ∀ m ∈ l', IsReset m.pool (poolSize j) := by
  intro j l' hj
  rw [List.getElem?_set] at hj
  by_cases hij : i = j
  · rw [if_pos hij] at hj
    split at hj
    · cases hj
      rw [← hij]
      exact hl
    · cases hj
  · rw [if_neg hij] at hj
    exact hfree j l' hj

theorem getD_mem_free (hfree : ∀ j l, L[j]? = some l → ∀ m ∈ l, IsReset m.pool (poolSize j)) :
    ∀ m ∈ L.getD i [], IsReset m.pool (poolSize i) := by
  intro m hm
  rw [List.getD_eq_getElem?_getD] at hm
  cases hget : L[i]? with
  | none => simp [hget] at hm
  | some l =>
      rw [hget] at hm
      exact hfree i l hget m hm

/-! ## Creating a pool -/

variable {cp : CachingPool} {pool : Pool} {grant : Option Nat}

/-- What `block_alloc` returns for the first block of a pool. -/
def CreateGranted (cp : CachingPool) (initialSize : Nat) (grant : Option Nat) : Prop :=
  ∀ addr, grant = some addr → addr + createSize initialSize < sizeRange ∧
    ∀ r ∈ memoryOf cp.pools, Region.Apart ⟨addr, createSize initialSize⟩ r

theorem CachingPool.use_pools (cp : CachingPool) (pool : Pool) (idx : Nat) :
    (cp.use pool idx).pools.Perm (⟨pool, idx⟩ :: cp.pools) := by
  unfold CachingPool.use CachingPool.pools
  simp only [List.append_assoc, List.singleton_append]
  exact List.perm_middle

/-- A pool of the size that is created for a request is one of the used list. -/
theorem memberOk_create {initialSize : Nat} (h : IsReset pool (createSize initialSize)) :
    MemberOk ⟨pool, sizeClass initialSize⟩ := by
  constructor
  · rw [h.memory, h.capacity]
    simp
  · rcases sizeClass_fits initialSize with ⟨hlt, -⟩ | ⟨heq, hlarge⟩
    · left
      have hsize : createSize initialSize = poolSize (sizeClass initialSize) := if_pos hlt
      rw [hsize] at h
      exact ⟨hlt, h.firstBlock⟩
    · right
      have hsize : createSize initialSize = initialSize := if_neg (by omega)
      rw [hsize] at h
      exact ⟨heq, initialSize, hlarge, h.firstBlock⟩

/-- **A pool is put into the used list.** -/
theorem CacheInv.use (h : CacheInv cp) {idx : Nat} (hm : MemberOk ⟨pool, idx⟩)
    (hlaid : Laid (pool.memory ++ memoryOf cp.pools)) : CacheInv (cp.use pool idx) := by
  constructor
  · exact h.rows
  · exact h.free
  · intro m hmem
    rcases List.mem_append.mp hmem with hmem | hmem
    · exact h.used m hmem
    · rw [List.mem_singleton.mp hmem]
      exact hm
  · apply hlaid.perm
    have hp := memoryOf_perm (cp.use_pools pool idx)
    rw [memoryOf_cons] at hp
    exact hp.symm
  · exact h.capacity
  · exact h.max
  · show cp.usedCount + 1 = (cp.usedList ++ [(⟨pool, idx⟩ : Member)]).length
    rw [h.count, List.length_append, List.length_singleton]

/-- A pool is taken out of a free list. -/
theorem CacheInv.take (h : CacheInv cp) {m : Member} {rest : List Member}
    (hrow : cp.freeList.getD i [] = m :: rest) {cp' : CachingPool}
    (hcp : cp' = { cp with
      freeList := cp.freeList.set i rest
      capacity := if m.pool.capacity < cp.capacity then cp.capacity - m.pool.capacity else 0 }) :
    CacheInv cp' ∧ Laid (m.pool.memory ++ memoryOf cp'.pools) := by
  have hperm := flatten_take hrow
  have hsum : cp.capacity = m.pool.capacity + capacities (cp.freeList.set i rest).flatten := by
    rw [h.capacity, capacities_perm hperm, capacities_cons]
  have hmax := h.max
  have hlaid : Laid (m.pool.memory ++ memoryOf cp'.pools) := by
    have hpools : cp.pools.Perm (m :: cp'.pools) := by
      rw [hcp]
      unfold CachingPool.pools
      exact (hperm.append_left cp.usedList).trans List.perm_middle
    have hp := memoryOf_perm hpools
    rw [memoryOf_cons] at hp
    exact h.laid.perm hp
  refine ⟨?_, hlaid⟩
  have hsub := hlaid.sublist (List.sublist_append_right m.pool.memory (memoryOf cp'.pools))
  subst hcp
  constructor
  · simpa using h.rows
  · apply free_set h.free
    intro m' hm'
    apply getD_mem_free h.free m'
    rw [hrow]
    exact List.mem_cons_of_mem m hm'
  · exact h.used
  · exact hsub
  · dsimp only
    split
    · omega
    · omega
  · dsimp only
    split
    · omega
    · omega
  · exact h.count

/-- What `cpool_create_pool` does without a pool in its list. -/
theorem createPool_new {initialSize : Nat} (incrementSize : Nat)
    (hrow : cp.freeList.getD (sizeClass initialSize) [] = []) :
    createPool cp initialSize incrementSize grant =
      match createInt (createSize initialSize) incrementSize grant with
      | none => (cp, none)
      | some pool => (cp.use pool (sizeClass initialSize), some pool) := by
  cases hc : createInt (createSize initialSize) incrementSize grant with
  | none | some =>
      unfold createPool
      simp only [hrow, hc]

/-- **The pool that `cpool_create_pool` returns is as large as was asked for**, and the factory stays in
order. -/
theorem CacheInv.create (h : CacheInv cp) (initialSize incrementSize : Nat)
    (hgrant : CreateGranted cp initialSize grant) :
    CacheInv (createPool cp initialSize incrementSize grant).1 ∧
      ∀ pool, (createPool cp initialSize incrementSize grant).2 = some pool →
        initialSize ≤ pool.capacity := by
  cases hrow : cp.freeList.getD (sizeClass initialSize) [] with
  | nil =>
      rw [createPool_new incrementSize hrow]
      cases hc : createInt (createSize initialSize) incrementSize grant with
      | none => exact ⟨h, by simp⟩
      | some pool =>
          cases grant with
          | none =>
              unfold createInt at hc
              split at hc
              · cases hc
              · cases hc
          | some addr =>
              rcases hgrant addr rfl with ⟨hlt, hapart⟩
              rcases createInt_isReset hc hlt with ⟨hreset, haddr⟩
              have hmem := hreset.memory
              rw [haddr] at hmem
              constructor
              · apply h.use (memberOk_create hreset)
                rw [hmem]
                exact h.laid.cons hlt hapart
              · intro pool' hpool'
                cases hpool'
                rw [hreset.capacity]
                exact le_createSize initialSize
  | cons m rest =>
      rcases sizeClass_fits initialSize with ⟨hlt, hfits⟩ | ⟨heq, -⟩
      swap
      · -- there is no list for a size above the largest one
        rw [List.getD_eq_getElem?_getD, List.getElem?_eq_none (by rw [h.rows, heq])] at hrow
        cases hrow
      have hreset : IsReset m.pool (poolSize (sizeClass initialSize)) := by
        apply getD_mem_free h.free m
        rw [hrow]
        exact List.mem_cons_self
      have hsize : createSize initialSize = poolSize (sizeClass initialSize) := if_pos hlt
      have hreset' : IsReset { m.pool with incrementSize := incrementSize } (createSize initialSize) := by
        rw [hsize]
        exact ⟨hreset.blocks, hreset.capacity⟩
      rcases h.take hrow rfl with ⟨hinv, hlaid⟩
      have hcreate : createPool cp initialSize incrementSize grant =
          (CachingPool.use { cp with
            freeList := cp.freeList.set (sizeClass initialSize) rest
            capacity := if m.pool.capacity < cp.capacity then cp.capacity - m.pool.capacity else 0 }
            { m.pool with incrementSize := incrementSize } (sizeClass initialSize),
          some { m.pool with incrementSize := incrementSize }) := by
        unfold createPool
        simp only [hrow]
      rw [hcreate]
      constructor
      · exact hinv.use (memberOk_create hreset') hlaid
      · intro pool' hpool'
        cases hpool'
        show initialSize ≤ m.pool.capacity
        rw [hreset.capacity]
        exact hfits

/-! ## Using a pool -/

theorem pick_some {addr : Nat} {l l₁ l₂ : List Member} {m : Member}
    (h : pick addr l = some (l₁, m, l₂)) : l = l₁ ++ m :: l₂ ∧ m.pool.addr = addr := by
  induction l generalizing l₁ with
  | nil => cases h
  | cons c l ih =>
      unfold pick at h
      by_cases hc : c.pool.addr = addr
      · rw [if_pos hc] at h
        cases h
        exact ⟨rfl, hc⟩
      · rw [if_neg hc] at h
        rcases Option.map_eq_some_iff.mp h with ⟨⟨k₁, m', k₂⟩, hrest, heq⟩
        cases heq
        rcases ih hrest with ⟨rfl, hm⟩
        exact ⟨rfl, hm⟩

/-- A pool of the used list and the others. -/
theorem pools_perm {l₁ l₂ : List Member} {m : Member} (h : cp.usedList = l₁ ++ m :: l₂) :
    cp.pools.Perm (m :: (l₁ ++ l₂ ++ cp.freeList.flatten)) := by
  unfold CachingPool.pools
  rw [h]
  simp only [List.append_assoc, List.cons_append]
  exact List.perm_middle

/-- **The user of a pool changes it.** -/
theorem CacheInv.change (h : CacheInv cp) {l₁ l₂ : List Member} {m : Member}
    (hl : cp.usedList = l₁ ++ m :: l₂) {pool' : Pool} {extra : List Region}
    (hc : Changed m.pool pool' extra) (hlaid : Laid (extra ++ memoryOf cp.pools)) :
    CacheInv { cp with usedList := l₁ ++ { m with pool := pool' } :: l₂ } := by
  have hm : MemberOk m := h.used m (by simp [hl])
  constructor
  · exact h.rows
  · exact h.free
  · intro c hcmem
    simp only [List.mem_append, List.mem_cons] at hcmem
    rcases hcmem with hcmem | rfl | hcmem
    · exact h.used c (by simp [hl, hcmem])
    · refine ⟨hc.capacity, ?_⟩
      rcases hm.first with ⟨hlt, hfirst⟩ | ⟨heq, size, hlarge, hfirst⟩
      · exact .inl ⟨hlt, hc.first _ hfirst⟩
      · exact .inr ⟨heq, size, hlarge, hc.first _ hfirst⟩
    · exact h.used c (by simp [hl, hcmem])
  · have hold := memoryOf_perm (pools_perm hl)
    rw [memoryOf_cons] at hold
    have hnew := memoryOf_perm (@pools_perm { cp with
      usedList := l₁ ++ { m with pool := pool' } :: l₂ } l₁ l₂ { m with pool := pool' } rfl)
    rw [memoryOf_cons] at hnew
    have hall := hlaid.perm (hold.append_left extra)
    rw [← List.append_assoc] at hall
    exact (hall.sublist (hc.memory.append_right _)).perm hnew.symm
  · exact h.capacity
  · exact h.max
  · show cp.usedCount = _
    rw [h.count, hl]
    simp

/-- A member's pool has a first block, and its memory is laid out. -/
theorem CacheInv.member (h : CacheInv cp) {m : Member} (hm : m ∈ cp.usedList) :
    Laid m.pool.memory ∧ (∀ r ∈ m.pool.memory, r ∈ memoryOf cp.pools) ∧
      ∃ size, FirstBlock m.pool size := by
  rcases List.append_of_mem hm with ⟨l₁, l₂, hl⟩
  have hp := memoryOf_perm (pools_perm hl)
  rw [memoryOf_cons] at hp
  refine ⟨?_, ?_, ?_⟩
  · exact (h.laid.perm hp).sublist (List.sublist_append_left _ _)
  · intro r hr
    exact hp.mem_iff.mpr (List.mem_append_left _ hr)
  · rcases (h.used m hm).first with ⟨-, hfirst⟩ | ⟨-, size, -, hfirst⟩
    · exact ⟨_, hfirst⟩
    · exact ⟨size, hfirst⟩

/-- What `block_alloc` returns for a call on a pool. -/
def Use.Granted (memory : List Region) (pool : Pool) : Use → Prop
  | .alloc size grant => BlockGranted memory pool size.toNat grant
  | .calloc count size grant => BlockGranted memory pool (size.toNat * count.toNat % sizeRange) grant
  | .reset => True

/-- **A call of a pool's user.** -/
theorem CacheInv.usePool (h : CacheInv cp) (addr : Nat) (u : Use)
    (hgrant : ∀ m ∈ cp.usedList, m.pool.addr = addr → u.Granted (memoryOf cp.pools) m.pool) :
    Outcome.Holds CacheInv (fun e => e ≠ .arrayIndex) (usePool cp addr u) := by
  unfold PjPool.usePool
  cases hp : pick addr cp.usedList with
  | none => exact h
  | some t =>
      rcases t with ⟨l₁, m, l₂⟩
      rcases pick_some hp with ⟨hl, haddr⟩
      have hmem : m ∈ cp.usedList := by simp [hl]
      have hg := hgrant m hmem haddr
      rcases h.member hmem with ⟨hlaid, hsub, size, hfirst⟩
      have hne : m.pool.blockList ≠ [] := by
        rcases hfirst with ⟨b, hb, -⟩
        intro hnil
        simp [hnil] at hb
      have hcap := (h.used m hmem).capacity
      have hcall : ∀ n grant, BlockGranted (memoryOf cp.pools) m.pool n grant →
          ∀ pool', (PjPool.alloc m.pool n grant).map Prod.snd = .ok pool' →
            CacheInv { cp with usedList := l₁ ++ { m with pool := pool' } :: l₂ } := by
        intro n grant hbg pool' hok
        cases ha : PjPool.alloc m.pool n grant with
        | error e =>
            rw [ha] at hok
            cases hok
        | ok r =>
            rw [ha] at hok
            cases hok
            exact h.change hl (alloc_changed hcap hlaid hne hsub hbg ha) (hbg.laid h.laid)
      dsimp only
      cases hu : u.apply m.pool with
      | error e =>
          show CacheFault.pool e ≠ .arrayIndex
          simp
      | ok pool' =>
          show CacheInv _
          cases u with
          | alloc size grant => exact hcall size.toNat grant hg pool' hu
          | calloc count size grant => exact hcall _ grant hg pool' hu
          | reset =>
              cases hu
              exact h.change hl (reset_changed hfirst hlaid) (by simpa using h.laid)

/-! ## Releasing a pool -/

/-- The capacities of the pools of the free lists are their memory. -/
theorem CacheInv.capacities_free (h : CacheInv cp) :
    capacities cp.freeList.flatten = Region.total (memoryOf cp.freeList.flatten) := by
  have hall : ∀ m ∈ cp.freeList.flatten, m.pool.capacity = Region.total m.pool.memory := by
    intro m hm
    rcases List.mem_flatten.mp hm with ⟨l, hl, hml⟩
    rcases List.getElem?_of_mem hl with ⟨i, hi⟩
    have hreset := h.free i l hi m hml
    rw [hreset.memory, hreset.capacity]
    simp
  generalize cp.freeList.flatten = l at hall
  induction l with
  | nil => rfl
  | cons m l ih =>
      rw [capacities_cons, memoryOf_cons, Region.total_append, hall m List.mem_cons_self,
        ih fun c hc => hall c (List.mem_cons_of_mem m hc)]

/-- A pool leaves the used list. -/
theorem CacheInv.leave (h : CacheInv cp) {l₁ l₂ : List Member} {m : Member}
    (hl : cp.usedList = l₁ ++ m :: l₂) :
    CacheInv { cp with usedList := l₁ ++ l₂, usedCount := cp.usedCount - 1 } := by
  constructor
  · exact h.rows
  · exact h.free
  · intro c hc
    apply h.used c
    rw [hl]
    simp only [List.mem_append, List.mem_cons] at hc ⊢
    tauto
  · have hp := memoryOf_perm (pools_perm hl)
    rw [memoryOf_cons] at hp
    exact (h.laid.perm hp).sublist (List.sublist_append_right _ _)
  · exact h.capacity
  · exact h.max
  · show cp.usedCount - 1 = (l₁ ++ l₂).length
    rw [h.count, hl]
    simp

/-- **A pool is released**, and the assertion does not fail. -/
theorem CacheInv.release (h : CacheInv cp) (addr : Nat) :
    ∃ cp', releasePool cp addr = .ok cp' ∧ CacheInv cp' := by
  unfold releasePool
  cases hp : pick addr cp.usedList with
  | none => exact ⟨cp, rfl, h⟩
  | some t =>
      rcases t with ⟨l₁, m, l₂⟩
      rcases pick_some hp with ⟨hl, -⟩
      have hmem : m ∈ cp.usedList := by simp [hl]
      have hleave := h.leave hl
      dsimp only
      by_cases hdrop : poolSize (arraySize - 1) < m.pool.capacity ∨
          cp.maxCapacity < (cp.capacity + m.pool.capacity) % sizeRange
      · rw [if_pos hdrop]
        exact ⟨_, rfl, hleave⟩
      rw [if_neg hdrop]
      rcases h.member hmem with ⟨hlaid, -, -⟩
      have hok := h.used m hmem
      -- a pool that is too large for every list has been destroyed
      rcases hok.first with ⟨hlt, hfirst⟩ | ⟨-, size, hlarge, hfirst⟩
      swap
      · have hle := hfirst.le_total
        rw [← hok.capacity] at hle
        omega
      rw [if_neg (Nat.not_le_of_lt hlt)]
      refine ⟨_, rfl, ?_⟩
      rcases hfirst.memory with ⟨pre, hpre⟩
      have hbound : m.pool.addr + poolSize m.factoryData < sizeRange :=
        hlaid.bound ⟨m.pool.addr, poolSize m.factoryData⟩ (by simp [hpre])
      rcases hfirst.reset hbound with ⟨hreset, haddr⟩
      have hrows : m.factoryData < cp.freeList.length := by
        rw [h.rows]
        exact hlt
      have hput := flatten_put hrows { m with pool := resetPool m.pool }
      have hcapacity : m.pool.capacity = Region.total m.pool.memory := hok.capacity
      have hle := hfirst.le_total
      -- all memory is less than `2^64` bytes
      have hparts := memoryOf_perm (pools_perm hl)
      rw [memoryOf_cons, memoryOf_append] at hparts
      have htotal : cp.capacity + m.pool.capacity < sizeRange := by
        have hlt' := h.laid.total_lt
        rw [Region.total_perm hparts, Region.total_append, Region.total_append, ← hcapacity,
          ← h.capacities_free, ← h.capacity] at hlt'
        omega
      rw [Nat.mod_eq_of_lt htotal] at hdrop
      have hsum : (cp.capacity + (resetPool m.pool).capacity) % sizeRange =
          cp.capacity + poolSize m.factoryData := by
        rw [hreset.capacity, Nat.mod_eq_of_lt (by omega)]
      constructor
      · simpa using h.rows
      · apply free_set h.free
        intro c hc
        rcases List.mem_cons.mp hc with rfl | hc
        · exact hreset
        · exact getD_mem_free h.free c hc
      · exact hleave.used
      · -- what the reset leaves of the pool's memory was there before
        have hnew : (memoryOf (l₁ ++ l₂ ++ (cp.freeList.set m.factoryData
            ({ m with pool := resetPool m.pool } :: cp.freeList.getD m.factoryData [])).flatten)).Perm
              ((resetPool m.pool).memory ++ memoryOf (l₁ ++ l₂ ++ cp.freeList.flatten)) := by
          have hp' := memoryOf_perm ((hput.append_left (l₁ ++ l₂)).trans List.perm_middle)
          rwa [memoryOf_cons] at hp'
        refine Laid.perm ?_ hnew.symm
        rw [← memoryOf_append] at hparts
        refine (h.laid.perm hparts).sublist ?_
        rw [hreset.memory, haddr, hpre]
        exact (List.sublist_append_right pre _).append_right _
      · dsimp only
        rw [hsum, capacities_perm hput, capacities_cons, h.capacity, hreset.capacity]
        omega
      · dsimp only
        rw [hsum]
        omega
      · exact hleave.count

/-! ## Every run -/

/-- What is promised of the factory's lists and counters. -/
structure CacheGood (cp : CachingPool) : Prop where
  /-- A pool of a free list has been reset, and is as large as the list says. -/
  free : ∀ i l, cp.freeList[i]? = some l → ∀ m ∈ l,
    (∃ b, m.pool.blockList = [b] ∧ b.cur = alignPtr b.buf) ∧ m.pool.capacity = poolSize i
  capacity : cp.capacity = capacities cp.freeList.flatten
  max : cp.capacity ≤ cp.maxCapacity
  count : cp.usedCount = cp.usedList.length
  /-- Every pool is in one list. -/
  once : (cp.pools.map fun m => m.pool.addr).Nodup

/-- What `block_alloc` returns in an operation is fresh memory. -/
def CacheOp.Granted (cp : CachingPool) : CacheOp → Prop
  | .create initialSize _ grant => CreateGranted cp initialSize.toNat grant
  | .release _ => True
  | .use addr u => ∀ m ∈ cp.usedList, m.pool.addr = addr → u.Granted (memoryOf cp.pools) m.pool

/-- Pools with memory at their own addresses are at different addresses. -/
theorem nodup_addr {l : List Member} (hlaid : Laid (memoryOf l))
    (hfirst : ∀ m ∈ l, ∃ size, 0 < size ∧ FirstBlock m.pool size) :
    (l.map fun m => m.pool.addr).Nodup := by
  induction l with
  | nil => simp
  | cons m l ih =>
      rw [memoryOf_cons] at hlaid
      rw [List.map_cons, List.nodup_cons]
      constructor
      · intro hmem
        rcases List.mem_map.mp hmem with ⟨m', hm', haddr⟩
        rcases hfirst m List.mem_cons_self with ⟨size, hpos, hf⟩
        rcases hfirst m' (List.mem_cons_of_mem m hm') with ⟨size', hpos', hf'⟩
        rcases hf.memory with ⟨pre, hpre⟩
        rcases hf'.memory with ⟨pre', hpre'⟩
        have hapart := (List.pairwise_append.mp hlaid.apart).2.2 ⟨m.pool.addr, size⟩ (by simp [hpre])
          ⟨m'.pool.addr, size'⟩ (List.mem_flatMap.mpr ⟨m', hm', by simp [hpre']⟩)
        unfold Region.Apart Region.stop at hapart
        dsimp only at hapart
        omega
      · apply ih
        · exact hlaid.sublist (List.sublist_append_right _ _)
        · exact fun c hc => hfirst c (List.mem_cons_of_mem m hc)

theorem CacheInv.good (h : CacheInv cp) : CacheGood cp := by
  constructor
  · intro i l hl m hm
    have hreset := h.free i l hl m hm
    rcases hreset.blocks with ⟨b, hb, hcur, -⟩
    exact ⟨⟨b, hb, hcur⟩, hreset.capacity⟩
  · exact h.capacity
  · exact h.max
  · exact h.count
  · apply nodup_addr h.laid
    intro m hm
    rcases List.mem_append.mp hm with hm | hm
    · rcases (h.used m hm).first with ⟨hlt, hfirst⟩ | ⟨-, size, hlarge, hfirst⟩
      · exact ⟨_, poolSize_pos hlt, hfirst⟩
      · exact ⟨size, Nat.zero_lt_of_lt hlarge, hfirst⟩
    · rcases List.mem_flatten.mp hm with ⟨l, hl, hml⟩
      rcases List.getElem?_of_mem hl with ⟨i, hi⟩
      have hlt : i < arraySize := by
        rw [← h.rows]
        exact (List.getElem?_eq_some_iff.mp hi).1
      exact ⟨_, poolSize_pos hlt, (h.free i l hi m hml).firstBlock⟩

theorem cacheInv_init (maxCapacity : Nat) : CacheInv (cachingPoolInit maxCapacity) := by
  constructor
  · simp [cachingPoolInit]
  · intro i l hl m hm
    simp only [cachingPoolInit, List.getElem?_replicate] at hl
    split at hl
    · cases hl
      cases hm
    · cases hl
  · simp [cachingPoolInit]
  · constructor
    · simp [cachingPoolInit, CachingPool.pools]
    · simp [cachingPoolInit, CachingPool.pools]
  · simp [cachingPoolInit, capacities]
  · simp [cachingPoolInit]
  · simp [cachingPoolInit]

/-- **One operation keeps the accounting.** -/
theorem CacheInv.step (h : CacheInv cp) {op : CacheOp} (hgrant : op.Granted cp) :
    Outcome.Holds CacheInv (fun e => e ≠ .arrayIndex) (cacheStep cp op) := by
  cases op with
  | create initialSize incrementSize grant =>
      exact (h.create initialSize.toNat incrementSize.toNat hgrant).1
  | release addr =>
      rcases h.release addr with ⟨cp', hrel, hinv⟩
      show Outcome.Holds _ _ (releasePool cp addr)
      rw [hrel]
      exact hinv
  | use addr u => exact h.usePool addr u hgrant

/-- **The accounting of the caching pool.** All along every run, whatever pools are created, used and
released, the lists and counters are as promised and a new pool is as large as was asked for, and the
assertion of `cpool_release_pool` does not fail. -/
theorem cache_run (maxCapacity : Nat) (ops : List CacheOp)
    (hgrant : Machine.Meets cacheStep (fun cp op => op.Granted cp) (cachingPoolInit maxCapacity) ops) :
    Machine.Always cacheStep (fun cp => CacheGood cp ∧ ∀ initialSize incrementSize grant,
        CreateGranted cp initialSize grant → ∀ pool,
          (createPool cp initialSize incrementSize grant).2 = some pool →
            initialSize ≤ pool.capacity) (cachingPoolInit maxCapacity) ops ∧
      Machine.run cacheStep (cachingPoolInit maxCapacity) ops ≠ .error .arrayIndex := by
  have hinit := cacheInv_init maxCapacity
  have hstep : ∀ cp op, CacheInv cp → op.Granted cp →
      Outcome.Holds CacheInv (fun e => e ≠ .arrayIndex) (cacheStep cp op) :=
    fun cp op h hok => h.step hok
  constructor
  · refine Machine.always_of_meets ?_ ?_ ops _ hinit hgrant
    · intro cp h
      refine ⟨CacheInv.good h, fun initialSize incrementSize grant hg pool hpool => ?_⟩
      exact (CacheInv.create h initialSize incrementSize hg).2 pool hpool
    · intro cp op cp' h hok hs
      have hout := hstep cp op h hok
      rw [hs] at hout
      exact hout
  · have hout := Machine.run_holds hstep ops _ hinit hgrant
    intro hrun
    rw [hrun] at hout
    exact hout rfl

instance decidableBlockGranted (memory : List Region) (pool : Pool) (size : Nat) (grant : Option Nat) :
    Decidable (BlockGranted memory pool size grant) :=
  inferInstanceAs (Decidable (∀ addr ∈ grant, addr + blockSize pool.incrementSize size < sizeRange ∧
    ∀ r ∈ memory, Region.Apart ⟨addr, blockSize pool.incrementSize size⟩ r))

instance decidableCreateGranted (cp : CachingPool) (initialSize : Nat) (grant : Option Nat) :
    Decidable (CreateGranted cp initialSize grant) :=
  inferInstanceAs (Decidable (∀ addr ∈ grant, addr + createSize initialSize < sizeRange ∧
    ∀ r ∈ memoryOf cp.pools, Region.Apart ⟨addr, createSize initialSize⟩ r))

instance decidableUseGranted (memory : List Region) (pool : Pool) : (u : Use) → Decidable (u.Granted memory pool)
  | .alloc _ _ => inferInstanceAs (Decidable (BlockGranted _ _ _ _))
  | .calloc _ _ _ => inferInstanceAs (Decidable (BlockGranted _ _ _ _))
  | .reset => inferInstanceAs (Decidable True)

instance decidableCacheOpGranted (cp : CachingPool) : (op : CacheOp) → Decidable (op.Granted cp)
  | .create _ _ _ => inferInstanceAs (Decidable (CreateGranted _ _ _))
  | .release _ => inferInstanceAs (Decidable True)
  | .use addr u => inferInstanceAs
      (Decidable (∀ m ∈ cp.usedList, m.pool.addr = addr → u.Granted (memoryOf cp.pools) m.pool))

/-- A pool of 1024 bytes grows, is released and given out again; one that is too large for every list is
released beside it. -/
def sampleCacheOps : List CacheOp :=
  [.create 1000 1000 (some 4096), .use 4096 (.alloc 2000 (some 8192)), .create 70000 0 (some 16384),
    .release 4096, .release 16384, .create 1024 500 none]

theorem cache_run_sample :
    Machine.Always cacheStep (fun cp => CacheGood cp ∧ ∀ initialSize incrementSize grant,
        CreateGranted cp initialSize grant → ∀ pool,
          (createPool cp initialSize incrementSize grant).2 = some pool →
            initialSize ≤ pool.capacity) (cachingPoolInit 100000) sampleCacheOps ∧
      Machine.run cacheStep (cachingPoolInit 100000) sampleCacheOps ≠ .error .arrayIndex := by
  have hgrant := Machine.checkRun_sound cacheStep (fun cp op => decide (op.Granted cp))
    (fun cp => decide (cp.usedCount = 1)) sampleCacheOps (cachingPoolInit 100000) (by decide +kernel)
  exact cache_run 100000 sampleCacheOps (hgrant.1.mono fun _ _ h => of_decide_eq_true h)

end PjPool
