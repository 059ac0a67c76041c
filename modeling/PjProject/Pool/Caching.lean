import PjProject.Pool.Pool

set_option autoImplicit false

/-! # The caching pool of `pj/pool_caching.c`

A factory that keeps the pools that are released, in 16 lists by the size of their first block, and
gives them out again. A pool is in the used list or in one of the free lists; its user may let it grow
and reset it. The user names a pool by its address.

`used_count` counts objects in memory and is a natural number; `capacity` is a `size_t`.
-/

namespace PjPool

/-- A pool of the factory, with its `factory_data`. -/
structure Member where
  pool : Pool
  factoryData : Nat
  deriving DecidableEq

/-- What `pj_caching_pool` keeps of its pools. -/
structure CachingPool where
  capacity : Nat
  maxCapacity : Nat
  usedCount : Nat
  freeList : List (List Member)
  usedList : List Member
  deriving DecidableEq

/-- `PJ_CACHING_POOL_ARRAY_SIZE`. -/
def arraySize : Nat := 16

/-- `pool_sizes`. -/
def poolSizes : List Nat :=
  [256, 512, 1024, 2048, 4096, 8192, 12288, 16384,
    20480, 24576, 28672, 32768, 40960, 49152, 57344, 65536]

/-- `pool_sizes[idx]`. -/
def poolSize (idx : Nat) : Nat := poolSizes.getD idx 0

/-- `START_SIZE`. -/
def startSize : Nat := 5

/-- The search from `START_SIZE-1` down, where the argument is `idx + 1`: it ends with the `++idx`
behind the loop. -/
def searchDown (initialSize : Nat) : Nat → Nat
  | 0 => 0
  | idx + 1 => if initialSize ≤ poolSize idx then searchDown initialSize idx else idx + 1

/-- The search from `START_SIZE+1` up, with the number of sizes that are left. -/
def searchUp (initialSize : Nat) : Nat → Nat → Nat
  | 0, idx => idx
  | left + 1, idx => if poolSize idx < initialSize then searchUp initialSize left (idx + 1) else idx

/-- The list that `cpool_create_pool` searches for a pool. -/
def sizeClass (initialSize : Nat) : Nat :=
  if initialSize ≤ poolSize startSize then searchDown initialSize startSize
  else searchUp initialSize (arraySize - (startSize + 1)) (startSize + 1)

/-- What can fail: the assertion of `cpool_release_pool`, or one of the pool. -/
inductive CacheFault where
  /-- `i<PJ_CACHING_POOL_ARRAY_SIZE`. -/
  | arrayIndex
  | pool (fault : Fault)
  deriving DecidableEq

/-- `pj_caching_pool_init`. -/
def cachingPoolInit (maxCapacity : Nat) : CachingPool :=
  { capacity := 0, maxCapacity := maxCapacity, usedCount := 0
    freeList := List.replicate arraySize [], usedList := [] }

/-- The size of the memory that `cpool_create_pool` asks for if it has no pool. -/
def createSize (initialSize : Nat) : Nat :=
  if sizeClass initialSize < arraySize then poolSize (sizeClass initialSize) else initialSize

/-- The used list with the pool, and its `factory_data`. -/
def CachingPool.use (cp : CachingPool) (pool : Pool) (idx : Nat) : CachingPool :=
  { cp with usedList := cp.usedList ++ [⟨pool, idx⟩], usedCount := cp.usedCount + 1 }

/-- `cpool_create_pool`. -/
def createPool (cp : CachingPool) (initialSize incrementSize : Nat) (grant : Option Nat) :
    CachingPool × Option Pool :=
  let idx := sizeClass initialSize
  match cp.freeList.getD idx [] with
  | [] =>
      -- no pool is available; there is no list for sizes above the largest one
      match createInt (createSize initialSize) incrementSize grant with
      | none => (cp, none)
      | some pool => (cp.use pool idx, some pool)
  | m :: rest =>
      let pool := { m.pool with incrementSize := incrementSize }
      let cp := { cp with
        freeList := cp.freeList.set idx rest
        capacity := if pool.capacity < cp.capacity then cp.capacity - pool.capacity else 0 }
      (cp.use pool idx, some pool)

/-- The pools around the one at an address, and that one. -/
def pick (addr : Nat) : List Member → Option (List Member × Member × List Member)
  | [] => none
  | m :: l =>
      if m.pool.addr = addr then some ([], m, l)
      else (pick addr l).map fun (l₁, m', l₂) => (m :: l₁, m', l₂)

/-- `cpool_release_pool` of a pool of the used list. -/
def releasePool (cp : CachingPool) (addr : Nat) : Except CacheFault CachingPool :=
  match pick addr cp.usedList with
  | none => .ok cp
  | some (l₁, m, l₂) =>
      let cp := { cp with usedList := l₁ ++ l₂, usedCount := cp.usedCount - 1 }
      if poolSize (arraySize - 1) < m.pool.capacity ∨
          cp.maxCapacity < (cp.capacity + m.pool.capacity) % sizeRange then
        -- destroyed
        .ok cp
      else
        let pool := resetPool m.pool
        let i := m.factoryData
        if arraySize ≤ i then .error .arrayIndex
        else .ok { cp with
          freeList := cp.freeList.set i ({ m with pool := pool } :: cp.freeList.getD i [])
          capacity := (cp.capacity + pool.capacity) % sizeRange }

/-- What the user of a pool does with it. -/
inductive Use where
  | alloc (size : UInt64) (grant : Option Nat)
  | calloc (count size : UInt64) (grant : Option Nat)
  | reset
  deriving DecidableEq

/-- The pool afterwards. -/
def Use.apply (pool : Pool) : Use → Except Fault Pool
  | .alloc size grant => (PjPool.alloc pool size.toNat grant).map Prod.snd
  | .calloc count size grant => (PjPool.calloc pool count.toNat size.toNat grant).map Prod.snd
  | .reset => .ok (resetPool pool)

/-- A pool of the used list is used. -/
def usePool (cp : CachingPool) (addr : Nat) (u : Use) : Except CacheFault CachingPool :=
  match pick addr cp.usedList with
  | none => .ok cp
  | some (l₁, m, l₂) =>
      match u.apply m.pool with
      | .error e => .error (.pool e)
      | .ok pool => .ok { cp with usedList := l₁ ++ { m with pool := pool } :: l₂ }

/-- The operations on the factory, with what `block_alloc` returns if it is asked. -/
inductive CacheOp where
  | create (initialSize incrementSize : UInt64) (grant : Option Nat)
  | release (addr : Nat)
  | use (addr : Nat) (u : Use)
  deriving DecidableEq

/-- One operation. -/
def cacheStep (cp : CachingPool) : CacheOp → Except CacheFault CachingPool
  | .create initialSize incrementSize grant =>
      .ok (createPool cp initialSize.toNat incrementSize.toNat grant).1
  | .release addr => releasePool cp addr
  | .use addr u => usePool cp addr u

end PjPool

/-! ## Sizes and memory of one pool of the factory

All memory that pools have is laid out without overlap (`Laid`), so it is less than `2^64` bytes and
the sums of capacities do not overflow. A pool of the used list knows by its `factory_data` how large its
first block is (`MemberOk`): that is what a reset leaves of it (`FirstBlock.reset`). A pool of a free
list has been reset and is as large as the list says (`IsReset`). The list for a size is the one that
`sizeClass_fits` says; how a pool changes under its user's calls is said by `Changed`.
-/

namespace PjPool

/-! ## Memory laid out without overlap -/

/-- The regions lie in the address space, apart from each other. -/
structure Laid (l : List Region) : Prop where
  apart : l.Pairwise Region.Apart
  bound : ∀ r ∈ l, r.stop < sizeRange

variable {l l' : List Region}

theorem Laid.perm (h : Laid l) (hp : l.Perm l') : Laid l' := by
  constructor
  · exact (hp.pairwise_iff fun hab => hab.symm).mp h.apart
  · exact fun r hr => h.bound r (hp.mem_iff.mpr hr)

theorem Laid.sublist (h : Laid l) (hs : l'.Sublist l) : Laid l' := by
  constructor
  · exact h.apart.sublist hs
  · exact fun r hr => h.bound r (hs.subset hr)

theorem Laid.cons (h : Laid l) {r : Region} (hr : r.stop < sizeRange) (ha : ∀ s ∈ l, r.Apart s) :
    Laid (r :: l) := by
  constructor
  · exact List.pairwise_cons.mpr ⟨ha, h.apart⟩
  · intro s hs
    rcases List.mem_cons.mp hs with rfl | hs
    · exact hr
    · exact h.bound s hs

/-- **The memory of all pools is less than `2^64` bytes.** -/
theorem Laid.total_lt (h : Laid l) : Region.total l < sizeRange := by
  have hpos : 0 < sizeRange := by
    unfold sizeRange
    omega
  have hle : Region.total l ≤ sizeRange - 1 :=
    Region.total_le h.apart fun r hr => Nat.le_sub_one_of_lt (h.bound r hr)
  omega

/-! ## Size classes -/

theorem searchDown_le (initialSize k : Nat) : searchDown initialSize k ≤ k := by
  induction k with
  | zero => simp [searchDown]
  | succ k ih =>
      unfold searchDown
      split
      · omega
      · exact Nat.le_refl _

/-- The list that the downward search ends with is large enough, if the one that it begins below is. -/
theorem searchDown_fits {initialSize k : Nat} (h : initialSize ≤ poolSize k) :
    initialSize ≤ poolSize (searchDown initialSize k) := by
  induction k with
  | zero => exact h
  | succ k ih =>
      unfold searchDown
      by_cases hk : initialSize ≤ poolSize k
      · rw [if_pos hk]
        exact ih hk
      · rw [if_neg hk]
        exact h

/-- The upward search ends with a list that is large enough, or with none. -/
theorem searchUp_fits (initialSize left idx : Nat) :
    searchUp initialSize left idx ≤ left + idx ∧
      (searchUp initialSize left idx < left + idx →
        initialSize ≤ poolSize (searchUp initialSize left idx)) := by
  induction left generalizing idx with
  | zero => simp [searchUp]
  | succ left ih =>
      unfold searchUp
      by_cases hlt : poolSize idx < initialSize
      · rw [if_pos hlt]
        have hrest := ih (idx + 1)
        rw [show left + 1 + idx = left + (idx + 1) by omega]
        exact hrest
      · rw [if_neg hlt]
        exact ⟨by omega, fun _ => Nat.le_of_not_lt hlt⟩

/-- The upward search ends with none only if the largest size is too small. -/
theorem searchUp_all {initialSize left idx : Nat}
    (h : searchUp initialSize left idx = left + idx) (hleft : 0 < left) :
    poolSize (left + idx - 1) < initialSize := by
  induction left generalizing idx with
  | zero => omega
  | succ left ih =>
      unfold searchUp at h
      by_cases hlt : poolSize idx < initialSize
      · rw [if_pos hlt] at h
        rcases Nat.eq_zero_or_pos left with rfl | hpos
        · simpa using hlt
        · have hrest := @ih (idx + 1) (by omega) hpos
          rw [show left + (idx + 1) - 1 = left + 1 + idx - 1 by omega] at hrest
          exact hrest
      · rw [if_neg hlt] at h
        omega

/-- **The list for a size.** It has room for the size; there is none only above the largest size. -/
theorem sizeClass_fits (initialSize : Nat) :
    (sizeClass initialSize < arraySize ∧ initialSize ≤ poolSize (sizeClass initialSize)) ∨
      (sizeClass initialSize = arraySize ∧ poolSize (arraySize - 1) < initialSize) := by
  unfold sizeClass
  by_cases hstart : initialSize ≤ poolSize startSize
  · left
    rw [if_pos hstart]
    have hle := searchDown_le initialSize startSize
    refine ⟨?_, searchDown_fits hstart⟩
    unfold startSize arraySize at *
    omega
  · rw [if_neg hstart]
    rcases searchUp_fits initialSize (arraySize - (startSize + 1)) (startSize + 1) with ⟨hle, hfits⟩
    rcases Nat.lt_or_eq_of_le hle with hlt | heq
    · left
      refine ⟨?_, hfits hlt⟩
      unfold startSize arraySize at *
      omega
    · right
      have hall := searchUp_all heq (by decide)
      refine ⟨?_, ?_⟩
      · rw [heq]
        rfl
      · exact hall

theorem le_createSize (initialSize : Nat) : initialSize ≤ createSize initialSize := by
  unfold createSize
  rcases sizeClass_fits initialSize with ⟨hlt, hfits⟩ | ⟨heq, -⟩
  · rw [if_pos hlt]
    exact hfits
  · rw [if_neg (by omega)]

theorem poolSize_pos {idx : Nat} (h : idx < arraySize) : 0 < poolSize idx := by
  revert idx
  decide

/-! ## One pool -/

/-- The first block of the pool, with the pool in front, has the size. -/
def FirstBlock (pool : Pool) (size : Nat) : Prop :=
  ∃ b, pool.blockList.getLast? = some b ∧ b.stop = pool.addr + size

/-- A pool of the used list. -/
structure MemberOk (m : Member) : Prop where
  capacity : m.pool.capacity = Region.total m.pool.memory
  first : (m.factoryData < arraySize ∧ FirstBlock m.pool (poolSize m.factoryData)) ∨
    (m.factoryData = arraySize ∧ ∃ size, poolSize (arraySize - 1) < size ∧ FirstBlock m.pool size)

/-- A pool that has been reset, of the given capacity. -/
structure IsReset (pool : Pool) (size : Nat) : Prop where
  blocks : ∃ b, pool.blockList = [b] ∧ b.cur = alignPtr b.buf ∧ b.stop = pool.addr + size
  capacity : pool.capacity = size

variable {pool pool' : Pool} {size n : Nat} {grant : Option Nat}

/-- The memory of a pool ends with that of its first block. -/
theorem FirstBlock.memory (h : FirstBlock pool size) :
    ∃ pre, pool.memory = pre ++ [⟨pool.addr, size⟩] := by
  rcases h with ⟨b, hlast, hstop⟩
  rcases List.getLast?_eq_some_iff.mp hlast with ⟨l, hl⟩
  have hsize : b.stop - pool.addr = size := by omega
  unfold Pool.memory
  rw [hl]
  clear hl hlast
  induction l with
  | nil => exact ⟨[], by simp [blocksMemory, hsize]⟩
  | cons c l ih =>
      rcases ih with ⟨pre, hpre⟩
      refine ⟨⟨c.addr, c.stop - c.addr⟩ :: pre, ?_⟩
      rw [List.cons_append, blocksMemory_cons pool.addr c (by simp), hpre]
      rfl

theorem FirstBlock.le_total (h : FirstBlock pool size) : size ≤ Region.total pool.memory := by
  rcases h.memory with ⟨pre, hpre⟩
  simp [hpre]

theorem IsReset.memory (h : IsReset pool size) : pool.memory = [⟨pool.addr, size⟩] := by
  rcases h.blocks with ⟨b, hb, -, hstop⟩
  have hsize : b.stop - pool.addr = size := by omega
  simp [Pool.memory, hb, blocksMemory, hsize]

theorem IsReset.firstBlock (h : IsReset pool size) : FirstBlock pool size := by
  rcases h.blocks with ⟨b, hb, -, hstop⟩
  exact ⟨b, by simp [hb], hstop⟩

/-- **A reset leaves the first block.** -/
theorem FirstBlock.reset (h : FirstBlock pool size) (hlt : pool.addr + size < sizeRange) :
    IsReset (resetPool pool) size ∧ (resetPool pool).addr = pool.addr := by
  rcases h with ⟨b, hlast, hstop⟩
  have hcap : (b.stop + sizeRange - pool.addr) % sizeRange = size := by
    rw [hstop, show pool.addr + size + sizeRange - pool.addr = size + sizeRange by omega,
      Nat.add_mod_right, Nat.mod_eq_of_lt (by omega)]
  have heq : resetPool pool =
      { pool with capacity := size, blockList := [{ b with cur := alignPtr b.buf }] } := by
    simp only [resetPool, hlast, hcap]
  rw [heq]
  exact ⟨⟨⟨_, rfl, rfl, hstop⟩, rfl⟩, rfl⟩

/-- A pool from `pj_pool_create_int` is as if it had been reset. -/
theorem createInt_isReset {initialSize incrementSize addr : Nat}
    (h : createInt initialSize incrementSize (some addr) = some pool)
    (hlt : addr + initialSize < sizeRange) : IsReset pool initialSize ∧ pool.addr = addr := by
  unfold createInt at h
  by_cases hsmall : initialSize < sizeofPool + sizeofBlock
  · rw [if_pos hsmall] at h
    cases h
  · rw [if_neg hsmall] at h
    simp only [Option.some.injEq, Nat.mod_eq_of_lt hlt] at h
    rw [← h]
    exact ⟨⟨⟨_, rfl, rfl, rfl⟩, rfl⟩, rfl⟩

/-- How the user of a pool changes it: it stays at its address with its first block, its memory is part
of what it had with the `extra` memory, and its capacity is that of its memory. -/
structure Changed (pool pool' : Pool) (extra : List Region) : Prop where
  addr : pool'.addr = pool.addr
  first : ∀ size, FirstBlock pool size → FirstBlock pool' size
  memory : pool'.memory.Sublist (extra ++ pool.memory)
  capacity : pool'.capacity = Region.total pool'.memory

/-- The last block stays where it is. -/
theorem FirstBlock.serve {l₁ l₂ : List Block} {b b' : Block} {p : Nat} (h : FirstBlock pool size)
    (hl : pool.blockList = l₁ ++ b :: l₂) (hb : allocFromBlock b n = some (p, b')) :
    FirstBlock { pool with blockList := l₁ ++ b' :: l₂ } size := by
  rcases allocFromBlock_keeps hb with ⟨-, -, -, hkeep⟩
  rcases h with ⟨c, hlast, hstop⟩
  rw [hl, List.getLast?_append_cons] at hlast
  cases l₂ with
  | nil =>
      cases hlast
      exact ⟨b', by simp, by rw [hkeep]; exact hstop⟩
  | cons d l₂ =>
      rw [List.getLast?_cons_cons] at hlast
      refine ⟨c, ?_, hstop⟩
      rw [List.getLast?_append_cons, List.getLast?_cons_cons]
      exact hlast

/-- What `block_alloc` returns for a request of the pool's user: a block that lies in the address space and
apart from all memory of the factory. -/
def BlockGranted (memory : List Region) (pool : Pool) (size : Nat) (grant : Option Nat) : Prop :=
  ∀ addr, grant = some addr → addr + blockSize pool.incrementSize size < sizeRange ∧
    ∀ r ∈ memory, Region.Apart ⟨addr, blockSize pool.incrementSize size⟩ r

/-- The block that is returned, if any. -/
def blockRegions (pool : Pool) (size : Nat) : Option Nat → List Region
  | none => []
  | some addr => [⟨addr, blockSize pool.incrementSize size⟩]

theorem BlockGranted.laid {memory : List Region} (hl : Laid memory)
    (h : BlockGranted memory pool n grant) : Laid (blockRegions pool n grant ++ memory) := by
  cases grant with
  | none => exact hl
  | some addr =>
      rcases h addr rfl with ⟨hlt, hapart⟩
      exact hl.cons hlt hapart

/-- Nothing changes, whatever is granted. -/
theorem changed_refl (hcap : pool.capacity = Region.total pool.memory) (extra : List Region) :
    Changed pool pool extra :=
  ⟨rfl, fun _ h => h, List.sublist_append_right _ _, hcap⟩

/-- **An allocation** adds at most the granted block to the memory of the pool. -/
theorem alloc_changed {memory : List Region} (hcap : pool.capacity = Region.total pool.memory)
    (hlaid : Laid pool.memory) (hne : pool.blockList ≠ []) (hsub : ∀ r ∈ pool.memory, r ∈ memory)
    (hgrant : BlockGranted memory pool n grant) {p : Option Nat}
    (h : alloc pool n grant = .ok (p, pool')) :
    Changed pool pool' (blockRegions pool n grant) := by
  rcases alloc_cases pool n grant with ⟨l₁, b, b', l₂, q, hl, hb, hr⟩ | ⟨-, hrest⟩
  · rw [hr] at h
    cases h
    have hmem := memory_serve hl hb
    refine ⟨rfl, fun size hf => hf.serve hl hb, ?_, ?_⟩
    · rw [hmem]
      exact List.sublist_append_right _ _
    · rw [hmem]
      exact hcap
  rcases hrest with ⟨hr, -⟩ | ⟨-, -, hr⟩ | ⟨-, -, addr, rfl, ⟨q, b', hb, hr⟩ | ⟨-, hr⟩⟩
  · rw [hr] at h
    cases h
    exact changed_refl hcap _
  · rw [hr] at h
    cases h
  · rw [hr] at h
    cases h
    rcases hgrant addr rfl with ⟨hlt, hapart⟩
    have hmem := memory_grown hne hlt hb
    have hnew : Laid (⟨addr, blockSize pool.incrementSize n⟩ :: pool.memory) :=
      hlaid.cons hlt fun r hr => hapart r (hsub r hr)
    have htotal := hnew.total_lt
    rw [Region.total_cons] at htotal
    dsimp only at htotal
    refine ⟨rfl, ?_, ?_, ?_⟩
    · rintro size ⟨c, hlast, hstop⟩
      refine ⟨c, ?_, hstop⟩
      show (b' :: pool.blockList).getLast? = some c
      rw [List.getLast?_cons, hlast]
      rfl
    · rw [hmem]
      simp [blockRegions]
    · rw [hmem, Region.total_cons]
      show (pool.capacity + _) % sizeRange = _
      rw [hcap, Nat.mod_eq_of_lt (by omega), Nat.add_comm]
  · rw [hr] at h
    cases h

/-- A reset leaves part of the memory. -/
theorem reset_changed (hf : FirstBlock pool size) (hlaid : Laid pool.memory) :
    Changed pool (resetPool pool) [] := by
  rcases hf.memory with ⟨pre, hpre⟩
  have hlt : pool.addr + size < sizeRange := hlaid.bound ⟨pool.addr, size⟩ (by simp [hpre])
  rcases hf.reset hlt with ⟨hreset, haddr⟩
  refine ⟨haddr, fun size' hf' => ?_, ?_, ?_⟩
  · -- the first block has one size
    rcases hf with ⟨b, hb, hstop⟩
    rcases hf' with ⟨b', hb', hstop'⟩
    rw [hb] at hb'
    cases hb'
    have heq : size' = size := by omega
    rw [heq]
    exact hreset.firstBlock
  · rw [hreset.memory, haddr, hpre]
    simp
  · rw [hreset.memory, hreset.capacity]
    simp

end PjPool
