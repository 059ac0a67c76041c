import PjProject.Library.Regions
import PjProject.Library.Run

set_option autoImplicit false

/-! # The memory pool of `pj/pool.c`

A pool is a list of blocks, the newest one in front and the one that it was created with at the end;
that one lies behind the pool itself, in the same memory. Addresses and sizes are `size_t` and
pointers of 64 bits, so every sum is taken modulo `2^64`. With `PJ_MAX_OBJ_NAME` 32 a pool has 128 bytes
and the header of a block 40; `PJ_POOL_ALIGNMENT` is 4.

What the factory's `block_alloc` returns is an argument, `grant`: an address, or `none` for `NULL`. The
policy's callback ends in no memory handed out, whether it returns or throws.
-/

namespace PjPool

/-- The range of `size_t`. It is irreducible, so that no definitional unfolding counts up to it. -/
@[irreducible] def sizeRange : Nat := 18446744073709551616

/-- `sizeof(pj_pool_t)`. -/
def sizeofPool : Nat := 128

/-- `sizeof(pj_pool_block)`. -/
def sizeofBlock : Nat := 40

/-- `PJ_POOL_ALIGNMENT`. -/
def alignment : Nat := 4

/-- `pj_pool_block`, with its own address; `stop` is the field `end`. -/
structure Block where
  addr : Nat
  buf : Nat
  cur : Nat
  stop : Nat
  deriving DecidableEq

/-- What the pool functions use of `pj_pool_t`, with its own address. -/
structure Pool where
  addr : Nat
  capacity : Nat
  incrementSize : Nat
  blockList : List Block
  deriving DecidableEq

/-- The assertions of `pool.c`. -/
inductive Fault where
  /-- `size >= sizeof(pj_pool_block)`. -/
  | blockSize
  /-- `p != NULL`. -/
  | pointer
  deriving DecidableEq

/-- `ALIGN_PTR`. -/
def alignPtr (ptr : Nat) : Nat := (ptr + (sizeRange - ptr % sizeRange) % alignment) % sizeRange

/-- `pj_pool_alloc_from_block`: the address, and the block afterwards. -/
def allocFromBlock (block : Block) (size : Nat) : Option (Nat × Block) :=
  let size :=
    if size % alignment ≠ 0 then
      -- `& ~(PJ_POOL_ALIGNMENT-1)` clears the low bits of the sum
      let sum := (size + alignment) % sizeRange
      sum - sum % alignment
    else size
  if size ≤ (block.stop + sizeRange - block.cur) % sizeRange then
    some (block.cur, { block with cur := (block.cur + size) % sizeRange })
  else none

/-- The block that `pj_pool_create_block` makes of memory from the factory. -/
def newBlock (addr size : Nat) : Block :=
  let buf := (addr + sizeofBlock) % sizeRange
  { addr := addr, buf := buf, cur := alignPtr buf, stop := (addr + size) % sizeRange }

/-- `pj_pool_create_block`: `none` if the factory has no memory. -/
def createBlock (pool : Pool) (size : Nat) (grant : Option Nat) : Except Fault (Option Pool) :=
  if size < sizeofBlock then .error .blockSize
  else
    match grant with
    | none => .ok none
    | some addr =>
        .ok (some { pool with
          capacity := (pool.capacity + size) % sizeRange
          blockList := newBlock addr size :: pool.blockList })

/-- The loop of `pj_pool_allocate_find`: the first block with room, and the list afterwards. -/
def findRoom (size : Nat) : List Block → Option (Nat × List Block)
  | [] => none
  | block :: blocks =>
      match allocFromBlock block size with
      | some (p, block') => some (p, block' :: blocks)
      | none => (findRoom size blocks).map fun (p, blocks') => (p, block :: blocks')

/-- The size of the block that a pool asks for to serve a request. -/
def blockSize (incrementSize size : Nat) : Nat :=
  if incrementSize < (size + sizeofBlock + alignment) % sizeRange then
    let count := (size + incrementSize + sizeofBlock + alignment) % sizeRange / incrementSize
    count * incrementSize % sizeRange
  else incrementSize

/-- `pj_pool_allocate_find`. -/
def allocateFind (pool : Pool) (size : Nat) (grant : Option Nat) : Except Fault (Option Nat × Pool) :=
  match findRoom size pool.blockList with
  | some (p, blocks) => .ok (some p, { pool with blockList := blocks })
  | none =>
      if pool.incrementSize = 0 then .ok (none, pool)
      else
        match createBlock pool (blockSize pool.incrementSize size) grant with
        | .error e => .error e
        | .ok none => .ok (none, pool)
        | .ok (some pool) =>
            match pool.blockList with
            | [] => .ok (none, pool)
            | block :: blocks =>
                match allocFromBlock block size with
                | some (p, block') => .ok (some p, { pool with blockList := block' :: blocks })
                | none => .error .pointer

/-- `pj_pool_alloc`. -/
def alloc (pool : Pool) (size : Nat) (grant : Option Nat) : Except Fault (Option Nat × Pool) :=
  match pool.blockList with
  | [] => allocateFind pool size grant
  | block :: blocks =>
      match allocFromBlock block size with
      | some (p, block') => .ok (some p, { pool with blockList := block' :: blocks })
      | none => allocateFind pool size grant

/-- `pj_pool_calloc`. -/
def calloc (pool : Pool) (count size : Nat) (grant : Option Nat) : Except Fault (Option Nat × Pool) :=
  alloc pool (size * count % sizeRange) grant

/-- `pj_pool_create_int`: `NULL` if the initial size is too small or there is no memory. -/
def createInt (initialSize incrementSize : Nat) (grant : Option Nat) : Option Pool :=
  if initialSize < sizeofPool + sizeofBlock then none
  else
    match grant with
    | none => none
    | some addr =>
        let block := (addr + sizeofPool) % sizeRange
        let buf := (block + sizeofBlock) % sizeRange
        some {
          addr := addr
          capacity := initialSize
          incrementSize := incrementSize
          blockList := [⟨block, buf, alignPtr buf, (addr + initialSize) % sizeRange⟩] }

/-- `reset_pool`: only the block at the end of the list stays. -/
def resetPool (pool : Pool) : Pool :=
  match pool.blockList.getLast? with
  | none => pool
  | some block =>
      { pool with
        capacity := (block.stop + sizeRange - pool.addr) % sizeRange
        blockList := [{ block with cur := alignPtr block.buf }] }

end PjPool

/-! ## What one allocation does

`alloc_cases` says once what `pj_pool_alloc` can do: serve the request from a block of the pool, find
that it may not grow, or ask the factory for a block. The memory of a pool is that of its blocks,
where the memory of the last block, with which the pool was created, begins at the pool itself; an
allocation from a block leaves it as it is (`memory_serve`).
-/

namespace PjPool

/-! ## One block -/

theorem allocFromBlock_keeps {b b' : Block} {size p : Nat} (h : allocFromBlock b size = some (p, b')) :
    p = b.cur ∧ b'.addr = b.addr ∧ b'.buf = b.buf ∧ b'.stop = b.stop := by
  unfold allocFromBlock at h
  generalize (if size % alignment ≠ 0 then
    (size + alignment) % sizeRange - (size + alignment) % sizeRange % alignment else size) = sz at h
  by_cases hfit : sz ≤ (b.stop + sizeRange - b.cur) % sizeRange
  · simp only [if_pos hfit, Option.some.injEq, Prod.mk.injEq] at h
    rcases h with ⟨rfl, rfl⟩
    simp
  · simp [if_neg hfit] at h

/-- The request with its size rounded up to the alignment. -/
def roundUp (n : Nat) : Nat := (n + 3) / 4 * 4

/-- A block whose allocations have not gone beyond its end. -/
structure Block.Wf (b : Block) : Prop where
  header : sizeofBlock ≤ b.buf
  buf_le : b.buf ≤ b.cur
  cur_le : b.cur ≤ b.stop
  stop_lt : b.stop < sizeRange
  aligned : b.cur % alignment = 0

/-- **An allocation from a block**, as long as the rounding does not overflow. -/
theorem allocFromBlock_eq {b : Block} (hb : b.Wf) {size : Nat} (hsize : size + 4 ≤ sizeRange) :
    allocFromBlock b size =
      if b.cur + roundUp size ≤ b.stop then some (b.cur, { b with cur := b.cur + roundUp size })
      else none := by
  have hcur := hb.cur_le
  have hstop := hb.stop_lt
  have hround : (if size % alignment ≠ 0 then
      (size + alignment) % sizeRange - (size + alignment) % sizeRange % alignment else size) =
        roundUp size := by
    unfold roundUp sizeRange alignment at *
    split
    · omega
    · omega
  have hroom : (b.stop + sizeRange - b.cur) % sizeRange = b.stop - b.cur := by
    unfold sizeRange at *
    omega
  unfold allocFromBlock
  simp only [hround, hroom]
  by_cases hfit : b.cur + roundUp size ≤ b.stop
  · have hmod : (b.cur + roundUp size) % sizeRange = b.cur + roundUp size := Nat.mod_eq_of_lt (by omega)
    rw [if_pos hfit, if_pos (by omega), hmod]
  · rw [if_neg hfit, if_neg (by omega)]

/-- What follows the first `k` bytes of memory that begins at `addr`, aligned. -/
def padding (addr : Nat) : Nat := (4 - addr % 4) % 4

theorem alignPtr_eq {ptr : Nat} (h : ptr + padding ptr < sizeRange) :
    alignPtr ptr = ptr + padding ptr := by
  unfold alignPtr padding sizeRange alignment at *
  omega

/-! ## Searching the blocks -/

theorem findRoom_some {size p : Nat} {blocks blocks' : List Block}
    (h : findRoom size blocks = some (p, blocks')) :
    ∃ l₁ b b' l₂, blocks = l₁ ++ b :: l₂ ∧ blocks' = l₁ ++ b' :: l₂ ∧
      allocFromBlock b size = some (p, b') := by
  induction blocks generalizing blocks' with
  | nil => cases h
  | cons b blocks ih =>
      unfold findRoom at h
      split at h
      next p' b' hb =>
        cases h
        exact ⟨[], b, b', blocks, rfl, rfl, hb⟩
      next hb =>
        rcases Option.map_eq_some_iff.mp h with ⟨⟨p', l'⟩, hrest, heq⟩
        cases heq
        rcases ih hrest with ⟨l₁, c, c', l₂, rfl, rfl, hc⟩
        exact ⟨b :: l₁, c, c', l₂, rfl, rfl, hc⟩

theorem findRoom_none {size : Nat} {blocks : List Block} (h : findRoom size blocks = none) :
    ∀ b ∈ blocks, allocFromBlock b size = none := by
  induction blocks with
  | nil => simp
  | cons b blocks ih =>
      unfold findRoom at h
      split at h
      next => cases h
      next hb =>
        have hrest := ih (Option.map_eq_none_iff.mp h)
        intro c hc
        rcases List.mem_cons.mp hc with rfl | hc
        · exact hb
        · exact hrest c hc

/-! ## `pj_pool_alloc` -/

/-- A request is served from a block of the pool. -/
def Served (pool : Pool) (size : Nat) (r : Except Fault (Option Nat × Pool)) : Prop :=
  ∃ l₁ b b' l₂ p, pool.blockList = l₁ ++ b :: l₂ ∧ allocFromBlock b size = some (p, b') ∧
    r = .ok (some p, { pool with blockList := l₁ ++ b' :: l₂ })

/-- The pool with the block of the given size at its front, from which a request has been served. -/
def grown (pool : Pool) (size : Nat) (block : Block) : Pool :=
  { pool with
    capacity := (pool.capacity + size) % sizeRange
    blockList := block :: pool.blockList }

/-- A request is served from a new block of the given size. -/
def Grown (pool : Pool) (bsize size : Nat) (grant : Option Nat)
    (r : Except Fault (Option Nat × Pool)) : Prop :=
  ∃ addr, grant = some addr ∧
    ((∃ p b', allocFromBlock (newBlock addr bsize) size = some (p, b') ∧
        r = .ok (some p, grown pool bsize b')) ∨
      allocFromBlock (newBlock addr bsize) size = none ∧ r = .error .pointer)

/-- No block of the pool has room for the request. -/
def NoRoom (pool : Pool) (size : Nat) : Prop := ∀ b ∈ pool.blockList, allocFromBlock b size = none

theorem allocateFind_cases (pool : Pool) (size : Nat) (grant : Option Nat) :
    Served pool size (allocateFind pool size grant) ∨
    NoRoom pool size ∧
      (allocateFind pool size grant = .ok (none, pool) ∧
          (pool.incrementSize = 0 ∨
            sizeofBlock ≤ blockSize pool.incrementSize size ∧ grant = none) ∨
        pool.incrementSize ≠ 0 ∧ blockSize pool.incrementSize size < sizeofBlock ∧
          allocateFind pool size grant = .error .blockSize ∨
        pool.incrementSize ≠ 0 ∧ sizeofBlock ≤ blockSize pool.incrementSize size ∧
          Grown pool (blockSize pool.incrementSize size) size grant
            (allocateFind pool size grant)) := by
  unfold allocateFind
  cases hroom : findRoom size pool.blockList with
  | some r =>
      left
      rcases r with ⟨p, blocks⟩
      rcases findRoom_some hroom with ⟨l₁, b, b', l₂, hl, rfl, hb⟩
      exact ⟨l₁, b, b', l₂, p, hl, hb, rfl⟩
  | none =>
      right
      refine ⟨findRoom_none hroom, ?_⟩
      by_cases hinc : pool.incrementSize = 0
      · left
        simp [hinc]
      by_cases hsmall : blockSize pool.incrementSize size < sizeofBlock
      · right
        left
        simp [hinc, hsmall, createBlock]
      cases grant with
      | none =>
          left
          refine ⟨?_, .inr ⟨Nat.le_of_not_lt hsmall, rfl⟩⟩
          simp [hinc, hsmall, createBlock]
      | some addr =>
          right
          right
          refine ⟨hinc, Nat.le_of_not_lt hsmall, addr, rfl, ?_⟩
          simp only [if_neg hinc, createBlock, if_neg hsmall]
          cases hb : allocFromBlock (newBlock addr (blockSize pool.incrementSize size)) size with
          | none => exact .inr ⟨rfl, rfl⟩
          | some r => exact .inl ⟨r.1, r.2, rfl, rfl⟩

/-- **What an allocation can do.** -/
theorem alloc_cases (pool : Pool) (size : Nat) (grant : Option Nat) :
    Served pool size (alloc pool size grant) ∨
    NoRoom pool size ∧
      (alloc pool size grant = .ok (none, pool) ∧
          (pool.incrementSize = 0 ∨
            sizeofBlock ≤ blockSize pool.incrementSize size ∧ grant = none) ∨
        pool.incrementSize ≠ 0 ∧ blockSize pool.incrementSize size < sizeofBlock ∧
          alloc pool size grant = .error .blockSize ∨
        pool.incrementSize ≠ 0 ∧ sizeofBlock ≤ blockSize pool.incrementSize size ∧
          Grown pool (blockSize pool.incrementSize size) size grant (alloc pool size grant)) := by
  have hfind := allocateFind_cases pool size grant
  cases hl : pool.blockList with
  | nil =>
      have heq : alloc pool size grant = allocateFind pool size grant := by simp [alloc, hl]
      rw [heq]
      exact hfind
  | cons b blocks =>
      cases hb : allocFromBlock b size with
      | none =>
          have heq : alloc pool size grant = allocateFind pool size grant := by simp [alloc, hl, hb]
          rw [heq]
          exact hfind
      | some r => exact .inl ⟨[], b, r.2, blocks, r.1, hl, hb, by simp [alloc, hl, hb]⟩

/-! ## The memory of a pool -/

/-- The memory of the blocks of a pool that lies at `addr`. -/
def blocksMemory (addr : Nat) : List Block → List Region
  | [] => []
  | [b] => [⟨addr, b.stop - addr⟩]
  | b :: blocks => ⟨b.addr, b.stop - b.addr⟩ :: blocksMemory addr blocks

/-- The memory that a pool has from the factory. -/
def Pool.memory (pool : Pool) : List Region := blocksMemory pool.addr pool.blockList

theorem blocksMemory_cons (addr : Nat) (b : Block) {blocks : List Block} (h : blocks ≠ []) :
    blocksMemory addr (b :: blocks) = ⟨b.addr, b.stop - b.addr⟩ :: blocksMemory addr blocks := by
  cases blocks with
  | nil => exact absurd rfl h
  | cons c blocks => rfl

/-- Blocks at the same places have the same memory. -/
theorem blocksMemory_congr (addr : Nat) {b b' : Block} (haddr : b'.addr = b.addr)
    (hstop : b'.stop = b.stop) (l₁ l₂ : List Block) :
    blocksMemory addr (l₁ ++ b' :: l₂) = blocksMemory addr (l₁ ++ b :: l₂) := by
  induction l₁ with
  | nil =>
      cases l₂ with
      | nil => simp [blocksMemory, hstop]
      | cons c l₂ => simp [blocksMemory, haddr, hstop]
  | cons c l₁ ih =>
      rw [List.cons_append, List.cons_append, blocksMemory_cons addr c (by simp),
        blocksMemory_cons addr c (by simp), ih]

/-- Serving a request from a block leaves the memory of the pool as it is. -/
theorem memory_serve {pool : Pool} {l₁ l₂ : List Block} {b b' : Block} {size p : Nat}
    (hl : pool.blockList = l₁ ++ b :: l₂) (hb : allocFromBlock b size = some (p, b')) :
    ({ pool with blockList := l₁ ++ b' :: l₂ } : Pool).memory = pool.memory := by
  rcases allocFromBlock_keeps hb with ⟨-, haddr, -, hstop⟩
  unfold Pool.memory
  rw [hl]
  exact blocksMemory_congr pool.addr haddr hstop l₁ l₂

/-- A new block adds its memory. -/
theorem memory_grown {pool : Pool} (hne : pool.blockList ≠ []) {addr bsize size p : Nat} {b' : Block}
    (hmem : addr + bsize < sizeRange)
    (hb : allocFromBlock (newBlock addr bsize) size = some (p, b')) :
    (grown pool bsize b').memory = ⟨addr, bsize⟩ :: pool.memory := by
  rcases allocFromBlock_keeps hb with ⟨-, haddr, -, hstop⟩
  have hstop' : b'.stop - b'.addr = bsize := by
    rw [haddr, hstop]
    simp only [newBlock, Nat.mod_eq_of_lt hmem]
    omega
  unfold Pool.memory grown
  rw [blocksMemory_cons pool.addr b' hne, hstop', haddr]
  rfl

end PjPool
