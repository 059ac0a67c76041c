import PjProject.Pool.Pool

set_option autoImplicit false

/-! # Allocations do not overlap

A session is a pool with the regions that it has handed out since its last reset. `Good` is what its
user relies on: the regions are aligned, each lies in a block of the pool, and no two of them
overlap. The invariant `Inv` says moreover that they end where the next allocation of their block
begins.

Sizes are rounded up and added without a test for overflow, so a request near `2^64` is served with
less than it asks for, and a new block for it can be too small. The padding of a block whose address is
not aligned is not counted either. `Fine` excludes these, and while every request is fine and the factory
hands out memory that is not in use (`Granted`), the session stays good and no assertion fails
(`alloc_run`).
-/

namespace PjPool

/-- A pool and the regions that it has handed out. -/
structure Session where
  pool : Pool
  regions : List Region
  deriving DecidableEq

/-- The calls that a user makes, with what the factory returns if it is asked for a block. -/
inductive Op where
  | alloc (size : UInt64) (grant : Option Nat)
  | calloc (count size : UInt64) (grant : Option Nat)
  | reset
  deriving DecidableEq

/-- The session after a request of `n` bytes. -/
def hand (s : Session) (n : Nat) : Except Fault (Option Nat × Pool) → Except Fault Session
  | .error e => .error e
  | .ok (none, pool) => .ok { s with pool := pool }
  | .ok (some p, pool) => .ok ⟨pool, ⟨p, n⟩ :: s.regions⟩

/-- One call. What `pj_pool_calloc` is asked for is the product as a natural number. -/
def step (s : Session) : Op → Except Fault Session
  | .alloc size grant => hand s size.toNat (alloc s.pool size.toNat grant)
  | .calloc count size grant =>
      hand s (count.toNat * size.toNat) (calloc s.pool count.toNat size.toNat grant)
  | .reset => .ok ⟨resetPool s.pool, []⟩

/-- The memory of a block that is for the user. -/
def Block.room (b : Block) : Region := ⟨b.buf, b.stop - b.buf⟩

/-- What the user of the pool relies on. -/
structure Good (s : Session) : Prop where
  aligned : ∀ r ∈ s.regions, r.start % alignment = 0
  inside : ∀ r ∈ s.regions, ∃ b ∈ s.pool.blockList, r.Inside b.room
  apart : s.regions.Pairwise Region.Apart

/-! ## The promise of the factory and the condition on the requests -/

/-- The factory returns memory that lies in the address space and apart from what the pool has. -/
def Granted (pool : Pool) (size : Nat) (grant : Option Nat) : Prop :=
  ∀ addr, grant = some addr → addr + blockSize pool.incrementSize size < sizeRange ∧
    ∀ r ∈ pool.memory, Region.Apart ⟨addr, blockSize pool.incrementSize size⟩ r

/-- The increment if it has the bytes for the request, the header and the alignment, else its least
multiple with more than these. -/
def multiple (incrementSize n : Nat) : Nat :=
  if incrementSize < n + sizeofBlock + alignment then
    ((n + sizeofBlock + alignment) / incrementSize + 1) * incrementSize
  else incrementSize

/-- The request does not come within 4 bytes of `2^64`, and if it needs a new block, the sum that gives
the block's size does not overflow and the block has room for its padding. -/
structure Fine (pool : Pool) (n : Nat) (grant : Option Nat) : Prop where
  request : n + alignment ≤ sizeRange
  grow : (∀ b ∈ pool.blockList, b.stop < b.cur + roundUp n) → pool.incrementSize ≠ 0 →
    (n + sizeofBlock + alignment ≤ pool.incrementSize ∨
      n + sizeofBlock + alignment + pool.incrementSize < sizeRange) ∧
    ∀ addr, grant = some addr →
      padding addr + sizeofBlock + roundUp n ≤ multiple pool.incrementSize n

/-- The promise of the factory for a call. -/
def Op.Granted (s : Session) : Op → Prop
  | .alloc size grant => PjPool.Granted s.pool size.toNat grant
  | .calloc count size grant =>
      PjPool.Granted s.pool (size.toNat * count.toNat % sizeRange) grant
  | .reset => True

/-- The condition on a call. -/
def Op.Fine (s : Session) : Op → Prop
  | .alloc size grant => PjPool.Fine s.pool size.toNat grant
  | .calloc count size grant => PjPool.Fine s.pool (count.toNat * size.toNat) grant
  | .reset => True

instance (pool : Pool) (size : Nat) (grant : Option Nat) : Decidable (Granted pool size grant) :=
  inferInstanceAs (Decidable (∀ addr ∈ grant, addr + blockSize pool.incrementSize size < sizeRange ∧
    ∀ r ∈ pool.memory, Region.Apart ⟨addr, blockSize pool.incrementSize size⟩ r))

instance (pool : Pool) (n : Nat) (grant : Option Nat) : Decidable (Fine pool n grant) :=
  have : Decidable (∀ addr, grant = some addr →
      padding addr + sizeofBlock + roundUp n ≤ multiple pool.incrementSize n) :=
    inferInstanceAs (Decidable (∀ addr ∈ grant, _))
  decidable_of_iff _ ⟨fun h => Fine.mk h.1 h.2, fun h => And.intro h.request h.grow⟩

instance (s : Session) : (op : Op) → Decidable (op.Granted s)
  | .alloc _ _ => inferInstanceAs (Decidable (PjPool.Granted _ _ _))
  | .calloc _ _ _ => inferInstanceAs (Decidable (PjPool.Granted _ _ _))
  | .reset => inferInstanceAs (Decidable True)

instance (s : Session) : (op : Op) → Decidable (op.Fine s)
  | .alloc _ _ => inferInstanceAs (Decidable (PjPool.Fine _ _ _))
  | .calloc _ _ _ => inferInstanceAs (Decidable (PjPool.Fine _ _ _))
  | .reset => inferInstanceAs (Decidable True)

/-- The computed size of a block, without overflow. -/
theorem blockSize_eq {incrementSize n : Nat} (hinc : incrementSize ≠ 0)
    (hlt : incrementSize < sizeRange)
    (h : n + sizeofBlock + alignment ≤ incrementSize ∨
      n + sizeofBlock + alignment + incrementSize < sizeRange) :
    blockSize incrementSize n = multiple incrementSize n := by
  have hmod : (n + sizeofBlock + alignment) % sizeRange = n + sizeofBlock + alignment := by
    apply Nat.mod_eq_of_lt
    omega
  unfold blockSize multiple
  rw [hmod]
  by_cases hsmall : incrementSize < n + sizeofBlock + alignment
  · have hsum : n + incrementSize + sizeofBlock + alignment =
        n + sizeofBlock + alignment + incrementSize := by omega
    have hle := Nat.div_mul_le_self (n + sizeofBlock + alignment + incrementSize) incrementSize
    have hlt' : n + sizeofBlock + alignment + incrementSize < sizeRange := by omega
    rw [if_pos hsmall, if_pos hsmall, hsum, Nat.mod_eq_of_lt hlt',
      Nat.mod_eq_of_lt (Nat.lt_of_le_of_lt hle hlt'), Nat.add_div_right _ (by omega)]
  · rw [if_neg hsmall, if_neg hsmall]

theorem le_multiple (incrementSize n : Nat) (hinc : incrementSize ≠ 0) :
    n + sizeofBlock + alignment ≤ multiple incrementSize n := by
  have hlt := Nat.lt_div_mul_add (a := n + sizeofBlock + alignment) (b := incrementSize) (by omega)
  unfold multiple
  rw [Nat.add_mul, Nat.one_mul]
  split
  · omega
  · omega

/-! ## The invariant -/

/-- The blocks of the pool are well formed and lie in its memory, and every region that it has handed
out ends where the next allocation of its block begins. -/
structure Inv (s : Session) : Prop where
  wf : ∀ b ∈ s.pool.blockList, b.Wf
  rooms : (s.pool.blockList.map Block.room).Pairwise Region.Apart
  memory : ∀ b ∈ s.pool.blockList, ∃ r ∈ s.pool.memory, b.room.Inside r
  first : ∀ b, s.pool.blockList.getLast? = some b → s.pool.addr ≤ b.buf
  increment : s.pool.incrementSize < sizeRange
  nonempty : s.pool.blockList ≠ []
  aligned : ∀ r ∈ s.regions, r.start % alignment = 0
  used : ∀ r ∈ s.regions, ∃ b ∈ s.pool.blockList, b.buf ≤ r.start ∧ r.stop ≤ b.cur
  apart : s.regions.Pairwise Region.Apart

theorem Inv.good {s : Session} (h : Inv s) : Good s := by
  constructor
  · exact h.aligned
  · intro r hr
    rcases h.used r hr with ⟨b, hb, hlow, hhigh⟩
    have hbuf := (h.wf b hb).buf_le
    have hcur := (h.wf b hb).cur_le
    refine ⟨b, hb, hlow, ?_⟩
    unfold Block.room
    simp only [Region.stop] at hhigh ⊢
    omega
  · exact h.apart

variable {pool : Pool} {regions : List Region} {n : Nat} {grant : Option Nat}

/-- **A request is served from a block.** -/
theorem Inv.serve (h : Inv ⟨pool, regions⟩) {l₁ l₂ : List Block} {b b' : Block} {p : Nat}
    (hl : pool.blockList = l₁ ++ b :: l₂) (hb : allocFromBlock b n = some (p, b'))
    (hn : n + alignment ≤ sizeRange) :
    Inv ⟨{ pool with blockList := l₁ ++ b' :: l₂ }, ⟨p, n⟩ :: regions⟩ := by
  have hbmem : b ∈ pool.blockList := by simp [hl]
  have hwf := h.wf b hbmem
  have hmem := memory_serve hl hb
  rw [allocFromBlock_eq hwf hn] at hb
  by_cases hfit : b.cur + roundUp n ≤ b.stop
  swap
  · simp [hfit] at hb
  simp only [if_pos hfit, Option.some.injEq, Prod.mk.injEq] at hb
  rcases hb with ⟨rfl, rfl⟩
  have hround : n ≤ roundUp n ∧ roundUp n % 4 = 0 := by
    unfold roundUp
    omega
  -- the block is as before but for `cur`, which has moved up
  have hroom : Block.room { b with cur := b.cur + roundUp n } = b.room := rfl
  have hin : ∀ c ∈ pool.blockList, ∃ c' ∈ l₁ ++ { b with cur := b.cur + roundUp n } :: l₂,
      c'.buf = c.buf ∧ c.cur ≤ c'.cur := by
    intro c hc
    rw [hl] at hc
    rcases List.mem_append.mp hc with hc | hc
    · exact ⟨c, by simp [hc], rfl, Nat.le_refl _⟩
    · rcases List.mem_cons.mp hc with rfl | hc
      · exact ⟨{ c with cur := c.cur + roundUp n }, by simp, rfl, Nat.le_add_right _ _⟩
      · exact ⟨c, by simp [hc], rfl, Nat.le_refl _⟩
  have hmap : (l₁ ++ { b with cur := b.cur + roundUp n } :: l₂).map Block.room =
      pool.blockList.map Block.room := by
    simp [hl, hroom]
  constructor
  · intro c hc
    simp only [List.mem_append, List.mem_cons] at hc
    rcases hc with hc | rfl | hc
    · exact h.wf c (by simp [hl, hc])
    · have hle := hwf.buf_le
      have hal := hwf.aligned
      refine ⟨hwf.header, ?_, hfit, hwf.stop_lt, ?_⟩
      · simp only
        omega
      · simp only [alignment] at *
        omega
    · exact h.wf c (by simp [hl, hc])
  · rw [hmap]
    exact h.rooms
  · intro c hc
    rw [hmem]
    have hc' : c.room ∈ pool.blockList.map Block.room := by
      rw [← hmap]
      exact List.mem_map_of_mem hc
    rcases List.mem_map.mp hc' with ⟨c₀, hc₀, hr⟩
    rw [← hr]
    exact h.memory c₀ hc₀
  · intro c hc
    have hfirst := h.first
    simp only [hl, List.getLast?_append_cons, List.getLast?_cons] at hfirst hc
    cases l₂ with
    | nil =>
        cases hc
        exact hfirst b rfl
    | cons d l₂ =>
        rw [List.getLast?_cons] at hfirst hc
        exact hfirst c hc
  · exact h.increment
  · simp
  · intro r hr
    rcases List.mem_cons.mp hr with rfl | hr
    · exact hwf.aligned
    · exact h.aligned r hr
  · intro r hr
    rcases List.mem_cons.mp hr with rfl | hr
    · refine ⟨{ b with cur := b.cur + roundUp n }, by simp, hwf.buf_le, ?_⟩
      simp only [Region.stop]
      omega
    · rcases h.used r hr with ⟨c, hc, hlow, hhigh⟩
      rcases hin c hc with ⟨c', hc', hbuf, hcur⟩
      exact ⟨c', hc', by omega, by omega⟩
  · rw [List.pairwise_cons]
    refine ⟨fun r hr => ?_, h.apart⟩
    rcases h.used r hr with ⟨c, hc, hlow, hhigh⟩
    have hcwf := h.wf c hc
    by_cases hcb : c = b
    · -- a region of the same block ends before `cur`
      right
      rw [← hcb]
      exact hhigh
    · -- the other blocks are elsewhere
      have hapart : b.room.Apart c.room := by
        have hrooms := h.rooms
        rw [hl, List.map_append, List.map_cons, List.pairwise_append, List.pairwise_cons] at hrooms
        rw [hl] at hc
        simp only [List.mem_append, List.mem_cons] at hc
        rcases hc with hc | hc | hc
        · exact (hrooms.2.2 c.room (List.mem_map_of_mem hc) b.room (by simp)).symm
        · exact absurd hc hcb
        · exact hrooms.2.1.1 c.room (List.mem_map_of_mem hc)
      have h1 := hwf.buf_le
      have h2 := hcwf.buf_le
      have h3 := hcwf.cur_le
      unfold Region.Apart Block.room at *
      simp only [Region.stop] at *
      omega

/-- A new block of fresh memory, with room for its padding. -/
theorem newBlock_wf {addr size : Nat} (hmem : addr + size < sizeRange)
    (hpad : padding addr + sizeofBlock ≤ size) :
    (newBlock addr size).Wf ∧ (newBlock addr size).buf = addr + sizeofBlock ∧
      (newBlock addr size).cur = padding addr + (addr + sizeofBlock) ∧
      (newBlock addr size).stop = addr + size := by
  have hbuf : (addr + sizeofBlock) % sizeRange = addr + sizeofBlock := Nat.mod_eq_of_lt (by omega)
  have hstop : (addr + size) % sizeRange = addr + size := Nat.mod_eq_of_lt hmem
  have hpadding : padding (addr + sizeofBlock) = padding addr := by
    unfold padding sizeofBlock
    omega
  have halign : alignPtr (addr + sizeofBlock) = padding addr + (addr + sizeofBlock) := by
    rw [alignPtr_eq (by omega), hpadding]
    omega
  have heq : newBlock addr size =
      ⟨addr, addr + sizeofBlock, padding addr + (addr + sizeofBlock), addr + size⟩ := by
    simp only [newBlock, hbuf, hstop, halign]
  rw [heq]
  refine ⟨⟨?_, ?_, ?_, ?_, ?_⟩, rfl, rfl, rfl⟩
  · simp only
    omega
  · simp only
    omega
  · simp only
    omega
  · exact hmem
  · simp only [padding, sizeofBlock, alignment]
    omega

/-- **The pool gets a block of fresh memory.** -/
theorem Inv.extend (h : Inv ⟨pool, regions⟩) {addr size : Nat} (hmem : addr + size < sizeRange)
    (hfresh : ∀ r ∈ pool.memory, Region.Apart ⟨addr, size⟩ r)
    (hpad : padding addr + sizeofBlock ≤ size) :
    Inv ⟨grown pool size (newBlock addr size), regions⟩ := by
  rcases newBlock_wf hmem hpad with ⟨hwf, hbuf, -, hstop⟩
  have hroom : (newBlock addr size).room.Inside ⟨addr, size⟩ := by
    unfold Block.room Region.Inside
    rw [hbuf, hstop]
    simp only [Region.stop]
    omega
  have hmemory : (grown pool size (newBlock addr size)).memory = ⟨addr, size⟩ :: pool.memory := by
    have hstop' : (newBlock addr size).stop - (newBlock addr size).addr = size := by
      rw [hstop]
      simp [newBlock]
    unfold Pool.memory grown
    rw [blocksMemory_cons pool.addr _ h.nonempty, hstop']
    rfl
  constructor
  · intro c hc
    rcases List.mem_cons.mp hc with rfl | hc
    · exact hwf
    · exact h.wf c hc
  · show ((newBlock addr size :: pool.blockList).map Block.room).Pairwise Region.Apart
    rw [List.map_cons, List.pairwise_cons]
    refine ⟨fun r hr => ?_, h.rooms⟩
    rcases List.mem_map.mp hr with ⟨c, hc, rfl⟩
    rcases h.memory c hc with ⟨r, hr, hin⟩
    exact (((hfresh r hr).mono hroom).symm.mono hin).symm
  · intro c hc
    rw [hmemory]
    rcases List.mem_cons.mp hc with rfl | hc
    · exact ⟨_, List.mem_cons_self, hroom⟩
    · rcases h.memory c hc with ⟨r, hr, hin⟩
      exact ⟨r, List.mem_cons_of_mem _ hr, hin⟩
  · intro c hc
    apply h.first
    show pool.blockList.getLast? = some c
    rw [← hc]
    show _ = (newBlock addr size :: pool.blockList).getLast?
    rw [List.getLast?_cons, List.getLast?_eq_some_getLast h.nonempty]
    rfl
  · exact h.increment
  · simp [grown]
  · exact h.aligned
  · intro r hr
    rcases h.used r hr with ⟨c, hc, hlh⟩
    exact ⟨c, List.mem_cons_of_mem _ hc, hlh⟩
  · exact h.apart

/-! ## One call -/

/-- No block has room exactly if the rounded request goes beyond the end of every block. -/
theorem Inv.noRoom_iff (h : Inv ⟨pool, regions⟩) (hn : n + alignment ≤ sizeRange) :
    NoRoom pool n ↔ ∀ b ∈ pool.blockList, b.stop < b.cur + roundUp n := by
  unfold NoRoom
  constructor
  · intro hall b hb
    have hnone := hall b hb
    rw [allocFromBlock_eq (h.wf b hb) hn] at hnone
    by_contra hge
    simp [Nat.le_of_not_lt hge] at hnone
  · intro hall b hb
    rw [allocFromBlock_eq (h.wf b hb) hn, if_neg (Nat.not_le_of_lt (hall b hb))]

/-- **A fine request keeps the invariant, and no assertion fails.** -/
theorem Inv.alloc (h : Inv ⟨pool, regions⟩) (hgrant : Granted pool n grant)
    (hfine : Fine pool n grant) :
    ∃ s, hand ⟨pool, regions⟩ n (alloc pool n grant) = .ok s ∧ Inv s := by
  have hn := hfine.request
  rcases alloc_cases pool n grant with ⟨l₁, b, b', l₂, p, hl, hb, hr⟩ | ⟨hno, hrest⟩
  · rw [hr]
    exact ⟨_, rfl, h.serve hl hb hn⟩
  have hno' := (h.noRoom_iff hn).mp hno
  rcases hrest with ⟨hr, -⟩ | ⟨hinc, hsmall, -⟩ | ⟨hinc, -, addr, rfl, hserve⟩
  · rw [hr]
    exact ⟨_, rfl, h⟩
  · -- the new block is not too small for its header
    rcases hfine.grow hno' hinc with ⟨hsum, -⟩
    have hle := le_multiple pool.incrementSize n hinc
    rw [blockSize_eq hinc h.increment hsum] at hsmall
    omega
  · rcases hfine.grow hno' hinc with ⟨hsum, hpad⟩
    have heq := blockSize_eq hinc h.increment hsum
    have hpad := hpad addr rfl
    rw [← heq] at hpad
    rcases hgrant addr rfl with ⟨hmem, hfresh⟩
    have hext := h.extend hmem hfresh (by omega)
    rcases newBlock_wf hmem (by omega) with ⟨hwf, -, hcur, hstop⟩
    have hfit := allocFromBlock_eq hwf hn
    rw [if_pos (by omega)] at hfit
    rcases hserve with ⟨p, b', hb, hr⟩ | ⟨hnone, -⟩
    · rw [hr]
      have hfront (size : Nat) (block : Block) :
          (grown pool size block).blockList = [] ++ block :: pool.blockList := rfl
      exact ⟨_, rfl, hext.serve (hfront _ _) hb hn⟩
    · rw [hnone] at hfit
      cases hfit

/-- The memory of a block is free again. -/
theorem Block.Wf.padding_le {b : Block} (h : b.Wf) : b.buf + padding b.buf ≤ b.cur := by
  have hbuf := h.buf_le
  have hal := h.aligned
  simp only [padding, alignment] at *
  omega

/-- Only the last block stays, and nothing is handed out. -/
theorem Inv.shrink (h : Inv ⟨pool, regions⟩) {b : Block} (hlast : pool.blockList.getLast? = some b)
    (capacity : Nat) :
    Inv ⟨⟨pool.addr, capacity, pool.incrementSize, [{ b with cur := b.buf + padding b.buf }]⟩, []⟩ := by
  have hfirst : pool.addr ≤ b.buf := h.first b hlast
  have hwf := h.wf b (List.mem_of_getLast? hlast)
  have hbuf := hwf.buf_le
  have hcur := hwf.cur_le
  have hpad := hwf.padding_le
  constructor
  · intro c hc
    rw [List.mem_singleton.mp hc]
    refine ⟨hwf.header, Nat.le_add_right _ _, ?_, hwf.stop_lt, ?_⟩
    · exact Nat.le_trans hpad hcur
    · simp only [padding, alignment]
      omega
  · simp
  · intro c hc
    refine ⟨⟨pool.addr, b.stop - pool.addr⟩, by simp [Pool.memory, blocksMemory], ?_⟩
    rw [List.mem_singleton.mp hc]
    unfold Region.Inside Block.room
    dsimp only [Region.stop]
    omega
  · intro c hc
    cases hc
    exact hfirst
  · exact h.increment
  · simp
  · simp
  · simp
  · simp

/-- **The pool is reset.** -/
theorem Inv.reset (h : Inv ⟨pool, regions⟩) : Inv ⟨resetPool pool, []⟩ := by
  have hlast : pool.blockList.getLast? = some (pool.blockList.getLast h.nonempty) :=
    List.getLast?_eq_some_getLast h.nonempty
  generalize pool.blockList.getLast h.nonempty = b at hlast
  have hwf := h.wf b (List.mem_of_getLast? hlast)
  have hcur := hwf.cur_le
  have hstop := hwf.stop_lt
  have hpad := hwf.padding_le
  have halign : alignPtr b.buf = b.buf + padding b.buf := alignPtr_eq (by omega)
  have heq : resetPool pool =
      ⟨pool.addr, (b.stop + sizeRange - pool.addr) % sizeRange, pool.incrementSize,
        [{ b with cur := b.buf + padding b.buf }]⟩ := by
    simp only [resetPool, hlast, halign]
  rw [heq]
  exact h.shrink hlast _

/-- **A fine call keeps the invariant, and no assertion fails.** -/
theorem Inv.step {s : Session} (h : Inv s) {op : Op} (hgrant : op.Granted s) (hfine : op.Fine s) :
    ∃ s', step s op = .ok s' ∧ Inv s' := by
  cases op with
  | alloc size grant => exact Inv.alloc h hgrant hfine
  | calloc count size grant =>
      have hreq := Fine.request hfine
      have hmod : size.toNat * count.toNat % sizeRange = count.toNat * size.toNat := by
        rw [Nat.mul_comm, Nat.mod_eq_of_lt]
        unfold alignment at hreq
        omega
      have hgrant' : PjPool.Granted s.pool (count.toNat * size.toNat) grant := by
        rw [← hmod]
        exact hgrant
      have heq : PjPool.step s (.calloc count size grant) =
          hand s (count.toNat * size.toNat)
            (PjPool.alloc s.pool (count.toNat * size.toNat) grant) := by
        simp only [PjPool.step, calloc, hmod]
      rw [heq]
      exact Inv.alloc h hgrant' hfine
  | reset => exact ⟨_, rfl, h.reset⟩

/-! ## Every run -/

/-- A pool whose first block begins, after its padding, before its end. -/
theorem inv_createInt {initialSize incrementSize addr : Nat} (hinc : incrementSize < sizeRange)
    (hcreate : createInt initialSize incrementSize (some addr) = some pool)
    (hmem : addr + initialSize < sizeRange)
    (hinit : sizeofPool + sizeofBlock + padding addr ≤ initialSize) : Inv ⟨pool, []⟩ := by
  have hblock : (addr + sizeofPool) % sizeRange = addr + sizeofPool := Nat.mod_eq_of_lt (by omega)
  have hbuf : (addr + sizeofPool + sizeofBlock) % sizeRange = addr + sizeofPool + sizeofBlock :=
    Nat.mod_eq_of_lt (by omega)
  have hstop : (addr + initialSize) % sizeRange = addr + initialSize := Nat.mod_eq_of_lt hmem
  have hpadding : padding (addr + sizeofPool + sizeofBlock) = padding addr := by
    unfold padding sizeofPool sizeofBlock
    omega
  have halign : alignPtr (addr + sizeofPool + sizeofBlock) =
      addr + sizeofPool + sizeofBlock + padding addr := by
    rw [alignPtr_eq (by omega), hpadding]
  unfold createInt at hcreate
  rw [if_neg (by omega)] at hcreate
  simp only [hblock, hbuf, hstop, halign, Option.some.injEq] at hcreate
  subst hcreate
  constructor
  · intro c hc
    rw [List.mem_singleton.mp hc]
    refine ⟨Nat.le_add_left _ _, Nat.le_add_right _ _, ?_, hmem, ?_⟩
    · simp only
      omega
    · simp only [padding, sizeofPool, sizeofBlock, alignment]
      omega
  · simp
  · intro c hc
    refine ⟨⟨addr, initialSize⟩, by simp [Pool.memory, blocksMemory], ?_⟩
    rw [List.mem_singleton.mp hc]
    unfold Region.Inside Block.room
    simp only [Region.stop]
    omega
  · intro c hc
    rw [List.getLast?_singleton, Option.some.injEq] at hc
    rw [← hc]
    dsimp only
    omega
  · exact hinc
  · simp
  · simp
  · simp
  · simp

/-- **Allocations never overlap**, whatever the sizes and the addresses, in a run of fine calls on a pool
whose first block has room for its padding. -/
theorem alloc_run (initialSize incrementSize : UInt64) (addr : Nat) (pool : Pool)
    (hcreate : createInt initialSize.toNat incrementSize.toNat (some addr) = some pool)
    (hmem : addr + initialSize.toNat < sizeRange)
    (hinit : sizeofPool + sizeofBlock + padding addr ≤ initialSize.toNat) (ops : List Op)
    (hgrant : Machine.Meets step (fun s op => op.Granted s) ⟨pool, []⟩ ops)
    (hfine : Machine.Meets step (fun s op => op.Fine s) ⟨pool, []⟩ ops) :
    Machine.Always step Good ⟨pool, []⟩ ops ∧ ∃ s, Machine.run step ⟨pool, []⟩ ops = .ok s := by
  have hinc : incrementSize.toNat < sizeRange := by
    unfold sizeRange
    exact incrementSize.toNat_lt
  have hinv : Inv ⟨pool, []⟩ := inv_createInt hinc hcreate hmem hinit
  have hboth := hgrant.and hfine
  have hstep : ∀ s op, Inv s → op.Granted s ∧ op.Fine s → ∃ s', step s op = .ok s' ∧ Inv s' :=
    fun s op h hok => h.step hok.1 hok.2
  constructor
  · refine Machine.always_of_meets (fun s (h : Inv s) => h.good) ?_ ops ⟨pool, []⟩ hinv hboth
    intro s op s' h hok hs'
    rcases hstep s op h hok with ⟨s₁, hs₁, hinv₁⟩
    rw [hs'] at hs₁
    cases hs₁
    exact hinv₁
  · rcases Machine.run_invariant hstep ops ⟨pool, []⟩ hinv hboth with ⟨s, hs, -⟩
    exact ⟨s, hs⟩

/-- A pool of 1000 bytes at 4096. -/
def samplePool : Pool := ⟨4096, 1000, 1000, [⟨4224, 4264, 4264, 5096⟩]⟩

/-- Requests that the pool serves from its first block, from a new one, and after a reset. -/
def sampleOps : List Op :=
  [.alloc 101 none, .calloc 7 30 none, .alloc 2000 (some 8192), .reset, .alloc 5 none]

theorem alloc_run_sample :
    Machine.Always step Good ⟨samplePool, []⟩ sampleOps ∧
      ∃ s, Machine.run step ⟨samplePool, []⟩ sampleOps = .ok s := by
  have hgrant := Machine.checkRun_sound step (fun s op => decide (op.Granted s)) (fun _ => true)
    sampleOps ⟨samplePool, []⟩ (by decide +kernel)
  have hfine := Machine.checkRun_sound step (fun s op => decide (op.Fine s)) (fun _ => true)
    sampleOps ⟨samplePool, []⟩ (by decide +kernel)
  exact alloc_run 1000 1000 4096 samplePool (by decide +kernel) (by decide +kernel)
    (by decide +kernel) sampleOps
    (hgrant.1.mono (fun _ _ h => of_decide_eq_true h)) (hfine.1.mono (fun _ _ h => of_decide_eq_true h))

/-- A request of `2^64 - 1` bytes is served by a pool of 1000. -/
theorem alloc_max_overlaps :
    createInt 1000 1000 (some 4096) = some samplePool ∧
      ¬ Machine.Always step Good ⟨samplePool, []⟩ [.alloc 18446744073709551615 none] := by
  refine ⟨by decide +kernel, fun h => ?_⟩
  have hgood := (h.2 ⟨samplePool, [⟨4264, 18446744073709551615⟩]⟩ (by decide +kernel)).head
  rcases hgood.inside _ List.mem_cons_self with ⟨b, hb, hin⟩
  rw [List.mem_singleton.mp hb] at hin
  exact absurd hin (by decide +kernel)

end PjPool
