import PjProject.Library.Regions
import PjProject.Library.Wire

set_option autoImplicit false

/-! # A FIFO buffer

`pj_fifobuf_t` of `pjlib/src/pj/fifobuf.c`. Blocks are allocated one behind the other, each with its size in
front of it, and freed in the order of their allocation; the newest one can be taken back. At the end of the
buffer the allocation goes on at its beginning, and what is left of the end stays unused. Nothing says how
much that is. A pointer is an address, and the memory is all of it; a `size_t` has 64 bits, so that
`size + SZ` does not overflow.

`Layout` says where the blocks in use can be: in one piece, in all of the buffer, or in two pieces with an
unused one behind the first. Each function leaves such a layout. Only one of them can refuse what it is
asked for: `pj_fifobuf_unalloc`, when it has already taken back the block at the beginning of the buffer.
-/

namespace Fifobuf

open Region (Tiles Apart)

/-! ## Memory -/

/-- `*(unsigned*)ptr`. The order of the bytes does not matter. -/
def getWord (mem : Nat → UInt8) (ptr : Nat) : UInt32 :=
  Wire.get32 (mem ptr) (mem (ptr + 1)) (mem (ptr + 2)) (mem (ptr + 3))

/-- An assignment to `*(unsigned*)ptr`. -/
def setWord (mem : Nat → UInt8) (ptr : Nat) (v : UInt32) : Nat → UInt8 := fun a =>
  if ptr ≤ a then ((Wire.put32 v)[a - ptr]?).getD (mem a) else mem a

theorem getWord_setWord (mem : Nat → UInt8) (ptr : Nat) (v : UInt32) :
    getWord (setWord mem ptr v) ptr = v := by
  simp [getWord, setWord, Wire.put32]
  exact Wire.get32_put32 v

theorem setWord_of_apart {mem : Nat → UInt8} {ptr a : Nat} {v : UInt32} (h : a < ptr ∨ ptr + 4 ≤ a) :
    setWord mem ptr v a = mem a := by
  unfold setWord
  split
  · rw [List.getElem?_eq_none (by rw [Wire.length_put32]; omega)]
    rfl
  · rfl

theorem getWord_congr {mem mem' : Nat → UInt8} {ptr : Nat}
    (h : ∀ a, ptr ≤ a → a < ptr + 4 → mem' a = mem a) : getWord mem' ptr = getWord mem ptr := by
  unfold getWord
  rw [h ptr (by omega) (by omega), h (ptr + 1) (by omega) (by omega), h (ptr + 2) (by omega) (by omega),
    h (ptr + 3) (by omega) (by omega)]

/-! ## The functions -/

/-- `SZ`. -/
def sz : Nat := 4

/-- `pj_fifobuf_t`, with the memory. -/
structure Buf where
  first : Nat
  last : Nat
  ubegin : Nat
  uend : Nat
  full : Bool
  mem : Nat → UInt8

/-- `pj_fifobuf_init`. -/
def init (mem : Nat → UInt8) (buffer : Nat) (size : UInt32) : Buf where
  first := buffer
  last := buffer + size.toNat
  ubegin := buffer
  uend := buffer
  full := false
  mem := mem

/-- `pj_fifobuf_alloc`: the pointer, or `NULL`. -/
def alloc (fb : Buf) (size : UInt32) : Option Nat × Buf :=
  if fb.full then (none, fb)
  else if fb.ubegin ≤ fb.uend ∧ size.toNat + sz ≤ fb.last - fb.uend then
    -- from the end part
    let uend := if fb.uend + (size.toNat + sz) = fb.last then fb.first else fb.uend + (size.toNat + sz)
    (some (fb.uend + sz), { fb with
      uend := uend
      full := decide (uend = fb.ubegin)
      mem := setWord fb.mem fb.uend (UInt32.ofNat (size.toNat + sz)) })
  else
    let start := if fb.uend ≤ fb.ubegin then fb.uend else fb.first
    if size.toNat + sz ≤ fb.ubegin - start then
      -- from the start part
      let uend := start + size.toNat + sz
      (some (start + sz), { fb with
        uend := uend
        full := decide (uend = fb.ubegin)
        mem := setWord fb.mem start (UInt32.ofNat (size.toNat + sz)) })
    else (none, fb)

/-- `pj_fifobuf_unalloc`: whether it returns 0. -/
def unalloc (fb : Buf) (buf : Nat) : Bool × Buf :=
  let ptr := buf - sz
  let endptr := if fb.uend = fb.first then fb.last else fb.uend
  if ptr + (getWord fb.mem ptr).toNat ≠ endptr then (false, fb)
  else (true, { fb with uend := ptr, full := false })

/-- The end of `pj_fifobuf_free`. -/
def advance (fb : Buf) (ubegin : Nat) : Buf :=
  let ubegin := if ubegin = fb.last then fb.first else ubegin
  if ubegin = fb.uend then { fb with ubegin := fb.first, uend := fb.first, full := false }
  else { fb with ubegin := ubegin, full := false }

/-- `pj_fifobuf_free`: whether it returns 0. -/
def free (fb : Buf) (buf : Nat) : Bool × Buf :=
  let ptr := buf - sz
  if ptr < fb.first ∨ fb.last ≤ ptr then (false, fb)
  else if ptr ≠ fb.ubegin ∧ ptr ≠ fb.first then (false, fb)
  else if (if fb.ubegin < fb.uend then fb.uend else fb.last) < ptr + (getWord fb.mem ptr).toNat then
    (false, fb)
  else (true, advance fb (ptr + (getWord fb.mem ptr).toNat))

/-! ## Where the blocks are

A block is the region of its size and what follows it. -/

/-- The blocks in use, the oldest one first. -/
inductive Layout (fb : Buf) (live : List Region) : Prop where
  /-- In one piece that does not reach the end. -/
  | linear (begin_ok : fb.ubegin = fb.first ∨ fb.first + 4 ≤ fb.ubegin)
      (tiles : Tiles fb.ubegin live fb.uend) (end_le : fb.uend ≤ fb.last)
      (end_lt : live ≠ [] → fb.uend < fb.last)
      (room : live = [] → fb.ubegin = fb.first ∨ fb.ubegin + 4 ≤ fb.last) (full : fb.full = false)
  /-- In all of the buffer. -/
  | whole (begin_eq : fb.ubegin = fb.first) (end_eq : fb.uend = fb.first)
      (tiles : Tiles fb.first live fb.last) (lt : fb.first < fb.last) (full : fb.full = true)
  /-- In the piece from `ubegin` to `gap` and in the one from `first` to `uend`; both can be empty. -/
  | wrapped (pre post : List Region) (gap : Nat) (live_eq : live = pre ++ post)
      (begin_ge : fb.first + 4 ≤ fb.ubegin) (begin_lt : fb.ubegin < fb.last) (gap_le : gap ≤ fb.last)
      (tiles_pre : Tiles fb.ubegin pre gap) (tiles_post : Tiles fb.first post fb.uend)
      (end_le : fb.uend ≤ fb.ubegin) (full : fb.full = decide (fb.uend = fb.ubegin))

variable {fb : Buf} {live rest : List Region} {b : Region}

theorem layout_init (mem : Nat → UInt8) (buffer : Nat) (size : UInt32) :
    Layout (init mem buffer size) [] :=
  .linear (.inl rfl) rfl (Nat.le_add_right _ _) (fun h => absurd rfl h) (fun _ => .inl rfl) rfl

/-- The blocks are in the buffer. -/
theorem Layout.inside (h : Layout fb live) (hb : b ∈ live) : fb.first ≤ b.start ∧ b.stop ≤ fb.last := by
  cases h with
  | linear begin_ok tiles end_le _ _ _ =>
      have hmem := tiles.mem hb
      omega
  | whole _ _ tiles _ _ => exact tiles.mem hb
  | wrapped pre post gap live_eq begin_ge begin_lt gap_le tiles_pre tiles_post end_le _ =>
      rw [live_eq] at hb
      rcases List.mem_append.mp hb with hb | hb
      · have hmem := tiles_pre.mem hb
        omega
      · have hmem := tiles_post.mem hb
        omega

/-- The blocks are pairwise apart. -/
theorem Layout.pairwise (h : Layout fb live) : live.Pairwise Apart := by
  cases h with
  | linear _ tiles _ _ _ _ => exact tiles.pairwise
  | whole _ _ tiles _ _ => exact tiles.pairwise
  | wrapped pre post gap live_eq _ _ _ tiles_pre tiles_post end_le _ =>
      rw [live_eq, List.pairwise_append]
      refine ⟨tiles_pre.pairwise, tiles_post.pairwise, fun r hr s hs => .inr ?_⟩
      have hmem := tiles_pre.mem hr
      have hmem' := tiles_post.mem hs
      omega

/-! ## Allocating -/

/-- What an allocation leaves: the block is the newest one, with its size in front. -/
structure Allocated (fb : Buf) (size : UInt32) (r : Region) (fb' : Buf) : Prop where
  result : alloc fb size = (some (r.start + sz), fb')
  len : r.len = size.toNat + sz
  mem : fb'.mem = setWord fb.mem r.start (UInt32.ofNat r.len)
  first : fb'.first = fb.first
  last : fb'.last = fb.last

/-- The pointers behind an allocation from the end part. -/
theorem alloc_end {size : UInt32} (hfull : fb.full = false)
    (hroom : fb.ubegin ≤ fb.uend ∧ size.toNat + sz ≤ fb.last - fb.uend) :
    ∃ fb', Allocated fb size ⟨fb.uend, size.toNat + sz⟩ fb' ∧ fb'.ubegin = fb.ubegin ∧
      fb'.uend = (if fb.uend + (size.toNat + sz) = fb.last then fb.first
        else fb.uend + (size.toNat + sz)) ∧
      fb'.full = decide (fb'.uend = fb.ubegin) := by
  have hresult : alloc fb size = (some (fb.uend + sz), (alloc fb size).2) := by
    rw [alloc, if_neg (by simp [hfull]), if_pos hroom]
  refine ⟨(alloc fb size).2, ⟨hresult, rfl, ?_, ?_, ?_⟩, ?_, ?_, ?_⟩
  all_goals rw [alloc, if_neg (by simp [hfull]), if_pos hroom]

/-- The pointers behind an allocation from the start part. -/
theorem alloc_start {size : UInt32} {start : Nat} (hfull : fb.full = false)
    (hend : ¬ (fb.ubegin ≤ fb.uend ∧ size.toNat + sz ≤ fb.last - fb.uend))
    (hstart : start = if fb.uend ≤ fb.ubegin then fb.uend else fb.first)
    (hroom : size.toNat + sz ≤ fb.ubegin - start) :
    ∃ fb', Allocated fb size ⟨start, size.toNat + sz⟩ fb' ∧ fb'.ubegin = fb.ubegin ∧
      fb'.uend = start + (size.toNat + sz) ∧ fb'.full = decide (fb'.uend = fb.ubegin) := by
  subst hstart
  have hresult : alloc fb size =
      (some ((if fb.uend ≤ fb.ubegin then fb.uend else fb.first) + sz), (alloc fb size).2) := by
    rw [alloc, if_neg (by simp [hfull]), if_neg hend, if_pos hroom]
  refine ⟨(alloc fb size).2, ⟨hresult, rfl, ?_, ?_, ?_⟩, ?_, ?_, ?_⟩
  all_goals rw [alloc, if_neg (by simp [hfull]), if_neg hend, if_pos hroom]
  exact Nat.add_assoc _ _ _

/-- There is no room. -/
theorem alloc_none {size : UInt32} {start : Nat}
    (hend : ¬ (fb.ubegin ≤ fb.uend ∧ size.toNat + sz ≤ fb.last - fb.uend))
    (hstart : start = if fb.uend ≤ fb.ubegin then fb.uend else fb.first)
    (hroom : ¬ size.toNat + sz ≤ fb.ubegin - start) : alloc fb size = (none, fb) := by
  subst hstart
  rw [alloc, if_neg hend, if_neg hroom]
  split <;> rfl

/-- **`pj_fifobuf_alloc`** keeps a layout. -/
theorem Layout.alloc (h : Layout fb live) (size : UInt32) :
    Fifobuf.alloc fb size = (none, fb) ∨
      ∃ r fb', Allocated fb size r fb' ∧ Layout fb' (live ++ [r]) := by
  have hsz : 4 ≤ size.toNat + sz := Nat.le_add_left 4 _
  obtain ⟨start, hstart⟩ : ∃ start, start = if fb.uend ≤ fb.ubegin then fb.uend else fb.first :=
    ⟨_, rfl⟩
  cases h with
  | linear begin_ok tiles end_le end_lt room full =>
      have hbegin := tiles.le
      by_cases hend : fb.ubegin ≤ fb.uend ∧ size.toNat + sz ≤ fb.last - fb.uend
      · rcases alloc_end full hend with ⟨fb', hallocated, hubegin, huend, hfull⟩
        refine .inr ⟨_, fb', hallocated, ?_⟩
        have htiles : Tiles fb.ubegin (live ++ [⟨fb.uend, size.toNat + sz⟩])
            (fb.uend + (size.toNat + sz)) := Region.tiles_concat.mpr ⟨tiles, rfl⟩
        have hfirst := hallocated.first
        have hlast := hallocated.last
        by_cases hreach : fb.uend + (size.toNat + sz) = fb.last
        · -- it reaches the end, and the next one goes to the beginning
          rw [if_pos hreach] at huend
          rw [hreach] at htiles
          rcases begin_ok with hzero | hgap
          · refine .whole (by omega) (by omega) ?_ (by omega) ?_
            · rw [hfirst, hlast, ← hzero]
              exact htiles
            · rw [hfull, decide_eq_true_eq]
              omega
          · refine .wrapped (live ++ [⟨fb.uend, size.toNat + sz⟩]) [] fb.last (List.append_nil _).symm
              (by omega) (by omega) (by omega) (by rw [hubegin]; exact htiles) ?_ (by omega) ?_
            · rw [hfirst, huend]
              exact Region.tiles_nil.mpr rfl
            · rw [hfull, hubegin]
        · rw [if_neg hreach] at huend
          refine .linear (by omega) ?_ (by omega) (fun _ => by omega) (fun h => by simp at h) ?_
          · rw [hubegin, huend]
            exact htiles
          · rw [hfull, decide_eq_false_iff_not]
            omega
      · by_cases hroom : size.toNat + sz ≤ fb.ubegin - start
        · -- the end part stays unused
          rcases alloc_start full hend hstart hroom with ⟨fb', hallocated, hubegin, huend, hfull⟩
          have hzero : start = fb.first ∧ fb.ubegin < fb.uend := by
            split at hstart
            · omega
            · exact ⟨hstart, by omega⟩
          have hfirst := hallocated.first
          have hlast := hallocated.last
          have hne : live ≠ [] := by
            rintro rfl
            rw [Region.tiles_nil] at tiles
            omega
          have hlt := end_lt hne
          refine .inr ⟨_, fb', hallocated, ?_⟩
          refine .wrapped live [⟨start, size.toNat + sz⟩] fb.uend rfl (by omega) (by omega) (by omega)
            (by rw [hubegin]; exact tiles) ?_ (by omega) (by rw [hfull, hubegin])
          rw [Region.tiles_cons, Region.tiles_nil, hfirst]
          exact ⟨hzero.1, huend.symm⟩
        · exact .inl (alloc_none hend hstart hroom)
  | whole begin_eq end_eq tiles lt full =>
      left
      rw [Fifobuf.alloc, if_pos full]
  | wrapped pre post gap live_eq begin_ge begin_lt gap_le tiles_pre tiles_post end_le full =>
      by_cases heq : fb.uend = fb.ubegin
      · left
        rw [Fifobuf.alloc, if_pos (by simp [full, heq])]
      · have hnotfull : fb.full = false := by simp [full, heq]
        have hend : ¬ (fb.ubegin ≤ fb.uend ∧ size.toNat + sz ≤ fb.last - fb.uend) := by omega
        rw [if_pos end_le] at hstart
        subst hstart
        by_cases hroom : size.toNat + sz ≤ fb.ubegin - fb.uend
        · rcases alloc_start hnotfull hend (if_pos end_le).symm hroom with
            ⟨fb', hallocated, hubegin, huend, hfull⟩
          have hfirst := hallocated.first
          have hlast := hallocated.last
          refine .inr ⟨_, fb', hallocated, ?_⟩
          refine .wrapped pre (post ++ [⟨fb.uend, size.toNat + sz⟩]) gap
            (by rw [live_eq, List.append_assoc]) (by omega) (by omega) (by omega)
            (by rw [hubegin]; exact tiles_pre) ?_ (by omega) (by rw [hfull, hubegin])
          rw [hfirst, huend]
          exact Region.tiles_concat.mpr ⟨tiles_post, rfl⟩
        · exact .inl (alloc_none hend (if_pos end_le).symm hroom)

/-! ## Freeing -/

/-- A function on the pointers leaves the memory and the buffer. -/
structure SameBuffer (fb fb' : Buf) : Prop where
  mem : fb'.mem = fb.mem
  first : fb'.first = fb.first
  last : fb'.last = fb.last

theorem sameBuffer_advance (fb : Buf) (ubegin : Nat) : SameBuffer fb (advance fb ubegin) := by
  unfold advance
  generalize (if ubegin = fb.last then fb.first else ubegin) = ubegin
  dsimp only
  split <;> exact ⟨rfl, rfl, rfl⟩

/-- What `advance` leaves when the last block has gone. -/
theorem layout_reset (fb : Buf) {ubegin : Nat}
    (h : (if ubegin = fb.last then fb.first else ubegin) = fb.uend) (hle : fb.first ≤ fb.last) :
    Layout (advance fb ubegin) [] := by
  unfold advance
  dsimp only
  rw [if_pos h]
  exact .linear (.inl rfl) rfl hle (fun h => absurd rfl h) (fun _ => .inl rfl) rfl

/-- The pointers when blocks are left. -/
theorem advance_eq {ubegin : Nat} (h : (if ubegin = fb.last then fb.first else ubegin) ≠ fb.uend) :
    advance fb ubegin =
      { fb with ubegin := if ubegin = fb.last then fb.first else ubegin, full := false } := by
  unfold advance
  dsimp only
  rw [if_neg h]

/-- The oldest block begins where the buffer is used from, or at the beginning. -/
theorem Layout.free_eq (h : Layout fb (b :: rest)) (hlen : 4 ≤ b.len)
    (hword : (getWord fb.mem b.start).toNat = b.len) :
    free fb (b.start + sz) = (true, advance fb b.stop) := by
  have hinside := h.inside List.mem_cons_self
  have hstop : b.stop = b.start + b.len := rfl
  have hplace : (b.start = fb.ubegin ∨ b.start = fb.first) ∧ (fb.ubegin < fb.uend → b.stop ≤ fb.uend) := by
    cases h with
    | linear begin_ok tiles end_le _ _ _ => exact ⟨.inl tiles.1, fun _ => (tiles.mem List.mem_cons_self).2⟩
    | whole begin_eq end_eq tiles _ _ => exact ⟨.inl (by rw [begin_eq]; exact tiles.1), fun _ => by omega⟩
    | wrapped pre post gap live_eq _ _ _ tiles_pre tiles_post end_le _ =>
        refine ⟨?_, fun _ => by omega⟩
        cases pre with
        | nil =>
            rw [List.nil_append] at live_eq
            rw [← live_eq] at tiles_post
            exact .inr tiles_post.1
        | cons r pre =>
            rw [List.cons_append, List.cons.injEq] at live_eq
            rw [live_eq.1]
            exact .inl tiles_pre.1
  have hptr : b.start + sz - sz = b.start := Nat.add_sub_cancel _ _
  unfold free
  dsimp only
  rw [hptr, hword, ← hstop, if_neg (by omega), if_neg (by omega), if_neg ?_]
  split
  · rename_i hlt
    have hle := hplace.2 hlt
    omega
  · omega

/-- **`pj_fifobuf_free`** of the oldest block succeeds and keeps a layout. -/
theorem Layout.free (h : Layout fb (b :: rest)) (hlen : ∀ r ∈ b :: rest, 4 ≤ r.len) :
    Layout (advance fb b.stop) rest := by
  have hb := hlen b List.mem_cons_self
  have hrest : ∀ r ∈ rest, 4 ≤ r.len := fun r hr => hlen r (List.mem_cons_of_mem b hr)
  have hstop : b.stop = b.start + b.len := rfl
  have hinside := h.inside List.mem_cons_self
  have hle : fb.first ≤ fb.last := by omega
  cases h with
  | linear begin_ok tiles end_le end_lt _ full =>
      have hlt := end_lt (List.cons_ne_nil b rest)
      have hstart : b.start = fb.ubegin := tiles.1
      have htiles := tiles.2
      have hmore := htiles.le
      by_cases hnil : rest = []
      · subst hnil
        rw [Region.tiles_nil] at htiles
        exact layout_reset fb (by rw [if_neg (by omega), htiles]) hle
      · have hlonger := htiles.add_le hrest hnil
        rw [advance_eq (by rw [if_neg (by omega)]; omega), if_neg (by omega)]
        exact .linear (.inr (by dsimp only; omega)) htiles end_le (fun _ => hlt)
          (fun h => absurd h hnil) rfl
  | whole begin_eq end_eq tiles lt full =>
      have hstart : b.start = fb.first := tiles.1
      have htiles := tiles.2
      by_cases hnil : rest = []
      · subst hnil
        rw [Region.tiles_nil] at htiles
        exact layout_reset fb (by rw [if_pos htiles, end_eq]) hle
      · have hlonger := htiles.add_le hrest hnil
        rw [advance_eq (by rw [if_neg (by omega)]; omega), if_neg (by omega)]
        refine .wrapped rest [] fb.last (List.append_nil _).symm ?_ ?_ (le_refl _) htiles ?_ ?_ ?_
        · dsimp only
          omega
        · dsimp only
          omega
        · exact Region.tiles_nil.mpr end_eq.symm
        · dsimp only
          omega
        · dsimp only
          rw [eq_comm, decide_eq_false_iff_not]
          omega
  | wrapped pre post gap live_eq begin_ge begin_lt gap_le tiles_pre tiles_post end_le full =>
      cases pre with
      | nil =>
          -- only the piece at the beginning is left
          rw [List.nil_append] at live_eq
          subst live_eq
          have hstart : b.start = fb.first := tiles_post.1
          have htiles := tiles_post.2
          have hmore := htiles.le
          by_cases hnil : rest = []
          · subst hnil
            rw [Region.tiles_nil] at htiles
            exact layout_reset fb (by rw [if_neg (by omega), htiles]) hle
          · have hlonger := htiles.add_le hrest hnil
            rw [advance_eq (by rw [if_neg (by omega)]; omega), if_neg (by omega)]
            exact .linear (.inr (by dsimp only; omega)) htiles (by dsimp only; omega)
              (fun _ => by dsimp only; omega) (fun h => absurd h hnil) rfl
      | cons r pre =>
          rw [List.cons_append, List.cons.injEq] at live_eq
          obtain ⟨rfl, rfl⟩ := live_eq
          have hstart : b.start = fb.ubegin := tiles_pre.1
          have htiles := tiles_pre.2
          have hmore := htiles.le
          by_cases hreach : b.stop = fb.last
          · -- the first piece has gone, and there was no gap
            have hpre : pre = [] := by
              by_contra hne
              have hlonger := htiles.add_le (fun r hr => hrest r (List.mem_append_left post hr)) hne
              omega
            subst hpre
            rw [List.nil_append] at hrest ⊢
            by_cases hnil : post = []
            · subst hnil
              rw [Region.tiles_nil] at tiles_post
              exact layout_reset fb (by rw [if_pos hreach, tiles_post]) hle
            · have hlonger := tiles_post.add_le hrest hnil
              rw [advance_eq (by rw [if_pos hreach]; omega), if_pos hreach]
              exact .linear (.inl rfl) tiles_post (by dsimp only; omega)
                (fun _ => by dsimp only; omega) (fun h => absurd h hnil) rfl
          · rw [advance_eq (by rw [if_neg hreach]; omega), if_neg hreach]
            refine .wrapped pre post gap rfl ?_ ?_ gap_le htiles tiles_post ?_ ?_
            · dsimp only
              omega
            · dsimp only
              omega
            · dsimp only
              omega
            · dsimp only
              rw [eq_comm, decide_eq_false_iff_not]
              omega

/-! ## Taking back -/

/-- The newest block can be taken back: nothing has been taken back to the beginning of the buffer, or
the block reaches its end. -/
def Retractable (fb : Buf) (b : Region) : Prop := fb.uend ≠ fb.first ∨ b.stop = fb.last

/-- The pointers of a block that is taken back. -/
def retract (fb : Buf) (b : Region) : Buf := { fb with uend := b.start, full := false }

/-- The pointer behind the newest block. -/
theorem unalloc_eq (hword : (getWord fb.mem b.start).toNat = b.len) :
    unalloc fb (b.start + sz) =
      if b.stop = (if fb.uend = fb.first then fb.last else fb.uend) then (true, retract fb b)
      else (false, fb) := by
  have hptr : b.start + sz - sz = b.start := Nat.add_sub_cancel _ _
  have hstop : b.start + b.len = b.stop := rfl
  unfold unalloc
  dsimp only
  rw [hptr, hword, hstop, ite_not]
  rfl

/-- **`pj_fifobuf_unalloc`** of the newest block keeps a layout if it succeeds, and it succeeds if the
block is retractable. -/
theorem Layout.unalloc (h : Layout fb (rest ++ [b])) (hlen : ∀ r ∈ rest ++ [b], 4 ≤ r.len) :
    (Retractable fb b ↔ b.stop = if fb.uend = fb.first then fb.last else fb.uend) ∧
      (Retractable fb b → Layout (retract fb b) rest) := by
  have hb := hlen b (List.mem_append_right rest List.mem_cons_self)
  have hstop : b.stop = b.start + b.len := rfl
  have hinside := h.inside (List.mem_append_right rest List.mem_cons_self)
  cases h with
  | linear begin_ok tiles end_le _ _ full =>
      obtain ⟨htiles, hend⟩ := Region.tiles_concat.mp tiles
      have hne : fb.uend ≠ fb.first := by omega
      refine ⟨iff_of_true (.inl hne) (by rw [if_neg hne, hend]), fun _ => ?_⟩
      refine .linear begin_ok htiles (by dsimp only [retract]; omega)
        (fun _ => by dsimp only [retract]; omega) (fun hnil => ?_) rfl
      rw [hnil, Region.tiles_nil] at htiles
      right
      dsimp only [retract]
      omega
  | whole begin_eq end_eq tiles lt full =>
      obtain ⟨htiles, hend⟩ := Region.tiles_concat.mp tiles
      refine ⟨iff_of_true (.inr hend) (by rw [if_pos end_eq, hend]), fun _ => ?_⟩
      exact .linear (.inl begin_eq) (by rw [← begin_eq] at htiles; exact htiles)
        (by dsimp only [retract]; omega) (fun _ => by dsimp only [retract]; omega)
        (fun _ => .inl begin_eq) rfl
  | wrapped pre post gap live_eq begin_ge begin_lt gap_le tiles_pre tiles_post end_le full =>
      rcases List.eq_nil_or_concat post with rfl | ⟨post, c, rfl⟩
      · -- the newest block is the last one in front of the gap
        rw [List.append_nil] at live_eq
        subst live_eq
        obtain ⟨htiles, hend⟩ := Region.tiles_concat.mp tiles_pre
        have hfirst : fb.uend = fb.first := (Region.tiles_nil.mp tiles_post).symm
        rw [if_pos hfirst]
        refine ⟨or_iff_right fun h => h hfirst, fun hretract => ?_⟩
        refine .linear (.inr begin_ge) htiles (by dsimp only [retract]; omega)
          (fun _ => by dsimp only [retract]; omega) (fun hnil => ?_) rfl
        rw [hnil, Region.tiles_nil] at htiles
        right
        dsimp only [retract]
        omega
      · rw [List.concat_eq_append, ← List.append_assoc] at live_eq
        obtain ⟨rfl, hc⟩ := List.append_inj' live_eq rfl
        obtain rfl : b = c := by simpa using hc
        rw [List.concat_eq_append] at tiles_post
        obtain ⟨htiles, hend⟩ := Region.tiles_concat.mp tiles_post
        have hne : fb.uend ≠ fb.first := by omega
        refine ⟨iff_of_true (.inl hne) (by rw [if_neg hne, hend]), fun _ => ?_⟩
        have hbelow : ¬ (retract fb b).uend = (retract fb b).ubegin := by
          dsimp only [retract]
          omega
        exact .wrapped pre post gap rfl begin_ge begin_lt gap_le tiles_pre htiles
          (by dsimp only [retract]; omega) (decide_eq_false hbelow).symm

/-! ## The empty buffer -/

/-- The only block, and the pointer behind it. -/
theorem Layout.uend_of_empty (h : Layout fb []) {size : UInt32} {r : Region} {fb' : Buf}
    (hallocated : Allocated fb size r fb') :
    (if r.stop = fb'.last then fb'.first else r.stop) = fb'.uend := by
  have hsz : 4 ≤ size.toNat + sz := Nat.le_add_left 4 _
  have hlen := hallocated.len
  have hfirst := hallocated.first
  have hlast := hallocated.last
  have hstop : r.stop = r.start + r.len := rfl
  have hresult := hallocated.result
  obtain ⟨start, hstart⟩ : ∃ start, start = if fb.uend ≤ fb.ubegin then fb.uend else fb.first :=
    ⟨_, rfl⟩
  by_cases hfull : fb.full = true
  · rw [Fifobuf.alloc, if_pos hfull] at hresult
    cases hresult
  rw [Bool.not_eq_true] at hfull
  by_cases hend : fb.ubegin ≤ fb.uend ∧ size.toNat + sz ≤ fb.last - fb.uend
  · rcases alloc_end hfull hend with ⟨fb₁, hsame, -, huend, -⟩
    obtain ⟨hptr, rfl⟩ := Prod.mk.inj (hresult.symm.trans hsame.result)
    rw [Option.some.injEq] at hptr
    have hplace : r.stop = fb.uend + (size.toNat + sz) := by
      dsimp only at hptr
      omega
    rw [huend, hfirst, hlast, hplace]
  · by_cases hroom : size.toNat + sz ≤ fb.ubegin - start
    · rcases alloc_start hfull hend hstart hroom with ⟨fb₁, hsame, -, huend, -⟩
      obtain ⟨hptr, rfl⟩ := Prod.mk.inj (hresult.symm.trans hsame.result)
      rw [Option.some.injEq] at hptr
      dsimp only at hptr
      have hbelow : fb.ubegin ≤ fb.last ∧ (fb.ubegin = fb.last → fb.ubegin = fb.uend) := by
        cases h with
        | linear _ tiles end_le _ _ _ =>
            rw [Region.tiles_nil] at tiles
            omega
        | whole _ _ _ _ full =>
            rw [hfull] at full
            cases full
        | wrapped pre post gap live_eq _ begin_lt _ _ _ _ _ => omega
      split at hstart
      · rw [if_neg (by omega)]
        omega
      · rw [if_neg (by omega)]
        omega
    · rw [alloc_none hend hstart hroom] at hresult
      cases hresult

/-- **When all blocks have gone**, and the buffer has room for a size, a block without content can be
allocated. -/
theorem Layout.alloc_of_empty (h : Layout fb []) (hroom : fb.first + sz ≤ fb.last) :
    ∃ r fb', Allocated fb 0 r fb' := by
  cases h with
  | linear begin_ok tiles end_le _ room full =>
      have hzero := room rfl
      rw [Region.tiles_nil] at tiles
      have hsz : sz = 4 := rfl
      have hsize : (0 : UInt32).toNat = 0 := rfl
      have hend : fb.ubegin ≤ fb.uend ∧ (0 : UInt32).toNat + sz ≤ fb.last - fb.uend := by omega
      rcases alloc_end full hend with ⟨fb', hallocated, -⟩
      exact ⟨_, fb', hallocated⟩
  | whole _ _ tiles lt _ =>
      rw [Region.tiles_nil] at tiles
      omega
  | wrapped pre post gap live_eq begin_ge begin_lt gap_le tiles_pre tiles_post end_le full =>
      obtain ⟨rfl, rfl⟩ := List.append_eq_nil_iff.mp live_eq.symm
      rw [Region.tiles_nil] at tiles_pre tiles_post
      have hsz : sz = 4 := rfl
      have hsize : (0 : UInt32).toNat = 0 := rfl
      have hnotfull : fb.full = false := by
        rw [full, decide_eq_false_iff_not]
        omega
      have hend : ¬ (fb.ubegin ≤ fb.uend ∧ (0 : UInt32).toNat + sz ≤ fb.last - fb.uend) := by omega
      have hstart : (0 : UInt32).toNat + sz ≤ fb.ubegin - fb.uend := by omega
      rcases alloc_start hnotfull hend (if_pos end_le).symm hstart with ⟨fb', hallocated, -⟩
      exact ⟨_, fb', hallocated⟩

/-- An empty buffer with its pointers at the beginning has room for all of it. -/
theorem alloc_all {fb : Buf} {size : UInt32} (hbegin : fb.ubegin = fb.first) (hend : fb.uend = fb.first)
    (hfull : fb.full = false) (hsize : fb.first + (size.toNat + sz) = fb.last) :
    ∃ r fb', Allocated fb size r fb' := by
  have hroom : fb.ubegin ≤ fb.uend ∧ size.toNat + sz ≤ fb.last - fb.uend := by omega
  rcases alloc_end hfull hroom with ⟨fb', hallocated, -⟩
  exact ⟨_, fb', hallocated⟩

end Fifobuf
