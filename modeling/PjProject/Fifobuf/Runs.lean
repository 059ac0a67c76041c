import PjProject.Fifobuf.Fifobuf
import PjProject.Library.Run

set_option autoImplicit false

/-! # Runs of a FIFO buffer

A user allocates blocks, frees the oldest one, takes the newest one back, and writes into its blocks. What
it has been given is the ghost list of the blocks in use. The blocks stay apart and keep their sizes, and
nothing is refused, exactly as long as no block is taken back that stands in front of the unused piece with
none left behind it (`always_good_iff`).
-/

namespace Fifobuf

open Region (Apart)

/-- What the user does. -/
inductive Op where
  | alloc (size : UInt32)
  /-- The oldest block. -/
  | free
  /-- The newest block. -/
  | unalloc
  /-- Write a byte into the block with this number. -/
  | put (n off : Nat) (byte : UInt8)
  deriving DecidableEq

/-- The buffer and what its user knows. -/
structure World where
  fb : Buf
  /-- The blocks in use, with the sizes in front of them, the oldest one first. -/
  live : List Region
  /-- History: a block was not freed or not taken back. -/
  refused : Bool

/-- A new buffer. -/
def start (mem : Nat → UInt8) (buffer : Nat) (size : UInt32) : World :=
  ⟨init mem buffer size, [], false⟩

/-- What a call to free or take back leaves: these blocks, if it succeeds. -/
def settle (w : World) (live : List Region) : Bool × Buf → World
  | (true, fb) => { w with fb := fb, live := live }
  | (false, fb) => { w with fb := fb, refused := true }

/-- Free the oldest block. -/
def freeOldest (w : World) : List Region → World
  | [] => w
  | b :: rest => settle w rest (free w.fb (b.start + sz))

/-- Take the newest block back. -/
def takeBack (w : World) : Option Region → World
  | none => w
  | some b => settle w w.live.dropLast (unalloc w.fb (b.start + sz))

/-- A call of the user, or a byte that it writes. -/
def act (w : World) : Op → World
  | .alloc size =>
      match alloc w.fb size with
      | (some buf, fb) => { w with fb := fb, live := w.live ++ [⟨buf - sz, size.toNat + sz⟩] }
      | (none, fb) => { w with fb := fb }
  | .free => freeOldest w w.live
  | .unalloc => takeBack w w.live.getLast?
  | .put n off byte =>
      match w.live[n]? with
      | none => w
      | some b =>
          if sz + off < b.len then
            { w with fb := { w.fb with mem := Function.update w.fb.mem (b.start + sz + off) byte } }
          else w

/-- A step, which never stops. -/
def step (w : World) (op : Op) : Except Empty World := .ok (act w op)

/-- What the user relies on. -/
structure Good (w : World) : Prop where
  refused : w.refused = false
  inside : ∀ b ∈ w.live, w.fb.first ≤ b.start ∧ b.stop ≤ w.fb.last
  apart : w.live.Pairwise Apart
  sizes : ∀ b ∈ w.live, (getWord w.fb.mem b.start).toNat = b.len
  /-- Without a block, there is room for one that fills the buffer once a block, which can be had, has come
  and gone. -/
  refill : w.live = [] → ∀ all : UInt32, w.fb.first + (all.toNat + sz) = w.fb.last →
    (∃ size buf fb, alloc w.fb size = (some buf, fb)) ∧
      ∀ size buf fb, alloc w.fb size = (some buf, fb) →
        ∃ fb', free fb buf = (true, fb') ∧ ∃ buf' fb'', alloc fb' all = (some buf', fb'')

/-- The invariant. -/
structure Inv (w : World) : Prop where
  refused : w.refused = false
  small : w.fb.last < w.fb.first + 4294967296
  layout : Layout w.fb w.live
  len : ∀ b ∈ w.live, 4 ≤ b.len
  sizes : ∀ b ∈ w.live, (getWord w.fb.mem b.start).toNat = b.len

variable {w : World}

/-- A block that is no longer than the buffer has its size in front of it. -/
theorem Allocated.size {fb fb' : Buf} {size : UInt32} {r : Region} (h : Allocated fb size r fb')
    (hsmall : fb.last < fb.first + 4294967296) (hinside : fb'.first ≤ r.start ∧ r.stop ≤ fb'.last) :
    (getWord fb'.mem r.start).toNat = r.len := by
  have hfirst := h.first
  have hlast := h.last
  have hstop : r.stop = r.start + r.len := rfl
  rw [h.mem, getWord_setWord, UInt32.toNat_ofNat']
  exact Nat.mod_eq_of_lt (by omega)

/-- The size of a block survives what is written apart from it. -/
theorem getWord_of_apart {mem : Nat → UInt8} {r b : Region} {v : UInt32} (h : b.Apart r)
    (hb : 4 ≤ b.len) (hr : 4 ≤ r.len) : getWord (setWord mem r.start v) b.start = getWord mem b.start := by
  refine getWord_congr fun a hle hlt => setWord_of_apart ?_
  have hstop : b.stop = b.start + b.len := rfl
  have hstop' : r.stop = r.start + r.len := rfl
  unfold Apart at h
  omega

theorem Inv.good (h : Inv w) : Good w := by
  refine ⟨h.refused, fun b hb => h.layout.inside hb, h.layout.pairwise, h.sizes, ?_⟩
  intro hnil all hall
  have hlayout := h.layout
  rw [hnil] at hlayout
  constructor
  · rcases hlayout.alloc_of_empty (by omega) with ⟨r, fb, hallocated⟩
    exact ⟨0, _, fb, hallocated.result⟩
  · intro size buf fb hresult
    rcases hlayout.alloc size with hnone | ⟨r, fb', hallocated, hlayout'⟩
    · rw [hnone] at hresult
      cases hresult
    · obtain ⟨hbuf, rfl⟩ := Prod.mk.inj (hresult.symm.trans hallocated.result)
      obtain rfl : buf = r.start + sz := by simpa using hbuf
      have hlen : ∀ b ∈ [] ++ [r], 4 ≤ b.len := by
        intro b hb
        obtain rfl : b = r := by simpa using hb
        rw [hallocated.len]
        exact Nat.le_add_left 4 _
      have hr : r ∈ [] ++ [r] := by simp
      have hsize := hallocated.size h.small (hlayout'.inside hr)
      rw [List.nil_append] at hlayout' hlen
      -- the only block goes, and the pointers are reset
      refine ⟨_, hlayout'.free_eq (hlen r (by simp)) hsize, ?_⟩
      have hreset := hlayout.uend_of_empty hallocated
      have hfirst := hallocated.first
      have hlast := hallocated.last
      have hadvance : advance fb r.stop = { fb with ubegin := fb.first, uend := fb.first, full := false } := by
        unfold advance
        dsimp only
        rw [if_pos hreset]
      rw [hadvance]
      have hsum : fb.first + (all.toNat + sz) = fb.last := by omega
      rcases @alloc_all { fb with ubegin := fb.first, uend := fb.first, full := false } all rfl rfl rfl hsum
        with ⟨r', fb'', hallocated'⟩
      exact ⟨_, fb'', hallocated'.result⟩

theorem inv_start (mem : Nat → UInt8) (buffer : Nat) (size : UInt32) : Inv (start mem buffer size) := by
  have hsize := size.toNat_lt
  refine ⟨rfl, ?_, layout_init mem buffer size, by simp [start], by simp [start]⟩
  show buffer + size.toNat < buffer + 4294967296
  omega

/-! ## Each call -/

theorem Inv.alloc (h : Inv w) (size : UInt32) : Inv (act w (.alloc size)) := by
  rcases h.layout.alloc size with hnone | ⟨r, fb, hallocated, hlayout⟩
  · simp only [act, hnone]
    exact h
  · have hlen : ∀ b ∈ w.live ++ [r], 4 ≤ b.len := by
      intro b hb
      rcases List.mem_append.mp hb with hb | hb
      · exact h.len b hb
      · obtain rfl : b = r := by simpa using hb
        rw [hallocated.len]
        exact Nat.le_add_left 4 _
    have hact : act w (.alloc size) = { w with fb := fb, live := w.live ++ [r] } := by
      have hr : (⟨r.start + sz - sz, size.toNat + sz⟩ : Region) = r := by
        rw [Nat.add_sub_cancel, ← hallocated.len]
      simp only [act, hallocated.result, hr]
    have hr : r ∈ w.live ++ [r] := List.mem_append_right _ List.mem_cons_self
    rw [hact]
    refine ⟨h.refused, ?_, hlayout, hlen, fun b hb => ?_⟩
    · have hsmall := h.small
      rw [← hallocated.first, ← hallocated.last] at hsmall
      exact hsmall
    · rcases List.mem_append.mp hb with hold | hnew
      · have hapart := (List.pairwise_append.mp hlayout.pairwise).2.2 b hold r List.mem_cons_self
        show (getWord fb.mem b.start).toNat = b.len
        rw [hallocated.mem, getWord_of_apart hapart (hlen b hb) (hlen r hr)]
        exact h.sizes b hold
      · obtain rfl : b = r := by simpa using hnew
        exact hallocated.size h.small (hlayout.inside hr)

theorem Inv.free (h : Inv w) : Inv (act w .free) := by
  cases hlive : w.live with
  | nil =>
      rw [act, hlive]
      exact h
  | cons b rest =>
      have hlayout := h.layout
      have hlen := h.len
      have hsizes := h.sizes
      rw [hlive] at hlayout hlen hsizes
      have hfree := hlayout.free_eq (hlen b List.mem_cons_self) (hsizes b List.mem_cons_self)
      have hsame := sameBuffer_advance w.fb b.stop
      rw [act, hlive, freeOldest, hfree, settle]
      refine ⟨h.refused, ?_, hlayout.free hlen, fun r hr => hlen r (List.mem_cons_of_mem b hr),
        fun r hr => ?_⟩
      · have hsmall := h.small
        rw [← hsame.first, ← hsame.last] at hsmall
        exact hsmall
      · show (getWord (advance w.fb b.stop).mem r.start).toNat = r.len
        rw [hsame.mem]
        exact hsizes r (List.mem_cons_of_mem b hr)

/-- The newest block is the last one. -/
theorem Inv.newest (h : Inv w) {b : Region} (hlast : w.live.getLast? = some b) :
    Inv { w with live := w.live.dropLast ++ [b] } := by
  rw [List.dropLast_append_getLast? b hlast]
  exact h

theorem Inv.unalloc (h : Inv w) (hok : ∀ b, w.live.getLast? = some b → Retractable w.fb b) :
    Inv (act w .unalloc) := by
  cases hlast : w.live.getLast? with
  | none =>
      rw [act, hlast]
      exact h
  | some b =>
      have hn := h.newest hlast
      rcases hn.layout.unalloc hn.len with ⟨hiff, hkeep⟩
      have hresult := unalloc_eq (hn.sizes b (List.mem_append_right _ List.mem_cons_self))
      rw [if_pos (hiff.mp (hok b hlast))] at hresult
      rw [act, hlast, takeBack, hresult, settle]
      exact ⟨h.refused, h.small, hkeep (hok b hlast),
        fun r hr => hn.len r (List.mem_append_left _ hr), fun r hr => hn.sizes r (List.mem_append_left _ hr)⟩

/-- A block that cannot be taken back is refused. -/
theorem Inv.unalloc_refused (h : Inv w) {b : Region} (hlast : w.live.getLast? = some b)
    (hnot : ¬ Retractable w.fb b) : (act w .unalloc).refused = true := by
  have hn := h.newest hlast
  have hresult := unalloc_eq (hn.sizes b (List.mem_append_right _ List.mem_cons_self))
  rw [if_neg fun heq => hnot ((hn.layout.unalloc hn.len).1.mpr heq)] at hresult
  rw [act, hlast, takeBack, hresult, settle]

/-- Two blocks in use are apart. -/
theorem apart_of_mem {l : List Region} (h : l.Pairwise Apart) {r b : Region} (hr : r ∈ l) (hb : b ∈ l)
    (hne : r ≠ b) : r.Apart b := by
  have hsymm : Std.Symm Apart := ⟨fun _ _ h => h.symm⟩
  exact h.forall hr hb hne

/-- What the user writes does not touch a size. -/
theorem Inv.put (h : Inv w) (n off : Nat) (byte : UInt8) : Inv (act w (.put n off byte)) := by
  cases hget : w.live[n]? with
  | none =>
      simp only [act, hget]
      exact h
  | some b =>
      by_cases hoff : sz + off < b.len
      · simp only [act, hget, if_pos hoff]
        have hmem := List.mem_of_getElem? hget
        have hlayout : Layout { w.fb with mem := Function.update w.fb.mem (b.start + sz + off) byte } w.live := by
          cases h.layout with
          | linear h1 h2 h3 h4 h5 h6 => exact .linear h1 h2 h3 h4 h5 h6
          | whole h1 h2 h3 h4 h5 => exact .whole h1 h2 h3 h4 h5
          | wrapped pre post gap h1 h2 h3 h4 h5 h6 h7 h8 => exact .wrapped pre post gap h1 h2 h3 h4 h5 h6 h7 h8
        refine ⟨h.refused, h.small, hlayout, h.len, fun r hr => ?_⟩
        have hsame : getWord (Function.update w.fb.mem (b.start + sz + off) byte) r.start =
            getWord w.fb.mem r.start := by
          refine getWord_congr fun a hle hlt => Function.update_of_ne ?_ _ _
          rintro rfl
          -- the byte is behind the size of its own block, and apart from the others
          by_cases hrb : r = b
          · rw [hrb] at hle hlt
            have hsz : sz = 4 := rfl
            omega
          · have hapart := apart_of_mem h.layout.pairwise hr hmem hrb
            have hlen := h.len r hr
            have hstop : b.stop = b.start + b.len := rfl
            have hstop' : r.stop = r.start + r.len := rfl
            unfold Apart at hapart
            omega
        show (getWord (Function.update w.fb.mem (b.start + sz + off) byte) r.start).toNat = r.len
        rw [hsame]
        exact h.sizes r hr
      · simp only [act, hget, if_neg hoff]
        exact h

/-! ## Whole runs -/

/-- The newest block is taken back only where it can be. -/
def Allowed (w : World) (op : Op) : Prop :=
  op = .unalloc → ∀ b, w.live.getLast? = some b → Retractable w.fb b

/-- **One call** that is allowed keeps the invariant. -/
theorem Inv.act (h : Inv w) {op : Op} (hok : Allowed w op) : Inv (act w op) := by
  cases op with
  | alloc size => exact h.alloc size
  | free => exact h.free
  | unalloc => exact h.unalloc (hok rfl)
  | put n off byte => exact h.put n off byte

/-- **The blocks of a FIFO buffer are apart, keep their sizes and are never refused** exactly if no block is
taken back that stands in front of the unused piece while nothing is behind it. -/
theorem always_good_iff (mem : Nat → UInt8) (buffer : Nat) (size : UInt32) (ops : List Op) :
    Machine.Always step Good (start mem buffer size) ops ↔
      Machine.Meets step Allowed (start mem buffer size) ops := by
  refine Machine.always_iff_meets (fun w => Inv.good) ?_ ?_ ops _ (inv_start mem buffer size)
  · rintro w op w' hinv hok ⟨⟩
    exact hinv.act hok
  · intro w op hinv hnot
    refine ⟨Fifobuf.act w op, rfl, fun hgood => ?_⟩
    unfold Allowed at hnot
    push Not at hnot
    rcases hnot with ⟨rfl, b, hlast, hretract⟩
    have hrefused := hgood.refused
    rw [hinv.unalloc_refused hlast hretract] at hrefused
    cases hrefused

/-- Twenty bytes: two blocks of eight, the first one freed and allocated again at the beginning. -/
def wrapAndBack : List Op := [.alloc 4, .alloc 4, .free, .alloc 4, .unalloc, .unalloc]

/-- The block at the beginning is taken back, the one in front of the gap is refused. -/
theorem not_always_good_wrapAndBack :
    ¬ Machine.Always step Good (start (fun _ => 0) 0 20) wrapAndBack := by
  intro h
  have hrun : ∃ w, Machine.run step (start (fun _ => 0) 0 20) wrapAndBack = .ok w ∧
      w.refused = true := ⟨_, rfl, by decide⟩
  rcases hrun with ⟨w, hrun, hrefused⟩
  have hgood := (h.last hrun).refused
  rw [hrefused] at hgood
  cases hgood

end Fifobuf
