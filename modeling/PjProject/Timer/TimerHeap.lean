import Mathlib.Data.Prod.Lex
import PjProject.Library.MachineInt

set_option autoImplicit false

/-! # The timer heap

`pj_timer_heap_t` of `pjlib/src/pj/timer.c`: a binary heap of entries ordered by their expiry
time. An entry in the heap has a number, `_timer_id`; `timer_ids` maps the number to the slot
the entry is in. The same array holds the free numbers as a linked list: the negated value of a
free number's cell is the next free number.

An entry is known by its address, a `Nat`; `entries` is the memory the addresses point to. Both
arrays are functions on the index, and every access checks the index against the cells that were
allocated: an access beyond them is the fault `outOfBounds`. Loops take the number of iterations
they are allowed as `fuel`. `pj_size_t` has 64 bits and wraps, and the timer numbers are `int`: the
negation of the least `int` is taken to wrap too. The pool is taken to serve every request.
-/

namespace Timer

open MachineInt

/-! ## Time values -/

/-- `pj_time_val`. -/
structure PjTimeVal where
  sec : Int
  msec : Int
  deriving DecidableEq

namespace PjTimeVal

/-- `PJ_TIME_VAL_EQ`. -/
def eq (t1 t2 : PjTimeVal) : Bool := t1.sec == t2.sec && t1.msec == t2.msec

/-- `PJ_TIME_VAL_GT`. -/
def gt (t1 t2 : PjTimeVal) : Bool :=
  decide (t1.sec > t2.sec) || (t1.sec == t2.sec && decide (t1.msec > t2.msec))

/-- `PJ_TIME_VAL_GTE`. -/
def gte (t1 t2 : PjTimeVal) : Bool := gt t1 t2 || eq t1 t2

/-- `PJ_TIME_VAL_LT`. -/
def lt (t1 t2 : PjTimeVal) : Bool := !gte t1 t2

/-- `PJ_TIME_VAL_LTE`. -/
def lte (t1 t2 : PjTimeVal) : Bool := !gt t1 t2

/-- The `do .. while` loop of `pj_time_val_normalize`. `msec` is negative here, so its sum does
not leave the range of `long`. -/
def borrow (sec msec : Int) : PjTimeVal :=
  if msec + 1000 ≤ -1000 then borrow (int64 (sec - 1)) (msec + 1000)
  else ⟨int64 (sec - 1), msec + 1000⟩
termination_by (-msec).toNat

/-- `pj_time_val_normalize`. -/
def normalize (t : PjTimeVal) : PjTimeVal :=
  let t :=
    if t.msec ≥ 1000 then ⟨int64 (t.sec + t.msec / 1000), t.msec % 1000⟩
    else if t.msec ≤ -1000 then borrow t.sec t.msec
    else t
  if t.sec ≥ 1 ∧ t.msec < 0 then ⟨t.sec - 1, t.msec + 1000⟩
  else if t.sec < 0 ∧ t.msec > 0 then ⟨t.sec + 1, t.msec - 1000⟩
  else t

/-- `PJ_TIME_VAL_ADD`. -/
def add (t1 t2 : PjTimeVal) : PjTimeVal :=
  normalize ⟨int64 (t1.sec + t2.sec), int64 (t1.msec + t2.msec)⟩

/-- `PJ_TIME_VAL_SUB`. -/
def sub (t1 t2 : PjTimeVal) : PjTimeVal :=
  normalize ⟨int64 (t1.sec - t2.sec), int64 (t1.msec - t2.msec)⟩

/-- `PJ_TIME_VAL_MSEC`, without its overflow: the time value as a number of milliseconds. -/
def toMsec (t : PjTimeVal) : Int := t.sec * 1000 + t.msec

/-- `next_delay` when no entry is left: both fields `PJ_MAXINT32`. -/
def maxDelay : PjTimeVal := ⟨2147483647, 2147483647⟩

end PjTimeVal

/-- A sample of the clock as `pj_gettickcount` returns it. -/
structure Tick where
  val : PjTimeVal
  sec_nonneg : 0 ≤ val.sec
  sec_le : val.sec ≤ 9223372036854775807
  msec_nonneg : 0 ≤ val.msec
  msec_lt : val.msec < 1000

/-! ## The data model -/

/-- `pj_timer_entry`. `cb` says whether the entry has a callback. -/
structure PjTimerEntry where
  id : Int
  timerId : Int
  timerValue : PjTimeVal
  cb : Bool
  grpLock : Option Nat

/-- `pj_timer_entry_init`. It leaves `_timer_value` alone; the value is not read before the entry
is scheduled. -/
def pjTimerEntryInit (id : Int) (cb : Bool) : PjTimerEntry :=
  { id := id, timerId := -1, timerValue := ⟨0, 0⟩, cb := cb, grpLock := none }

/-- `pj_timer_heap_t`, with the entries in memory and the references held on group locks. -/
structure PjTimerHeap where
  maxSize : Nat
  curSize : Nat
  maxEntriesPerPoll : Nat
  heap : Nat → Nat
  timerIds : Int → Int
  timerIdsFreelist : Int
  entries : Nat → PjTimerEntry
  grpRefs : Nat → Int

/-- `n` as a `pj_size_t`. -/
def sizeT (n : Nat) : Nat := n % 18446744073709551616

/-- The cells of an array for which `width * count` bytes were asked. -/
def cellsOf (width count : Nat) : Nat := sizeT (width * count) / width

theorem sizeT_of_lt {n : Nat} (h : n < 18446744073709551616) : sizeT n = n := Nat.mod_eq_of_lt h

theorem cellsOf_of_lt {width count : Nat} (hw : 0 < width)
    (h : width * count < 18446744073709551616) : cellsOf width count = count := by
  rw [cellsOf, sizeT_of_lt h, Nat.mul_div_cancel_left count hw]

/-- How a call can go wrong: an index beyond an array, a false `pj_assert`, a call through the
heap's `callback`, which no function sets, or a loop that has not ended. -/
inductive Fault where
  | outOfBounds
  | assertion
  | noCallback
  | diverges
  deriving DecidableEq

/-- The status codes of `pj_timer_heap_schedule`. -/
inductive Status where
  | success
  | einval
  | einvalidop
  | full
  deriving DecidableEq

/-- The memory with one entry changed. -/
def PjTimerHeap.setEntry (ht : PjTimerHeap) (e : Nat) (x : PjTimerEntry) : PjTimerHeap :=
  { ht with entries := Function.update ht.entries e x }

/-- `heap[slot]`. A pointer has eight bytes. -/
def PjTimerHeap.heapAt (ht : PjTimerHeap) (slot : Nat) : Except Fault Nat :=
  if slot < cellsOf 8 ht.maxSize then .ok (ht.heap slot) else .error .outOfBounds

/-- `timer_ids[id]`. A `pj_timer_id_t` has four bytes. -/
def PjTimerHeap.timerIdAt (ht : PjTimerHeap) (id : Int) : Except Fault Int :=
  if 0 ≤ id ∧ id < cellsOf 4 ht.maxSize then .ok (ht.timerIds id) else .error .outOfBounds

/-- `timer_ids[id] = v`. -/
def PjTimerHeap.setTimerId (ht : PjTimerHeap) (id v : Int) : Except Fault PjTimerHeap :=
  if 0 ≤ id ∧ id < cellsOf 4 ht.maxSize then
    .ok { ht with timerIds := Function.update ht.timerIds id v }
  else .error .outOfBounds

/-- `heap[slot]->_timer_value`. -/
def PjTimerHeap.valueAt (ht : PjTimerHeap) (slot : Nat) : Except Fault PjTimeVal := do
  let e ← ht.heapAt slot
  return (ht.entries e).timerValue

/-! ## Moving nodes -/

/-- `HEAP_PARENT`. -/
def heapParent (x : Nat) : Nat := if x = 0 then 0 else (x - 1) / 2

/-- `HEAP_LEFT`. -/
def heapLeft (x : Nat) : Nat := x + x + 1

/-- `copy_node`. -/
def copyNode (ht : PjTimerHeap) (slot : Nat) (movedNode : Nat) : Except Fault PjTimerHeap :=
  if slot < cellsOf 8 ht.maxSize then
    PjTimerHeap.setTimerId { ht with heap := Function.update ht.heap slot movedNode }
      (ht.entries movedNode).timerId (int32 slot)
  else .error .outOfBounds

/-- `pop_freelist`. -/
def popFreelist (ht : PjTimerHeap) : Except Fault (PjTimerHeap × Int) := do
  let next ← ht.timerIdAt ht.timerIdsFreelist
  return ({ ht with timerIdsFreelist := int32 (-next) }, ht.timerIdsFreelist)

/-- `push_freelist`. -/
def pushFreelist (ht : PjTimerHeap) (oldId : Int) : Except Fault PjTimerHeap := do
  let ht ← ht.setTimerId oldId (int32 (-ht.timerIdsFreelist))
  return { ht with timerIdsFreelist := oldId }

/-- The smaller of the two children, the first of which is `child`. -/
def smallerChild (ht : PjTimerHeap) (child : Nat) : Except Fault Nat := do
  if child + 1 < ht.curSize then
    let right ← ht.valueAt (child + 1)
    let left ← ht.valueAt child
    return if right.lt left then child + 1 else child
  else return child

/-- `reheap_down`. -/
def reheapDown : Nat → PjTimerHeap → Nat → Nat → Nat → Except Fault PjTimerHeap
  | 0, _, _, _, _ => .error .diverges
  | fuel + 1, ht, movedNode, slot, child =>
      if child < ht.curSize then do
        let child ← smallerChild ht child
        let node ← ht.heapAt child
        if (ht.entries node).timerValue.lt (ht.entries movedNode).timerValue then
          let ht ← copyNode ht slot node
          reheapDown fuel ht movedNode child (heapLeft child)
        else copyNode ht slot movedNode
      else copyNode ht slot movedNode

/-- `reheap_up`. -/
def reheapUp : Nat → PjTimerHeap → Nat → Nat → Nat → Except Fault PjTimerHeap
  | 0, _, _, _, _ => .error .diverges
  | fuel + 1, ht, movedNode, slot, parent =>
      if slot > 0 then do
        let node ← ht.heapAt parent
        if (ht.entries movedNode).timerValue.lt (ht.entries node).timerValue then
          let ht ← copyNode ht slot node
          reheapUp fuel ht movedNode parent (heapParent parent)
        else copyNode ht slot movedNode
      else copyNode ht slot movedNode

/-- The end of `remove_node`: the last node takes the place of the one removed. -/
def replaceNode (ht : PjTimerHeap) (slot movedNode : Nat) : Except Fault PjTimerHeap := do
  let ht ← copyNode ht slot movedNode
  let parent := heapParent slot
  let value ← ht.valueAt parent
  if (ht.entries movedNode).timerValue.gte value then
    reheapDown (ht.curSize + 1) ht movedNode slot (heapLeft slot)
  else reheapUp (slot + 1) ht movedNode slot parent

/-- `remove_node`. -/
def removeNode (ht : PjTimerHeap) (slot : Nat) : Except Fault (PjTimerHeap × Nat) := do
  let removedNode ← ht.heapAt slot
  let ht ← pushFreelist ht (ht.entries removedNode).timerId
  let ht := { ht with curSize := ht.curSize - 1 }
  let ht := ht.setEntry removedNode { ht.entries removedNode with timerId := -1 }
  if slot < ht.curSize then
    let movedNode ← ht.heapAt ht.curSize
    let ht ← replaceNode ht slot movedNode
    return (ht, removedNode)
  else return (ht, removedNode)

/-- What `pj_timer_heap_create` and `grow_heap` write into the cell `i` of `timer_ids`. -/
def freshLink (i : Int) : Int := int32 (-int32 (i + 1))

/-- `grow_heap`: two copies of all the old cells, and a loop over the cells of `timer_ids` from
`max_size` to the new size. The cells of the new `heap` beyond the old ones are not initialised; they
keep what the function on slots has there. -/
def growHeap (ht : PjTimerHeap) : Except Fault PjTimerHeap :=
  let newSize := sizeT (ht.maxSize * 2)
  if cellsOf 8 ht.maxSize ≤ cellsOf 8 newSize ∧ cellsOf 4 ht.maxSize ≤ cellsOf 4 newSize ∧
      (ht.maxSize < newSize → newSize ≤ cellsOf 4 newSize) then
    .ok { ht with
      timerIds := fun i =>
        if (ht.maxSize : Int) ≤ i ∧ i < newSize then freshLink i else ht.timerIds i
      maxSize := newSize }
  else .error .outOfBounds

/-- The start of `insert_node`: the arrays grow when they are about to fill up. -/
def growIfFull (ht : PjTimerHeap) : Except Fault PjTimerHeap :=
  if sizeT (ht.curSize + 2) ≥ ht.maxSize then growHeap ht else .ok ht

/-- `insert_node`. -/
def insertNode (ht : PjTimerHeap) (newNode : Nat) : Except Fault PjTimerHeap := do
  let ht ← growIfFull ht
  let ht ← reheapUp (ht.curSize + 1) ht newNode ht.curSize (heapParent ht.curSize)
  return { ht with curSize := ht.curSize + 1 }

/-! ## Scheduling and cancelling -/

/-- `schedule_entry`. -/
def scheduleEntry (ht : PjTimerHeap) (entry : Nat) (futureTime : PjTimeVal) :
    Except Fault (PjTimerHeap × Status) :=
  if ht.curSize < ht.maxSize then do
    let (ht, newId) ← popFreelist ht
    let ht := ht.setEntry entry
      { ht.entries entry with timerId := newId, timerValue := futureTime }
    let ht ← insertNode ht entry
    return (ht, .success)
  else .ok (ht, .full)

/-- `pj_grp_lock_add_ref`, on the lock of an entry if it has one. -/
def addRef (ht : PjTimerHeap) : Option Nat → PjTimerHeap
  | none => ht
  | some g => { ht with grpRefs := Function.update ht.grpRefs g (ht.grpRefs g + 1) }

/-- `pj_grp_lock_dec_ref`, on the lock of an entry if it has one. -/
def decRef (ht : PjTimerHeap) : Option Nat → PjTimerHeap
  | none => ht
  | some g => { ht with grpRefs := Function.update ht.grpRefs g (ht.grpRefs g - 1) }

/-- `schedule_w_grp_lock`. The clock is sampled inside the call; `idVal` is `none` where the
source passes `set_id = PJ_FALSE`. -/
def scheduleWGrpLock (ht : PjTimerHeap) (entry : Nat) (clock : Tick) (delay : PjTimeVal)
    (idVal : Option Int) (grpLock : Option Nat) : Except Fault (PjTimerHeap × Status) :=
  if (ht.entries entry).cb = false then .ok (ht, .einval)
  else if 1 ≤ (ht.entries entry).timerId then .ok (ht, .einvalidop)
  else do
    let expires := clock.val.add delay
    let (ht, status) ← scheduleEntry ht entry expires
    if status = .success then
      let x := ht.entries entry
      let ht := ht.setEntry entry { x with id := idVal.getD x.id, grpLock := grpLock }
      return (addRef ht grpLock, status)
    else return (ht, status)

/-- The flags of `cancel`. -/
structure CancelFlags where
  dontCall : Bool
  dontAssert : Bool
  setId : Bool

/-- `cancel`: the heap after the call and the number of entries cancelled. -/
def cancel (ht : PjTimerHeap) (entry : Nat) (flags : CancelFlags) :
    Except Fault (PjTimerHeap × Nat) :=
  let x := ht.entries entry
  if x.timerId < 0 ∨ x.timerId > ht.maxSize then
    .ok (ht.setEntry entry { x with timerId := -1 }, 0)
  else do
    let timerNodeSlot ← ht.timerIdAt x.timerId
    if timerNodeSlot < 0 then
      return (ht.setEntry entry { x with timerId := -1 }, 0)
    else
      let node ← ht.heapAt timerNodeSlot.toNat
      if entry ≠ node then
        if flags.dontAssert = false then .error .assertion
        else return (ht.setEntry entry { x with timerId := -1 }, 0)
      else
        let (ht, _) ← removeNode ht timerNodeSlot.toNat
        if flags.dontCall = false then .error .noCallback
        else return (ht, 1)

/-- `cancel_timer`. -/
def cancelTimer (ht : PjTimerHeap) (entry : Nat) (flags : CancelFlags) (idVal : Int) :
    Except Fault (PjTimerHeap × Nat) := do
  let (ht, count) ← cancel ht entry { flags with dontCall := true }
  let x := ht.entries entry
  let ht := if flags.setId then ht.setEntry entry { x with id := idVal } else ht
  let x := ht.entries entry
  return (decRef (ht.setEntry entry { x with grpLock := none }) x.grpLock, count)

/-- `pj_timer_heap_cancel`. -/
def pjTimerHeapCancel (ht : PjTimerHeap) (entry : Nat) : Except Fault (PjTimerHeap × Nat) :=
  cancelTimer ht entry { dontCall := false, dontAssert := false, setId := false } 0

/-- `pj_timer_heap_cancel_if_active`. -/
def pjTimerHeapCancelIfActive (ht : PjTimerHeap) (entry : Nat) (idVal : Int) :
    Except Fault (PjTimerHeap × Nat) :=
  cancelTimer ht entry { dontCall := false, dontAssert := true, setId := true } idVal

/-- `pj_timer_heap_create`, next to entries that have all been through `pj_timer_entry_init`. Its
loop writes `max_size` cells of `timer_ids`. -/
def pjTimerHeapCreate (size : Nat) (ids : Nat → Int) (cbs : Nat → Bool) :
    Except Fault PjTimerHeap :=
  let size := sizeT (size + 2)
  if size ≤ cellsOf 4 size then
    .ok
      { maxSize := size
        curSize := 0
        maxEntriesPerPoll := 64
        heap := fun _ => 0
        timerIds := freshLink
        timerIdsFreelist := 1
        entries := fun e => pjTimerEntryInit (ids e) (cbs e)
        grpRefs := fun _ => 0 }
  else .error .outOfBounds

/-! ## The system: calls, callbacks and polls -/

/-- The calls a program makes on a timer heap, also from inside a callback. -/
inductive TimerCall where
  | schedule (entry : Nat) (clock : Tick) (delay : PjTimeVal)
  | scheduleWGrpLock (entry : Nat) (clock : Tick) (delay : PjTimeVal) (idVal : Int)
      (grpLock : Option Nat)
  | cancel (entry : Nat)
  | cancelIfActive (entry : Nat) (idVal : Int)

/-- What a caller sees of a run: a schedule that succeeded, a cancel that returned 1, a callback
that was invoked. -/
inductive Event where
  | scheduled (entry : Nat) (expires : PjTimeVal)
  | cancelled (entry : Nat)
  | fired (entry : Nat) (expires now : PjTimeVal)
  deriving DecidableEq

/-- A timer heap and the events so far, oldest first. -/
structure TimerSys where
  ht : PjTimerHeap
  log : List Event

/-- A schedule, logged when it succeeds. -/
def scheduleLogged (s : TimerSys) (entry : Nat) (clock : Tick) (delay : PjTimeVal)
    (idVal : Option Int) (grpLock : Option Nat) : Except Fault TimerSys := do
  let (ht, status) ← scheduleWGrpLock s.ht entry clock delay idVal grpLock
  return ⟨ht, if status = .success
    then s.log ++ [.scheduled entry (ht.entries entry).timerValue] else s.log⟩

/-- A cancel, logged when it returns 1. -/
def cancelLogged (s : TimerSys) (entry : Nat) (r : Except Fault (PjTimerHeap × Nat)) :
    Except Fault TimerSys := do
  let (ht, count) ← r
  return ⟨ht, if count = 1 then s.log ++ [.cancelled entry] else s.log⟩

/-- One call. -/
def timerCall (s : TimerSys) : TimerCall → Except Fault TimerSys
  | .schedule entry clock delay => scheduleLogged s entry clock delay none none
  | .scheduleWGrpLock entry clock delay idVal grpLock =>
      scheduleLogged s entry clock delay (some idVal) grpLock
  | .cancel entry => cancelLogged s entry (pjTimerHeapCancel s.ht entry)
  | .cancelIfActive entry idVal =>
      cancelLogged s entry (pjTimerHeapCancelIfActive s.ht entry idVal)

/-- The calls a callback makes, in order. -/
def timerCalls (s : TimerSys) : List TimerCall → Except Fault TimerSys
  | [] => .ok s
  | c :: l => do
      let s ← timerCall s c
      timerCalls s l

/-- The loop of `pj_timer_heap_poll`. The `k`-th callback invoked makes the calls of the `k`-th
list of `cbs`; a callback beyond the end of `cbs` makes none. -/
def pollLoop (now : Tick) : Nat → TimerSys → Nat → List (List TimerCall) →
    Except Fault (TimerSys × Nat)
  | 0, _, _, _ => .error .diverges
  | fuel + 1, s, count, cbs =>
      if s.ht.curSize ≠ 0 then do
        let first ← s.ht.valueAt 0
        if first.lte now.val ∧ count < s.ht.maxEntriesPerPoll then
          let (ht, node) ← removeNode s.ht 0
          let x := ht.entries node
          let ht := ht.setEntry node { x with grpLock := none }
          let s ←
            if x.cb then
              timerCalls ⟨ht, s.log ++ [.fired node x.timerValue now.val]⟩ (cbs.headD [])
            else .ok ⟨ht, s.log⟩
          pollLoop now fuel ⟨decRef s.ht x.grpLock, s.log⟩ (count + 1) cbs.tail
        else return (s, count)
      else return (s, count)

/-- What `pj_timer_heap_poll` leaves in `next_delay`. -/
def nextDelay (ht : PjTimerHeap) (now : Tick) : Except Fault PjTimeVal :=
  if ht.curSize ≠ 0 then do
    let first ← ht.valueAt 0
    let d := first.sub now.val
    return if d.sec < 0 ∨ d.msec < 0 then ⟨0, 0⟩ else d
  else .ok PjTimeVal.maxDelay

/-- `pj_timer_heap_poll`: the system after the poll, the number of callbacks, and the delay when
the caller passes a place for it. -/
def pjTimerHeapPoll (s : TimerSys) (now : Tick) (wantDelay : Bool)
    (cbs : List (List TimerCall)) : Except Fault (TimerSys × Nat × Option PjTimeVal) :=
  if s.ht.curSize = 0 ∧ wantDelay then .ok (s, 0, some PjTimeVal.maxDelay)
  else do
    let (s, count) ← pollLoop now (s.ht.maxEntriesPerPoll + 1) s 0 cbs
    if wantDelay then
      let d ← nextDelay s.ht now
      return (s, count, some d)
    else return (s, count, none)

/-- The steps of a run. -/
inductive HeapCall where
  | call (c : TimerCall)
  | setMaxTimedOutPerPoll (count : Nat)
  | poll (now : Tick) (wantDelay : Bool) (cbs : List (List TimerCall))

/-- One step of a run. -/
def heapStep (s : TimerSys) : HeapCall → Except Fault TimerSys
  | .call c => timerCall s c
  | .setMaxTimedOutPerPoll count => .ok { s with ht := { s.ht with maxEntriesPerPoll := count } }
  | .poll now wantDelay cbs => do
      let (s, _) ← pjTimerHeapPoll s now wantDelay cbs
      return s

/-- A new timer heap, before any call. -/
def timerSysCreate (size : Nat) (ids : Nat → Int) (cbs : Nat → Bool) : Except Fault TimerSys := do
  let ht ← pjTimerHeapCreate size ids cbs
  return ⟨ht, []⟩

end Timer

/-! ## Arithmetic of time values

The comparison macros are the lexicographic order of `(sec, msec)`, which is linear (`key`). The
result of `pj_time_val_normalize` is `Normal`: `msec` is below a second and has the sign of `sec`.
On normal values the lexicographic order is the order of the milliseconds, and the difference of
two of them is exact.
-/

namespace Timer

open MachineInt

namespace PjTimeVal

/-- The value the timer heap is ordered by. -/
def key (t : PjTimeVal) : Lex (Int × Int) := toLex (t.sec, t.msec)

theorem key_lt_iff (t1 t2 : PjTimeVal) :
    t1.key < t2.key ↔ t1.sec < t2.sec ∨ (t1.sec = t2.sec ∧ t1.msec < t2.msec) := by
  simp [key, Prod.Lex.toLex_lt_toLex]

theorem key_le_iff (t1 t2 : PjTimeVal) :
    t1.key ≤ t2.key ↔ t1.sec < t2.sec ∨ (t1.sec = t2.sec ∧ t1.msec ≤ t2.msec) := by
  simp [key, Prod.Lex.toLex_le_toLex]

theorem gt_iff (t1 t2 : PjTimeVal) : t1.gt t2 = true ↔ t2.key < t1.key := by
  rw [key_lt_iff]
  simp only [gt, Bool.or_eq_true, Bool.and_eq_true, decide_eq_true_eq, beq_iff_eq]
  omega

theorem gte_iff (t1 t2 : PjTimeVal) : t1.gte t2 = true ↔ t2.key ≤ t1.key := by
  rw [key_le_iff]
  simp only [gte, gt, eq, Bool.or_eq_true, Bool.and_eq_true, decide_eq_true_eq, beq_iff_eq]
  omega

theorem lt_iff (t1 t2 : PjTimeVal) : t1.lt t2 = true ↔ t1.key < t2.key := by
  rw [lt, Bool.not_eq_true', ← Bool.not_eq_true, gte_iff, not_le]

theorem lte_iff (t1 t2 : PjTimeVal) : t1.lte t2 = true ↔ t1.key ≤ t2.key := by
  rw [lte, Bool.not_eq_true', ← Bool.not_eq_true, gt_iff, not_lt]

/-! ## Normal values -/

/-- What `pj_time_val_normalize` leaves. -/
structure Normal (t : PjTimeVal) : Prop where
  msec_gt : -1000 < t.msec
  msec_lt : t.msec < 1000
  of_pos : 1 ≤ t.sec → 0 ≤ t.msec
  of_neg : t.sec < 0 → t.msec ≤ 0
  sec_ge : -9223372036854775808 ≤ t.sec
  sec_le : t.sec ≤ 9223372036854775807

theorem borrow_range (sec msec : Int) (h : msec ≤ -1000) :
    -1000 < (borrow sec msec).msec ∧ (borrow sec msec).msec ≤ 0 ∧
      -9223372036854775808 ≤ (borrow sec msec).sec ∧
      (borrow sec msec).sec ≤ 9223372036854775807 := by
  induction sec, msec using borrow.induct with
  | case1 sec msec hm ih =>
      rw [borrow, if_pos hm]
      exact ih hm
  | case2 sec msec hm =>
      rw [borrow, if_neg hm]
      have hr := int64_range (sec - 1)
      exact ⟨by simp only; omega, by simp only; omega, hr.1, hr.2⟩

/-- Below a second there is nothing to carry. -/
theorem normalize_small {t : PjTimeVal} (h1 : -1000 < t.msec) (h2 : t.msec < 1000) :
    normalize t =
      if t.sec ≥ 1 ∧ t.msec < 0 then ⟨t.sec - 1, t.msec + 1000⟩
      else if t.sec < 0 ∧ t.msec > 0 then ⟨t.sec + 1, t.msec - 1000⟩
      else t := by
  have hc : ¬ t.msec ≥ 1000 := by omega
  have hb : ¬ t.msec ≤ -1000 := by omega
  rw [normalize, if_neg hc, if_neg hb]

/-- The carry of `pj_time_val_normalize`: its first `if`. -/
theorem normalize_carry (t : PjTimeVal) (h1 : -9223372036854775808 ≤ t.sec)
    (h2 : t.sec ≤ 9223372036854775807) :
    ∃ u : PjTimeVal, (-1000 < u.msec ∧ u.msec < 1000 ∧ -9223372036854775808 ≤ u.sec ∧
        u.sec ≤ 9223372036854775807) ∧
      normalize t =
        if u.sec ≥ 1 ∧ u.msec < 0 then ⟨u.sec - 1, u.msec + 1000⟩
        else if u.sec < 0 ∧ u.msec > 0 then ⟨u.sec + 1, u.msec - 1000⟩
        else u := by
  by_cases hc : t.msec ≥ 1000
  · refine ⟨⟨int64 (t.sec + t.msec / 1000), t.msec % 1000⟩, ?_, by rw [normalize, if_pos hc]⟩
    have hr := int64_range (t.sec + t.msec / 1000)
    exact ⟨by simp only; omega, by simp only; omega, hr.1, hr.2⟩
  · by_cases hb : t.msec ≤ -1000
    · refine ⟨borrow t.sec t.msec, ?_, by rw [normalize, if_neg hc, if_pos hb]⟩
      obtain ⟨hm1, hm2, hr⟩ := borrow_range t.sec t.msec hb
      exact ⟨hm1, by omega, hr⟩
    · exact ⟨t, ⟨by omega, by omega, h1, h2⟩, normalize_small (by omega) (by omega)⟩

theorem normalize_normal (t : PjTimeVal) (h1 : -9223372036854775808 ≤ t.sec)
    (h2 : t.sec ≤ 9223372036854775807) : Normal (normalize t) := by
  obtain ⟨u, ⟨hm1, hm2, hs1, hs2⟩, hu⟩ := normalize_carry t h1 h2
  rw [hu]
  split_ifs with hb hc
  · constructor <;> simp only <;> omega
  · constructor <;> simp only <;> omega
  · constructor <;> omega

/-- An expiry time is normal, whatever the delay. -/
theorem add_normal (t1 t2 : PjTimeVal) : Normal (t1.add t2) := by
  have h := int64_range (t1.sec + t2.sec)
  exact normalize_normal _ h.1 h.2

/-- On normal values the order of the timer heap is the order of time. -/
theorem Normal.key_le_iff_toMsec {t1 t2 : PjTimeVal} (h1 : Normal t1) (h2 : Normal t2) :
    t1.key ≤ t2.key ↔ t1.toMsec ≤ t2.toMsec := by
  obtain ⟨a1, a2, a3, a4, -, -⟩ := h1
  obtain ⟨b1, b2, b3, b4, -, -⟩ := h2
  rw [key_le_iff]
  unfold toMsec
  omega

/-- The delay until a later expiry time is exact, and both its fields are nonnegative. -/
theorem sub_spec {t : PjTimeVal} (ht : Normal t) (now : Tick) (hlt : now.val.key < t.key) :
    0 ≤ (t.sub now.val).sec ∧ 0 ≤ (t.sub now.val).msec ∧
      (t.sub now.val).toMsec = t.toMsec - now.val.toMsec := by
  obtain ⟨a1, a2, a3, a4, a5, a6⟩ := ht
  obtain ⟨b1, b2, b3, b4⟩ := (⟨now.2, now.3, now.4, now.5⟩ : _ ∧ _ ∧ _ ∧ _)
  rw [key_lt_iff] at hlt
  have hs : int64 (t.sec - now.val.sec) = t.sec - now.val.sec :=
    int64_of_range (by omega) (by omega)
  have hm : int64 (t.msec - now.val.msec) = t.msec - now.val.msec :=
    int64_of_range (by omega) (by omega)
  rw [sub, hs, hm, normalize_small (by simp only; omega) (by simp only; omega)]
  unfold toMsec
  split_ifs with hb hc
  · simp only at hb ⊢; omega
  · simp only at hc ⊢; omega
  · simp only at hb hc ⊢; omega

end PjTimeVal

end Timer
