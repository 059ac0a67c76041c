import PjProject.Library.Run
import PjProject.Resolver.Cache

set_option autoImplicit false

/-! # Runs of the cache

The operations of the cache are taken one after the other, in any order, each in one hold of the
mutex: a query that looks for a response, the two ends of the callback that is called with one, and
an update. `owns_iff` gives the runs in which the table only refers to what its entries lie in: those
in which no update stores a response for a key whose entry is in use. Such an update leaves the
entry of the old `cached_res` in the table, with the new one as its value, and the end of the
callback then releases the pool in which the entry lies (`update_in_use`).
-/

namespace Resolver

open Machine

/-- An operation of the cache. -/
inductive CacheOp where
  /-- `pj_dns_resolver_start_query` looks for a response. -/
  | query (key : ResKey) (now : Int) (cb : Option Nat)
  /-- The callback of a query is called with the response found. -/
  | called (i : Nat)
  /-- It has returned, and the mutex is locked again. -/
  | returned (i : Nat)
  /-- `update_res_cache`. -/
  | update (key : ResKey) (status : Nat) (setExpiry : Bool) (pkt : Packet) (now : Int)
  deriving DecidableEq

/-- The cache of `pj_dns_resolver_create`. -/
def Cache.create : Cache := ⟨fun _ => zeroRes, 0, Hash.Table.empty, [], []⟩

/-- Take an operation. An end of a callback that is not being called changes nothing. -/
def CacheOp.apply (maxTtl : Nat) (c : Cache) : CacheOp → Cache
  | .query key now cb => (lookup key now cb c).1
  | .called i =>
      match c.hits[i]? with
      | some hit => hitCalled i hit c
      | none => c
  | .returned i =>
      match c.hits[i]? with
      | some hit => if hit.cb = none then hitDone i hit c else c
      | none => c
  | .update key status setExpiry pkt now => updateResCache key status setExpiry pkt now maxTtl c

/-- The step of the cache. It has no fault. -/
def cacheStep (maxTtl : Nat) (c : Cache) (op : CacheOp) : Except Empty Cache := .ok (op.apply maxTtl c)

/-- Every entry of the table uses the buffer and the key in the `cached_res` that is its value, and
that has not been released; each counts the table and the callbacks that use it; and a pool was only
released or reset when neither the table nor a callback of another caller referred to it. -/
structure Owns (c : Cache) : Prop where
  entries : ∀ e ∈ c.hrescache.entries,
    e.buf = e.value ∧ e.key = e.value ∧ (c.res e.value).released = false
  counts : ∀ a, a < c.next → (c.res a).released = false →
    (c.res a).refCnt = (if a ∈ c.hrescache.values then 1 else 0) + c.users a
  disposed : ∀ d ∈ c.disposed, d = (false, 0)

/-- No update stores a response over one in use. -/
def CacheOp.Allowed (maxTtl : Nat) (c : Cache) : CacheOp → Prop
  | .update key status setExpiry pkt _ => UpdateOk key status setExpiry pkt maxTtl c
  | _ => True

variable {c : Cache} {maxTtl : Nat}

/-- A run takes all of its operations. -/
theorem run_cacheStep (ops : List CacheOp) (c : Cache) :
    run (cacheStep maxTtl) c ops = .ok (ops.foldl (CacheOp.apply maxTtl) c) := by
  induction ops generalizing c with
  | nil => rfl
  | cons op ops ih => exact (run_cons_ok rfl).trans (ih _)

theorem cacheInv_create : CacheInv Cache.create := by
  constructor
  · exact Hash.owned_empty
  · exact fun a ha => absurd ha (Nat.not_lt_zero a)
  · intro a ha
    simp [Cache.refs, Cache.create, Cache.users, Hash.Table.empty, Hash.Table.values] at ha
  · exact fun d hd => absurd hd List.not_mem_nil

theorem CacheInv.owns (h : CacheInv c) : Owns c := by
  constructor
  · intro e he
    rcases h.owned.own e he with ⟨hbuf, hkey, -⟩
    exact ⟨hbuf, hkey, (h.alive_of_mem (Hash.mem_values.mpr ⟨e, he, rfl⟩)).2⟩
  · exact h.counted
  · exact h.disposed

/-- **An allowed operation** keeps the cache. -/
theorem cacheInv_apply {op : CacheOp} (h : CacheInv c) (hok : op.Allowed maxTtl c) :
    CacheInv (op.apply maxTtl c) := by
  cases op with
  | query key now cb => exact counted_lookup h key now cb
  | called i =>
      simp only [CacheOp.apply]
      split
      · rename_i hit hi
        exact counted_hitCalled h hi
      · exact h
  | returned i =>
      simp only [CacheOp.apply]
      split
      · rename_i hit hi
        split
        · exact counted_hitDone h hi
        · exact h
      · exact h
  | update key status setExpiry pkt now => exact cacheInv_updateResCache h hok now

/-- **An update over a response in use** leaves the entry of the old `cached_res` in the table, with
the new one as its value. -/
theorem update_in_use (h : CacheInv c) {key : ResKey} {status : Nat} {setExpiry : Bool} {pkt : Packet}
    (hnot : ¬ UpdateOk key status setExpiry pkt maxTtl c) (now : Int) :
    ¬ Owns (updateResCache key status setExpiry pkt now maxTtl c) := by
  unfold UpdateOk Unused at hnot
  push Not at hnot
  rcases hnot with ⟨rfl, httl, a, hget, husers⟩
  have ha := (get_eq_some h).mp hget
  have halive := h.alive_of_mem ha.1
  have hcnt : 1 < (c.res a).refCnt := by
    have := h.counted a halive.1 halive.2
    rw [refs_of_mem ha.1] at this
    omega
  let c' : Cache := c.modify a fun r => { r with refCnt := r.refCnt - 1 }
  have hentry : cacheEntry key c = allocEntry c' := by
    unfold cacheEntry
    rw [hget]
    simp [hcnt, c']
  -- The new entry gets the key of the old one, whose keys are as they were.
  let new : Cache := (allocEntry c').1.modify c.next fun r =>
    { r with key := key, pkt := pkt,
             expiryTime := if setExpiry then
               now + (responseTtl { pkt with rcode := 0 } setExpiry maxTtl : Nat) else 0x7FFFFFFF }
  have hkeyOf : ∀ v ∈ c.hrescache.values, new.keyOf v = c.keyOf v := by
    intro v hv
    have hne : v ≠ c.next := by
      have := (h.alive_of_mem hv).1
      omega
    calc new.keyOf v = (allocEntry c').1.keyOf v := congrArg CachedRes.key (modify_res_other hne _)
      _ = c'.keyOf v := by
        unfold Cache.keyOf allocEntry
        simp [c', Cache.modify, hne]
      _ = c.keyOf v :=
        congrFun (keyOf_modify (f := fun r => { r with refCnt := r.refCnt - 1 }) fun _ => rfl) v
  have hnew : new.keyOf c.next = key := by
    unfold Cache.keyOf
    rw [modify_res_self]
  have heq : (updateResCache key 0 setExpiry pkt now maxTtl c).hrescache =
      Hash.setNp new.keyOf ResKey.hash c.hrescache c.next c.next := by
    unfold updateResCache
    simp only [ne_eq, not_true_eq_false, if_false, if_neg httl, hentry]
    rfl
  have hkey : new.keyOf a = new.keyOf c.next := by rw [hnew, hkeyOf a ha.1, ha.2]
  rcases Hash.mem_setNp_of_key (h.owned.congr hkeyOf) ha.1 hkey with ⟨e, he, hbuf, hvalue⟩
  intro howns
  have hsame := (howns.entries e (heq ▸ he)).1
  have := (h.alive_of_mem hbuf).1
  omega

/-- **The table owns what it refers to** all along exactly the runs that store no response over one
in use. -/
theorem owns_iff (maxTtl : Nat) (ops : List CacheOp) :
    Always (cacheStep maxTtl) Owns Cache.create ops ↔
      Meets (cacheStep maxTtl) (fun c op => op.Allowed maxTtl c) Cache.create ops := by
  have hinv : ∀ c, CacheInv c → Owns c := fun c h => h.owns
  apply always_iff_meets hinv
  · intro c op c' h hok hstep
    rw [← Except.ok.inj hstep]
    exact cacheInv_apply h hok
  · intro c op h hnot
    refine ⟨_, rfl, ?_⟩
    cases op with
    | query | called | returned => exact absurd trivial hnot
    | update key status setExpiry pkt now => exact update_in_use h hnot now
  · exact cacheInv_create

/-- A response for one key is stored, its callback is called, and another response for the key is
stored before that returns. -/
def overwriteRun : List CacheOp :=
  let key : ResKey := ⟨1, [97]⟩
  [.update key 0 true ⟨1, 0, [30]⟩ 100, .query key 110 (some 0), .called 0,
    .update key 0 true ⟨2, 0, [30]⟩ 111, .returned 0]

/-- Behind it the entry of the table lies in a pool that has been released. -/
theorem overwriteRun_released :
    ¬ Always (cacheStep 300) Owns Cache.create overwriteRun ∧
      ∃ c, run (cacheStep 300) Cache.create overwriteRun = .ok c ∧
        ∃ e ∈ c.hrescache.entries, (c.res e.buf).released = true := by
  let last : Cache := overwriteRun.foldl (CacheOp.apply 300) Cache.create
  have hrun : run (cacheStep 300) Cache.create overwriteRun = .ok last := run_cacheStep _ _
  have hreleased : ∃ e ∈ last.hrescache.entries, (last.res e.buf).released = true := by
    decide +kernel
  refine ⟨fun h => ?_, last, hrun, hreleased⟩
  rcases hreleased with ⟨e, he, hrel⟩
  rcases (h.last hrun).entries e he with ⟨hbuf, -, hlive⟩
  rw [hbuf, hlive] at hrel
  cases hrel

end Resolver
