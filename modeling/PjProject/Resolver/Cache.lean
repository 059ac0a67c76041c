import PjProject.Resolver.Hash

set_option autoImplicit false

/-! # The response cache of the resolver

The part of `pjlib-util/resolver.c` that keeps responses. A `cached_res` lies in a pool of its own,
with the buffer of its entry in the hash table `hrescache` and the key of that, and it counts who
refers to it: the table, and every callback that is being called with its packet. A pool that is
released keeps its contents here, so a table that still refers to it shows.

`CacheInv` is kept by a query, by the end of a callback and by an update that does not take the entry
of a `cached_res` in use (`CacheInv.update`).
-/

namespace Resolver

/-! ## Keys and packets -/

/-- `struct res_key`: the type, and the name in lower case. -/
structure ResKey where
  qtype : UInt16
  name : List UInt8
  deriving DecidableEq

/-- `pj_hash_calc`. -/
def hashCalc (bytes : List UInt8) : UInt32 := bytes.foldl (fun h c => h * 33 + c.toUInt32) 0

/-- The hash of a key: its bytes, the name filled up with zeros. -/
def ResKey.hash (k : ResKey) : Nat :=
  (hashCalc (k.qtype.toUInt8 :: (k.qtype >>> 8).toUInt8 ::
    (k.name ++ List.replicate (128 - k.name.length) 0))).toNat

/-- What the resolver reads of a `pj_dns_parsed_packet`. -/
structure Packet where
  id : UInt16
  /-- `PJ_DNS_GET_RCODE`: 0 is `PJ_SUCCESS`. -/
  rcode : Nat
  /-- The TTL of each answer. -/
  ttls : List Nat
  deriving DecidableEq

/-! ## Data -/

/-- `struct cached_res`. -/
structure CachedRes where
  key : ResKey
  expiryTime : Int
  pkt : Packet
  refCnt : Nat
  /-- Its pool has been released. -/
  released : Bool
  deriving DecidableEq

/-- A `pj_dns_resolver_start_query` that has found a response and has the mutex released: the call
whose callback is to be called, if it has one, until that has been done. -/
structure Hit where
  cache : Nat
  cb : Option Nat
  deriving DecidableEq

/-- The cache of a resolver. -/
structure Cache where
  /-- The `cached_res` at an address. -/
  res : Nat → CachedRes
  /-- The address of the next one. -/
  next : Nat
  hrescache : Hash.Table
  hits : List Hit
  /-- History: for each pool that was released or reset, whether the table still referred to it, and
  how many callbacks of other callers did. -/
  disposed : List (Bool × Nat)

/-- The key of a `cached_res`. -/
def Cache.keyOf (c : Cache) (a : Nat) : ResKey := (c.res a).key

/-- The `cached_res` for a key. -/
def Cache.get (c : Cache) (key : ResKey) : Option Nat := Hash.get c.keyOf ResKey.hash c.hrescache key

/-- How many callbacks use a `cached_res`. -/
def Cache.users (c : Cache) (a : Nat) : Nat := c.hits.countP fun h => decide (h.cache = a)

/-- Change a `cached_res`. -/
def Cache.modify (c : Cache) (a : Nat) (f : CachedRes → CachedRes) : Cache :=
  { c with res := Function.update c.res a (f (c.res a)) }

/-- Its pool is released or reset. -/
def Cache.dispose (c : Cache) (a : Nat) : Cache :=
  { c with disposed := c.disposed ++ [(decide (a ∈ c.hrescache.values), c.users a)] }

/-- A zeroed key. -/
def zeroKey : ResKey := ⟨0, []⟩

/-- A zeroed `cached_res`. -/
def zeroRes : CachedRes := ⟨zeroKey, 0, ⟨0, 0, []⟩, 0, false⟩

/-! ## Operations -/

/-- `alloc_entry`. -/
def allocEntry (c : Cache) : Cache × Nat :=
  ({ c with
    res := Function.update c.res c.next { zeroRes with refCnt := 1 }
    next := c.next + 1 }, c.next)

/-- `reset_entry`. -/
def resetEntry (a : Nat) (c : Cache) : Cache :=
  (c.dispose a).modify a fun r => { zeroRes with refCnt := r.refCnt }

/-- `free_entry`. -/
def freeEntry (a : Nat) (c : Cache) : Cache := (c.dispose a).modify a fun r => { r with released := true }

/-- `--cache->ref_cnt`, and the entry is freed if nobody refers to it. -/
def unref (a : Nat) (c : Cache) : Cache :=
  let c := c.modify a fun r => { r with refCnt := r.refCnt - 1 }
  if (c.res a).refCnt = 0 then freeEntry a c else c

/-- `pj_hash_set(NULL, resolver->hrescache, ...)`. -/
def removeEntry (key : ResKey) (c : Cache) : Cache :=
  { c with hrescache := Hash.remove c.keyOf ResKey.hash c.hrescache key }

/-- The entry for a key is taken out of the table and given up. -/
def dropEntry (key : ResKey) (c : Cache) : Cache :=
  match c.get key with
  | some a => unref a (removeEntry key c)
  | none => removeEntry key c

/-- `pj_dns_resolver_start_query`: whether there is a response for the key that has not expired. The
callback is then called with the mutex released. An expired one is given up. -/
def lookup (key : ResKey) (now : Int) (cb : Option Nat) (c : Cache) : Cache × Bool :=
  match c.get key with
  | some a =>
      if now < (c.res a).expiryTime then
        let c := c.modify a fun r => { r with refCnt := r.refCnt + 1 }
        ({ c with hits := c.hits ++ [⟨a, cb⟩] }, true)
      else (dropEntry key c, false)
  | none => (c, false)

/-- `pj_dns_resolver_start_query`: the callback has been called. -/
def hitCalled (i : Nat) (h : Hit) (c : Cache) : Cache :=
  { c with hits := c.hits.set i { h with cb := none } }

/-- `pj_dns_resolver_start_query`: the callback has returned, and the mutex is locked again. -/
def hitDone (i : Nat) (h : Hit) (c : Cache) : Cache :=
  unref h.cache { c with hits := c.hits.eraseIdx i }

/-- The time to live of a response. -/
def responseTtl (pkt : Packet) (setExpiry : Bool) (maxTtl : Nat) : Nat :=
  let ttl :=
    if setExpiry then
      if pkt.ttls = [] ∨ pkt.rcode ≠ 0 then 60 else pkt.ttls.foldl min 0xFFFFFFFF
    else 0xFFFFFFFF
  min ttl maxTtl

/-- `update_res_cache`: the entry for the key is in use, so that a new one is allocated; or it is not,
and is taken out of the table and reset. -/
def cacheEntry (key : ResKey) (c : Cache) : Cache × Nat :=
  match c.get key with
  | none => allocEntry c
  | some a =>
      if 1 < (c.res a).refCnt then
        allocEntry (c.modify a fun r => { r with refCnt := r.refCnt - 1 })
      else (resetEntry a (removeEntry key c), a)

/-- `update_res_cache`: the entry gets the response and is put into the table. -/
def fillEntry (a : Nat) (key : ResKey) (pkt : Packet) (expiryTime : Int) (c : Cache) : Cache :=
  let c := c.modify a fun r => { r with key := key, pkt := pkt, expiryTime := expiryTime }
  { c with hrescache := Hash.setNp c.keyOf ResKey.hash c.hrescache a a }

/-- `update_res_cache`. -/
def updateResCache (key : ResKey) (status : Nat) (setExpiry : Bool) (pkt : Packet) (now : Int)
    (maxTtl : Nat) (c : Cache) : Cache :=
  let c := if status ≠ 0 then dropEntry key c else c
  let ttl := responseTtl { pkt with rcode := status } setExpiry maxTtl
  if ttl = 0 then dropEntry key c
  else
    let (c, a) := cacheEntry key c
    fillEntry a key pkt (if setExpiry then now + ttl else 0x7FFFFFFF) c

/-! ## The invariant -/

/-- The number of those that refer to a `cached_res`: the table, and callbacks. -/
def Cache.refs (c : Cache) (a : Nat) : Nat := (if a ∈ c.hrescache.values then 1 else 0) + c.users a

/-- What holds inside an operation that still holds `held a` references of its own to each
`cached_res`: the table is made of entries in their own `cached_res`, each counts its references, and
what is referred to has not been released. -/
structure Counted (held : Nat → Nat) (c : Cache) : Prop where
  owned : Hash.Owned c.keyOf ResKey.hash c.hrescache
  counted : ∀ a, a < c.next → (c.res a).released = false → (c.res a).refCnt = c.refs a + held a
  alive : ∀ a, 0 < c.refs a + held a → a < c.next ∧ (c.res a).released = false
  disposed : ∀ d ∈ c.disposed, d = (false, 0)

/-- The reference of an operation to one `cached_res`. -/
def one (a b : Nat) : Nat := if b = a then 1 else 0

/-- What holds of the cache while the mutex is free. -/
def CacheInv (c : Cache) : Prop := Counted (fun _ => 0) c

variable {c : Cache} {a : Nat} {key : ResKey} {held : Nat → Nat}

theorem one_self : one a a = 1 := if_pos rfl

theorem one_other {b : Nat} (h : b ≠ a) : one a b = 0 := if_neg h

theorem refs_of_mem (h : a ∈ c.hrescache.values) : c.refs a = 1 + c.users a := by
  unfold Cache.refs
  rw [if_pos h]

theorem refs_of_not_mem (h : a ∉ c.hrescache.values) : c.refs a = c.users a := by
  unfold Cache.refs
  rw [if_neg h, Nat.zero_add]

/-- What the table refers to has not been released. -/
theorem Counted.alive_of_mem (h : Counted held c) (ha : a ∈ c.hrescache.values) :
    a < c.next ∧ (c.res a).released = false := by
  apply h.alive
  rw [refs_of_mem ha]
  omega

theorem modify_res_self (f : CachedRes → CachedRes) : (c.modify a f).res a = f (c.res a) := by
  simp [Cache.modify]

theorem modify_res_other {b : Nat} (h : b ≠ a) (f : CachedRes → CachedRes) :
    (c.modify a f).res b = c.res b := by
  simp [Cache.modify, h]

/-- A change that leaves the keys alone leaves the keys alone. -/
theorem keyOf_modify {f : CachedRes → CachedRes} (hf : ∀ r, (f r).key = r.key) :
    (c.modify a f).keyOf = c.keyOf := by
  funext b
  unfold Cache.keyOf
  by_cases hb : b = a
  · rw [hb, modify_res_self, hf]
  · rw [modify_res_other hb]

theorem get_eq_some (h : Counted held c) : c.get key = some a ↔
    a ∈ c.hrescache.values ∧ c.keyOf a = key := h.owned.get_eq_some

/-! ## References given and taken -/

/-- A change of the count of one `cached_res`. -/
theorem counted_setCnt {held' : Nat → Nat} {f : CachedRes → CachedRes} (h : Counted held c)
    (hkey : ∀ r, (f r).key = r.key) (hrel : ∀ r, (f r).released = r.released)
    (halive : a < c.next ∧ (c.res a).released = false)
    (hcnt : (f (c.res a)).refCnt = c.refs a + held' a)
    (hother : ∀ b, b ≠ a → held' b = held b) : Counted held' (c.modify a f) := by
  have hkeyOf := keyOf_modify (c := c) (a := a) hkey
  constructor
  · exact h.owned.congr fun v _ => congrFun hkeyOf v
  · intro b hb hlive
    by_cases hba : b = a
    · subst hba
      rw [modify_res_self]
      exact hcnt
    · rw [modify_res_other hba] at hlive ⊢
      rw [hother b hba]
      exact h.counted b hb hlive
  · intro b hb
    by_cases hba : b = a
    · subst hba
      rw [modify_res_self, hrel]
      exact halive
    · rw [hother b hba] at hb
      rw [modify_res_other hba]
      exact h.alive b hb
  · exact h.disposed

/-- A pool that nobody refers to is released. -/
theorem counted_freeEntry (h : Counted held c) (hrefs : c.refs a = 0) (hheld : held a = 0) :
    Counted held (freeEntry a c) := by
  have hnot : a ∉ c.hrescache.values := by
    intro hmem
    rw [refs_of_mem hmem] at hrefs
    omega
  have husers : c.users a = 0 := by rw [← refs_of_not_mem hnot, hrefs]
  have hkeyOf := keyOf_modify (c := c.dispose a) (a := a) (f := fun r => { r with released := true })
    (fun _ => rfl)
  constructor
  · exact h.owned.congr fun v _ => congrFun hkeyOf v
  · intro b hb hlive
    by_cases hba : b = a
    · subst hba
      unfold freeEntry at hlive
      rw [modify_res_self] at hlive
      cases hlive
    · unfold freeEntry at hlive ⊢
      rw [modify_res_other hba] at hlive ⊢
      exact h.counted b hb hlive
  · intro b hb
    have hba : b ≠ a := by
      rintro rfl
      have : 0 < c.refs b + held b := hb
      omega
    unfold freeEntry
    rw [modify_res_other hba]
    exact h.alive b hb
  · intro d hd
    rcases List.mem_append.mp hd with hd | hd
    · exact h.disposed d hd
    · rw [List.mem_singleton.mp hd, husers]
      simp [hnot]

/-- **A reference of the operation is given up.** -/
theorem counted_unref (h : Counted (fun b => held b + one a b) c) : Counted held (unref a c) := by
  have halive : a < c.next ∧ (c.res a).released = false := by
    apply h.alive
    rw [one_self]
    omega
  have hcount := h.counted a halive.1 halive.2
  rw [one_self] at hcount
  have hdec : Counted held (c.modify a fun r => { r with refCnt := r.refCnt - 1 }) := by
    apply counted_setCnt (f := fun r => { r with refCnt := r.refCnt - 1 }) h (fun _ => rfl)
      (fun _ => rfl) halive
    · show (c.res a).refCnt - 1 = c.refs a + held a
      omega
    · intro b hb
      rw [one_other hb, Nat.add_zero]
  unfold unref
  simp only
  split
  · rename_i hzero
    have hcnt : (c.res a).refCnt - 1 = 0 := by rwa [modify_res_self] at hzero
    have hrefs : (c.modify a fun r => { r with refCnt := r.refCnt - 1 }).refs a = c.refs a := rfl
    apply counted_freeEntry hdec
    · rw [hrefs]
      omega
    · omega
  · exact hdec

/-- **The operation takes the reference of the table** to the entry for a key. -/
theorem counted_removeEntry (h : Counted held c) (hget : c.get key = some a) :
    Counted (fun b => held b + one a b) (removeEntry key c) := by
  have ha := (get_eq_some h).mp hget
  have hrefs : ∀ b, (removeEntry key c).refs b + one a b = c.refs b := by
    intro b
    have hmem := Hash.mem_remove h.owned key b
    by_cases hba : b = a
    · subst hba
      rw [refs_of_not_mem (fun hb => (hmem.mp hb).2 ha.2), refs_of_mem ha.1, one_self]
      exact Nat.add_comm _ _
    · rw [one_other hba, Nat.add_zero]
      have hiff : b ∈ (removeEntry key c).hrescache.values ↔ b ∈ c.hrescache.values := by
        apply hmem.trans
        exact ⟨fun hb => hb.1, fun hb => ⟨hb, fun hk => hba (h.owned.inj hb ha.1 (hk.trans ha.2.symm))⟩⟩
      unfold Cache.refs
      simp only [hiff]
      rfl
  constructor
  · exact h.owned.remove key
  · intro b hb hlive
    have hcount := h.counted b hb hlive
    have := hrefs b
    show (c.res b).refCnt = _
    omega
  · intro b hb
    have := hrefs b
    apply h.alive b
    omega
  · exact h.disposed

theorem removeEntry_of_none (hget : c.get key = none) : removeEntry key c = c := by
  unfold Cache.get Hash.get at hget
  rw [Option.map_eq_none_iff] at hget
  unfold removeEntry Hash.remove
  rw [hget]
  rfl

/-- **The entry for a key is given up.** -/
theorem counted_dropEntry (h : Counted held c) (key : ResKey) : Counted held (dropEntry key c) := by
  unfold dropEntry
  split
  · rename_i a hget
    exact counted_unref (counted_removeEntry h hget)
  · rename_i hget
    rw [removeEntry_of_none hget]
    exact h

/-! ## Callbacks -/

theorem users_append (hit : Hit) (b : Nat) :
    ({ c with hits := c.hits ++ [hit] } : Cache).users b = c.users b + one hit.cache b := by
  unfold Cache.users one
  simp [List.countP_append, List.countP_cons, eq_comm]

/-- A callback is about to be called with a response. -/
theorem counted_addHit (h : Counted held c) (cb : Option Nat)
    (halive : a < c.next ∧ (c.res a).released = false) :
    Counted held
      { c.modify a (fun r => { r with refCnt := r.refCnt + 1 }) with hits := c.hits ++ [⟨a, cb⟩] } := by
  have hinc : Counted (fun b => held b + one a b)
      (c.modify a fun r => { r with refCnt := r.refCnt + 1 }) := by
    apply counted_setCnt (f := fun r => { r with refCnt := r.refCnt + 1 }) h (fun _ => rfl)
      (fun _ => rfl) halive
    · show (c.res a).refCnt + 1 = _
      rw [h.counted a halive.1 halive.2, one_self]
      omega
    · intro b hb
      rw [one_other hb, Nat.add_zero]
  have hrefs : ∀ b, ({ c.modify a (fun r => { r with refCnt := r.refCnt + 1 }) with
      hits := c.hits ++ [⟨a, cb⟩] } : Cache).refs b = c.refs b + one a b := by
    intro b
    unfold Cache.refs
    rw [Nat.add_assoc, ← users_append ⟨a, cb⟩ b]
    rfl
  constructor
  · exact hinc.owned
  · intro b hb hlive
    rw [hrefs]
    refine (hinc.counted b hb hlive).trans ?_
    show c.refs b + (held b + one a b) = _
    omega
  · intro b hb
    rw [hrefs] at hb
    apply hinc.alive b
    show 0 < c.refs b + _
    omega
  · exact h.disposed

theorem countP_eraseIdx {l : List Hit} {i : Nat} {hit : Hit} (hi : l[i]? = some hit) (b : Nat) :
    (l.eraseIdx i).countP (fun h => decide (h.cache = b)) + one hit.cache b =
      l.countP fun h => decide (h.cache = b) := by
  induction l generalizing i with
  | nil => simp at hi
  | cons x l ih =>
      cases i with
      | zero =>
          rw [List.getElem?_cons_zero, Option.some.injEq] at hi
          subst hi
          unfold one
          simp [List.countP_cons, eq_comm]
      | succ i =>
          rw [List.getElem?_cons_succ] at hi
          have := ih hi
          simp only [List.eraseIdx_cons_succ, List.countP_cons]
          omega

/-- **A callback has returned**: its reference is given up. -/
theorem counted_hitDone (h : Counted held c) {i : Nat} {hit : Hit} (hi : c.hits[i]? = some hit) :
    Counted held (hitDone i hit c) := by
  have hrefs : ∀ b, ({ c with hits := c.hits.eraseIdx i } : Cache).refs b + one hit.cache b = c.refs b := by
    intro b
    unfold Cache.refs
    rw [Nat.add_assoc]
    exact congrArg _ (countP_eraseIdx hi b)
  apply counted_unref
  constructor
  · exact h.owned
  · intro b hb hlive
    have hcount : (c.res b).refCnt = c.refs b + held b := h.counted b hb hlive
    have := hrefs b
    show (c.res b).refCnt = _
    omega
  · intro b hb
    have := hrefs b
    apply h.alive b
    omega
  · exact h.disposed

/-- The callback has been called: it still uses the response. -/
theorem counted_hitCalled (h : Counted held c) {i : Nat} {hit : Hit} (hi : c.hits[i]? = some hit) :
    Counted held (hitCalled i hit c) := by
  have husers : ∀ b, (hitCalled i hit c).users b = c.users b := by
    intro b
    have hlen : i < c.hits.length := (List.getElem?_eq_some_iff.mp hi).1
    have hset : c.hits.set i hit = c.hits := by
      rw [List.getElem?_eq_some_iff] at hi
      rw [← hi.2, List.set_getElem_self]
    unfold Cache.users hitCalled
    calc (c.hits.set i { hit with cb := none }).countP _
        = ((c.hits.set i { hit with cb := none }).map Hit.cache).countP fun x => decide (x = b) := by
          rw [List.countP_map]
          rfl
      _ = ((c.hits.set i hit).map Hit.cache).countP fun x => decide (x = b) := by
          rw [List.map_set, List.map_set]
      _ = c.hits.countP _ := by
          rw [hset, List.countP_map]
          rfl
  have hrefs : ∀ b, (hitCalled i hit c).refs b = c.refs b := by
    intro b
    unfold Cache.refs
    rw [husers]
    rfl
  constructor
  · exact h.owned
  · intro b hb hlive
    rw [hrefs]
    exact h.counted b hb hlive
  · intro b hb
    rw [hrefs] at hb
    exact h.alive b hb
  · exact h.disposed

/-- **A query** keeps the cache, whether it finds a response or gives up an expired one. -/
theorem counted_lookup (h : Counted held c) (key : ResKey) (now : Int) (cb : Option Nat) :
    Counted held (lookup key now cb c).1 := by
  unfold lookup
  split
  · rename_i a hget
    split
    · exact counted_addHit h cb (h.alive_of_mem ((get_eq_some h).mp hget).1)
    · exact counted_dropEntry h key
  · exact h

/-! ## Updates -/

theorem counted_allocEntry (h : Counted held c) :
    Counted (fun b => held b + one c.next b) (allocEntry c).1 := by
  have hnext : c.refs c.next + held c.next = 0 := by
    by_contra hne
    exact absurd (h.alive c.next (by omega)).1 (by omega)
  have hres : ∀ b, b ≠ c.next → (allocEntry c).1.res b = c.res b := by
    intro b hb
    simp [allocEntry, hb]
  have hnew : (allocEntry c).1.res c.next = { zeroRes with refCnt := 1 } := by
    simp [allocEntry]
  have hrefs : ∀ b, (allocEntry c).1.refs b = c.refs b := fun _ => rfl
  have hsize : (allocEntry c).1.next = c.next + 1 := rfl
  constructor
  · apply h.owned.congr
    intro v hv
    have hv' := (h.alive_of_mem hv).1
    unfold Cache.keyOf
    rw [hres v (by omega)]
  · intro b hb hlive
    rw [hrefs]
    by_cases hbn : b = c.next
    · subst hbn
      rw [hnew, one_self]
      show 1 = _
      omega
    · rw [hres b hbn] at hlive ⊢
      rw [one_other hbn]
      exact h.counted b (by omega) hlive
  · intro b hb
    rw [hrefs] at hb
    by_cases hbn : b = c.next
    · subst hbn
      rw [hnew, hsize]
      exact ⟨by omega, rfl⟩
    · rw [one_other hbn] at hb
      rw [hres b hbn, hsize]
      have := h.alive b hb
      exact ⟨by omega, this.2⟩
  · exact h.disposed

/-- **A response that nobody uses** is reset by the operation that has taken it. -/
theorem counted_resetEntry (h : Counted held c) (hrefs : c.refs a = 0) (hheld : 0 < held a) :
    Counted held (resetEntry a c) := by
  have hnot : a ∉ c.hrescache.values := by
    intro hmem
    rw [refs_of_mem hmem] at hrefs
    omega
  have husers : c.users a = 0 := by rw [← refs_of_not_mem hnot, hrefs]
  have halive := h.alive a (by omega)
  have hother : ∀ b, b ≠ a → (resetEntry a c).res b = c.res b := fun b hb => modify_res_other hb _
  have hself : (resetEntry a c).res a = { zeroRes with refCnt := (c.res a).refCnt } :=
    modify_res_self _
  constructor
  · apply h.owned.congr
    intro v hv
    unfold Cache.keyOf
    have hva : v ≠ a := fun hva => hnot (hva ▸ hv)
    rw [hother v hva]
  · intro b hb hlive
    by_cases hba : b = a
    · subst hba
      rw [hself]
      exact h.counted b hb halive.2
    · rw [hother b hba] at hlive ⊢
      exact h.counted b hb hlive
  · intro b hb
    by_cases hba : b = a
    · subst hba
      rw [hself]
      exact ⟨halive.1, rfl⟩
    · rw [hother b hba]
      exact h.alive b hb
  · intro d hd
    rcases List.mem_append.mp hd with hd | hd
    · exact h.disposed d hd
    · rw [List.mem_singleton.mp hd, husers]
      simp [hnot]

/-- **The operation gives its reference to the table.** -/
theorem counted_fillEntry (h : Counted (fun b => held b + one a b) c) (hnot : a ∉ c.hrescache.values)
    (hnew : ∀ v ∈ c.hrescache.values, c.keyOf v ≠ key) (pkt : Packet) (expiryTime : Int) :
    Counted held (fillEntry a key pkt expiryTime c) := by
  have halive : a < c.next ∧ (c.res a).released = false := by
    apply h.alive
    rw [one_self]
    omega
  let f : CachedRes → CachedRes := fun r => { r with key := key, pkt := pkt, expiryTime := expiryTime }
  have hself : (c.modify a f).keyOf a = key := by
    unfold Cache.keyOf
    rw [modify_res_self]
  have hother : ∀ v ∈ c.hrescache.values, (c.modify a f).keyOf v = c.keyOf v := by
    intro v hv
    unfold Cache.keyOf
    have hva : v ≠ a := fun hva => hnot (hva ▸ hv)
    rw [modify_res_other hva]
  have howned : Hash.Owned (c.modify a f).keyOf ResKey.hash c.hrescache := h.owned.congr hother
  have hfree : ∀ v ∈ c.hrescache.values, (c.modify a f).keyOf v ≠ (c.modify a f).keyOf a := by
    intro v hv
    rw [hother v hv, hself]
    exact hnew v hv
  have hvalues : (fillEntry a key pkt expiryTime c).hrescache.values = c.hrescache.values ++ [a] :=
    Hash.setNp_values howned hfree
  have hrefs : ∀ b, (fillEntry a key pkt expiryTime c).refs b = c.refs b + one a b := by
    intro b
    have husers : (fillEntry a key pkt expiryTime c).users b = c.users b := rfl
    by_cases hba : b = a
    · subst hba
      rw [refs_of_mem (by rw [hvalues]; simp), refs_of_not_mem hnot, husers, one_self, Nat.add_comm]
    · have hiff : b ∈ (fillEntry a key pkt expiryTime c).hrescache.values ↔ b ∈ c.hrescache.values := by
        rw [hvalues]
        simp [hba]
      unfold Cache.refs
      rw [husers, one_other hba, Nat.add_zero]
      simp only [hiff]
  have hres : ∀ b, ((c.modify a f).res b).refCnt = (c.res b).refCnt ∧
      ((c.modify a f).res b).released = (c.res b).released := by
    intro b
    by_cases hba : b = a
    · rw [hba, modify_res_self]
      exact ⟨rfl, rfl⟩
    · rw [modify_res_other hba]
      exact ⟨rfl, rfl⟩
  constructor
  · exact howned.setNp hfree
  · intro b hb hlive
    have hcount := h.counted b hb ((hres b).2.symm.trans hlive)
    show ((c.modify a f).res b).refCnt = _
    rw [(hres b).1, hrefs, hcount]
    omega
  · intro b hb
    rw [hrefs] at hb
    have := h.alive b (by omega)
    exact ⟨this.1, (hres b).2.trans this.2⟩
  · exact h.disposed

/-- Giving a reference up touches neither the table nor a key. -/
theorem unref_table (a : Nat) (c : Cache) :
    (unref a c).hrescache = c.hrescache ∧ (unref a c).keyOf = c.keyOf := by
  have hdec : (c.modify a fun r => { r with refCnt := r.refCnt - 1 }).keyOf = c.keyOf :=
    keyOf_modify fun _ => rfl
  unfold unref
  simp only
  split
  · refine ⟨rfl, ?_⟩
    rw [← hdec]
    exact keyOf_modify fun _ => rfl
  · exact ⟨rfl, hdec⟩

/-- No entry for a key is left when it has been given up. -/
theorem get_dropEntry (h : Counted held c) (key : ResKey) : (dropEntry key c).get key = none := by
  have htable : (dropEntry key c).hrescache = Hash.remove c.keyOf ResKey.hash c.hrescache key ∧
      (dropEntry key c).keyOf = c.keyOf := by
    unfold dropEntry
    split
    · exact unref_table _ _
    · exact ⟨rfl, rfl⟩
  unfold Cache.get
  rw [htable.1, htable.2]
  apply ((h.owned.remove key).get_eq_none key).mpr
  intro v hv
  exact ((Hash.mem_remove h.owned key v).mp hv).2

/-- No callback uses the entry that the table has for a key. -/
def Unused (key : ResKey) (c : Cache) : Prop := ∀ a, c.get key = some a → c.users a = 0

theorem unused_dropEntry (h : Counted held c) (key : ResKey) : Unused key (dropEntry key c) := by
  intro a hget
  rw [get_dropEntry h key] at hget
  cases hget

/-- The entry to be filled belongs to the operation, and the table has none for the key. -/
theorem cacheInv_cacheEntry (h : CacheInv c) (hunused : Unused key c) :
    Counted (fun b => 0 + one (cacheEntry key c).2 b) (cacheEntry key c).1 ∧
      (cacheEntry key c).2 ∉ (cacheEntry key c).1.hrescache.values ∧
      ∀ v ∈ (cacheEntry key c).1.hrescache.values, (cacheEntry key c).1.keyOf v ≠ key := by
  cases hget : c.get key with
  | none =>
      have heq : cacheEntry key c = allocEntry c := by
        unfold cacheEntry
        rw [hget]
      have hkeyOf : ∀ v ∈ c.hrescache.values, (allocEntry c).1.keyOf v = c.keyOf v := by
        intro v hv
        have := (h.alive_of_mem hv).1
        have hne : v ≠ c.next := by omega
        unfold Cache.keyOf allocEntry
        simp [hne]
      rw [heq]
      refine ⟨counted_allocEntry h, ?_, ?_⟩
      · intro hmem
        exact absurd (h.alive_of_mem (c := c) hmem).1 (lt_irrefl _)
      · intro v hv
        rw [hkeyOf v hv]
        exact (h.owned.get_eq_none key).mp hget v hv
  | some a =>
      have ha := (get_eq_some h).mp hget
      have halive := h.alive_of_mem ha.1
      have hcnt : (c.res a).refCnt = 1 := by
        rw [h.counted a halive.1 halive.2, refs_of_mem ha.1, hunused a hget]
      have heq : cacheEntry key c = (resetEntry a (removeEntry key c), a) := by
        unfold cacheEntry
        rw [hget]
        simp [hcnt]
      have hmem : ∀ v, v ∈ (removeEntry key c).hrescache.values ↔ v ∈ c.hrescache.values ∧ c.keyOf v ≠ key :=
        fun v => Hash.mem_remove h.owned key v
      have hnot : a ∉ (removeEntry key c).hrescache.values := fun hv => ((hmem a).mp hv).2 ha.2
      have hrefs : (removeEntry key c).refs a = 0 := by
        rw [refs_of_not_mem hnot]
        exact hunused a hget
      rw [heq]
      refine ⟨counted_resetEntry (counted_removeEntry h hget) hrefs ?_, hnot, ?_⟩
      · rw [one_self]
        omega
      · intro v hv
        have hva : v ≠ a := fun hva => hnot (hva ▸ hv)
        have hkey : (resetEntry a (removeEntry key c)).keyOf v = c.keyOf v :=
          congrArg CachedRes.key (modify_res_other hva _)
        rw [hkey]
        exact ((hmem v).mp hv).2

theorem cacheInv_storeEntry (h : CacheInv c) (hunused : Unused key c) (pkt : Packet)
    (expiryTime : Int) :
    CacheInv (fillEntry (cacheEntry key c).2 key pkt expiryTime (cacheEntry key c).1) := by
  have hentry := cacheInv_cacheEntry h hunused
  exact counted_fillEntry hentry.1 hentry.2.1 hentry.2.2 pkt expiryTime

/-- The updates that do not store a response over one in use: of a failed query, without a time to
live, or for a key whose entry no callback uses. -/
def UpdateOk (key : ResKey) (status : Nat) (setExpiry : Bool) (pkt : Packet) (maxTtl : Nat)
    (c : Cache) : Prop :=
  status ≠ 0 ∨ responseTtl { pkt with rcode := status } setExpiry maxTtl = 0 ∨ Unused key c

/-- **An update** keeps the cache if it does not store a response over one in use. -/
theorem cacheInv_updateResCache (h : CacheInv c) {status maxTtl : Nat} {setExpiry : Bool}
    {pkt : Packet} (hok : UpdateOk key status setExpiry pkt maxTtl c) (now : Int) :
    CacheInv (updateResCache key status setExpiry pkt now maxTtl c) := by
  -- A failed query gives the entry up first, so that none is left to be overwritten.
  have hfirst : CacheInv (if status ≠ 0 then dropEntry key c else c) := by
    split
    · exact counted_dropEntry h key
    · exact h
  have hunused : responseTtl { pkt with rcode := status } setExpiry maxTtl ≠ 0 →
      Unused key (if status ≠ 0 then dropEntry key c else c) := by
    intro hne
    split
    · exact unused_dropEntry h key
    · rename_i hstatus
      exact (hok.resolve_left hstatus).resolve_left hne
  unfold updateResCache
  simp only
  split
  · exact counted_dropEntry hfirst key
  · rename_i hne
    exact cacheInv_storeEntry hfirst (hunused hne) pkt _

end Resolver
