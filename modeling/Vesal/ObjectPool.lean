import Mathlib.Tactic

/-!
# The caches of the object pools

`TlsObjectPool` of `object_pool.h` as far as its `FreeObjectCache` goes, on any number of threads.
What a call takes from a chunk or gives back to one is left out.
-/

namespace Vesal

/-- `entries` is how many pointers there is room for in `free_obj`. -/
structure FreeObjectCache where
  entries : Nat
  freeNum : Nat
  freeObj : Nat → Nat

/-- The cache after the constructor of a pool. The size for `malloc` is computed in 64 bits. -/
def FreeObjectCache.new (objSizeInObjectCache : Nat) : FreeObjectCache :=
  ⟨((8 + 8 * objSizeInObjectCache) % 2 ^ 64 - 8) / 8, 0, fun _ => 0⟩

/-- The object that is handed out, with the indices used in `free_obj`; `fresh` comes from a chunk. -/
def getOrNewObject (fresh : Option Nat) (c : FreeObjectCache) : Option Nat × List Nat × FreeObjectCache :=
  if c.freeNum ≠ 0 then
    (some (c.freeObj (c.freeNum - 1)), [c.freeNum - 1], { c with freeNum := c.freeNum - 1 })
  else (fresh, [], c)

def returnOrFreeObject (objSizeInObjectCache obj : Nat) (c : FreeObjectCache) : List Nat × FreeObjectCache :=
  if c.freeNum < objSizeInObjectCache then
    ([c.freeNum], { c with freeObj := Function.update c.freeObj c.freeNum obj, freeNum := c.freeNum + 1 })
  else ([], c)

/-- The static limit, the pools of the threads that have one, and the indices used so far with the
entries of their array. -/
structure ObjectPools where
  objSizeInObjectCache : Nat
  pools : Nat → Option FreeObjectCache
  used : List (Nat × Nat)

def ObjectPools.init : ObjectPools := ⟨8192, fun _ => none, []⟩

/-- `tid` is that of the chunk of the returned object. -/
inductive ObjectCall where
  | setTlsPoolObjectMaxSize (maxSize : Nat)
  | getTlsObject (t : Nat) (fresh : Option Nat)
  | returnTlsObject (t obj tid : Nat)

namespace ObjectPools

/-- The first call on a thread makes its pool. -/
def singleton (s : ObjectPools) (t : Nat) : FreeObjectCache :=
  (s.pools t).getD (.new s.objSizeInObjectCache)

def store (s : ObjectPools) (t : Nat) (r : List Nat × FreeObjectCache) : ObjectPools :=
  { s with pools := Function.update s.pools t (some r.2), used := s.used ++ r.1.map (·, r.2.entries) }

/-- It fails where the `VESAL_CHECK` of a return does. -/
def step (s : ObjectPools) : ObjectCall → Except Unit ObjectPools
  | .setTlsPoolObjectMaxSize maxSize => .ok { s with objSizeInObjectCache := maxSize }
  | .getTlsObject t fresh => .ok (s.store t (getOrNewObject fresh (s.singleton t)).2)
  | .returnTlsObject t obj tid =>
    if tid ≠ t then .error ()
    else .ok (s.store t (returnOrFreeObject s.objSizeInObjectCache obj (s.singleton t)))

end ObjectPools

end Vesal
