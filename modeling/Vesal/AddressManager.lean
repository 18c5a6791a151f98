import Mathlib.Tactic

/-!
# The address manager

`AddressManager` of `memory_pool_helper.h` and `memory_pool_helper.cc`, with the macros and the
functions of pages that it uses. Addresses are 64 bits wide: sums and differences are taken
modulo `2 ^ 64`.
-/

namespace Vesal

open Function

inductive AlignType where
  | kPage4kb
  | kPage2Mb
  | kPage1Gb
  | kPage512Mb
  | kUnknown
deriving DecidableEq, Repr

def vesalPagesize (pageBitNum : Nat) : Nat := 1 <<< pageBitNum

def vesalPagemask (pageSize : Nat) : Nat := (2 ^ 64 - pageSize) % 2 ^ 64

def vesalPageAlign (addr pageSize : Nat) : Nat := addr &&& vesalPagemask pageSize

def vesalIsPageAligned (addr pageSize : Nat) : Bool := addr == vesalPageAlign addr pageSize

def alignTypeToPageSize : AlignType → Nat
  | .kPage4kb => vesalPagesize 12
  | .kPage2Mb => vesalPagesize 21
  | .kPage1Gb => vesalPagesize 30
  | .kPage512Mb => vesalPagesize 29
  | .kUnknown => 0

def pageSizeToAlignType (pageSize : Nat) : AlignType :=
  if pageSize = vesalPagesize 12 then .kPage4kb
  else if pageSize = vesalPagesize 21 then .kPage2Mb
  else if pageSize = vesalPagesize 30 then .kPage1Gb
  else if pageSize = vesalPagesize 29 then .kPage512Mb
  else .kUnknown

def alignPage (addr : Nat) (type : AlignType) : Nat := vesalPageAlign addr (alignTypeToPageSize type)

structure PhysChunk where
  startAddr : Nat
  physAddr : Nat
  alignType : AlignType
deriving DecidableEq, Repr

def PhysChunk.getChunkSize (c : PhysChunk) : Nat := alignTypeToPageSize c.alignType

abbrev AddressMap := Nat → Option PhysChunk

namespace AddressMap

def empty : AddressMap := fun _ => none

def assign (map : AddressMap) (c : PhysChunk) : AddressMap := update map c.startAddr (some c)

/-- `TableLookUp` over the page types `order` still to be tried. -/
def tableLookUp (map : AddressMap) (vaddr : Nat) : List AlignType → Option PhysChunk
  | [] => none
  | type :: order =>
    match map (alignPage vaddr type) with
    | some c => if c.alignType = type then some c else tableLookUp map vaddr order
    | none => tableLookUp map vaddr order

end AddressMap

def defaultOrder : List AlignType := [.kPage2Mb, .kPage512Mb, .kPage1Gb, .kPage4kb]

namespace AddressManager

variable (table : AddressMap) (order : List AlignType)

/-- Shared by `GetPhysAddr` and `GetPhysAddrBound`: the chunk is looked up in the cache of the thread,
then in the table, whose answer goes into the cache. -/
def lookUpChunk (vaddr : Nat) (cache : AddressMap) :
    Option (PhysChunk × AddressMap) :=
  match cache.tableLookUp vaddr order with
  | some c => some (c, cache)
  | none =>
    match table.tableLookUp vaddr order with
    | some c => some (c, cache.assign c)
    | none => none

/-- What is added to the physical address of a chunk. -/
def physAddrAt (c : PhysChunk) (vaddr : Nat) : Nat :=
  (c.physAddr + (vaddr + 2 ^ 64 - c.startAddr) % 2 ^ 64) % 2 ^ 64

def getPhysAddr (vaddr : Nat) (cache : AddressMap) :
    Nat × AddressMap :=
  match lookUpChunk table order vaddr cache with
  | none => (0, cache)
  | some (c, cache) => (physAddrAt c vaddr, cache)

/-- What `GetPhysAddrBound` returns, and leaves in the arrays of its caller and in the cache. -/
structure Bound where
  ret : Nat
  paddrs : Nat → Nat
  paddrSizes : Nat → Nat
  cache : AddressMap

/-- The loop of `GetPhysAddrBound` with `n` passes until `ret` is `max_num`. -/
def boundLoop (table : AddressMap) (order : List AlignType) :
    (n ret currVAddr left : Nat) → (paddrs paddrSizes : Nat → Nat) → AddressMap → Bound
  | 0, ret, _, left, paddrs, paddrSizes, cache =>
    ⟨if 0 < left then 0 else ret, paddrs, paddrSizes, cache⟩
  | n + 1, ret, currVAddr, left, paddrs, paddrSizes, cache =>
    if left = 0 then ⟨ret, paddrs, paddrSizes, cache⟩
    else
      match lookUpChunk table order currVAddr cache with
      | none => ⟨0, paddrs, paddrSizes, cache⟩
      | some (c, cache) =>
        let pageEnding := (c.startAddr + c.getChunkSize) % 2 ^ 64
        let paddrs := update paddrs ret (physAddrAt c currVAddr)
        if (currVAddr + left) % 2 ^ 64 ≤ pageEnding then
          boundLoop table order n (ret + 1) currVAddr 0 paddrs (update paddrSizes ret left) cache
        else
          let coveredSize := (pageEnding + 2 ^ 64 - currVAddr) % 2 ^ 64
          boundLoop table order n (ret + 1) ((currVAddr + coveredSize) % 2 ^ 64)
            ((left + 2 ^ 64 - coveredSize) % 2 ^ 64) paddrs (update paddrSizes ret coveredSize) cache

def getPhysAddrBound (vaddr vLen : Nat)
    (paddrs paddrSizes : Nat → Nat) (maxNum : Nat) (cache : AddressMap) : Bound :=
  boundLoop table order maxNum 0 vaddr vLen paddrs paddrSizes cache

def lookUpAddrIfNotAcrossBound (addr vLen : Nat) (paddrs paddrSizes : Nat → Nat)
    (cache : AddressMap) : Nat :=
  let b := getPhysAddrBound table defaultOrder addr vLen paddrs paddrSizes 2 cache
  if b.ret = 1 then b.paddrs 0 else 0

end AddressManager

end Vesal
