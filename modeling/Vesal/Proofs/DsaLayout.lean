import Vesal.Proofs.DataFlowResults
import Vesal.Proofs.DsaProgram
import Vesal.Proofs.TranslationCache

/-! # Layout of the descriptors -/

namespace Vesal.Proofs

open DsaCtxFactory AddressManager List Function

variable {table : AddressMap} {ctx : DsaCtx}

/-- A table of pages below the end of the address space. -/
structure DmaTable (table : AddressMap) : Prop where
  isTable : PageTable table
  ends : ∀ c ∈ pagesOf table, pageEnd c < 2 ^ 64

def InPage (table : AddressMap) (v len : Nat) : Prop :=
  ∃ c ∈ pagesOf table, c.startAddr ≤ v ∧ v + len ≤ pageEnd c

variable {c : PhysChunk} {size v len : Nat} {op : DataFlowMoveOperation} {segments : List (Nat × Nat)}
  {ops : DataFlowOperations} {built : Built}

/-- The look-ups of the engine answer alike on a thread that has cached any part of the table. -/
theorem lookUps_of_cache (h : PageTable table) {cache : AddressMap} (hsub : SubMap cache table) (hv : v < 2 ^ 64)
    (len : Nat) :
    (getPhysAddr table defaultOrder v cache).1 = lookUpAddr table v ∧
      AddressManager.lookUpAddrIfNotAcrossBound table v len (fun _ => 0) (fun _ => 0) cache =
        Vesal.lookUpAddrIfNotAcrossBound table v len := by
  have hempty : SubMap .empty table := fun _ _ hc => by cases hc
  constructor
  · have hchunk : (lookUpChunk table defaultOrder v cache = none ∧ lookUpChunk table defaultOrder v .empty = none) ∨ _ :=
      lookUpChunk_cache h hsub hempty hv
    unfold lookUpAddr getPhysAddr
    rcases hchunk with ⟨hnone, hnone'⟩ | ⟨c, -, hfound, hfound'⟩
    · rw [hnone, hnone']
    · rw [hfound, hfound']
  · have hbound : answerOf (boundLoop table defaultOrder 2 0 v len (fun _ => 0) (fun _ => 0) cache) = answerOf _ :=
      boundLoop_cache h 2 hsub hempty hv
    replace hbound := LookupAnswer.bound.inj hbound
    unfold Vesal.lookUpAddrIfNotAcrossBound AddressManager.lookUpAddrIfNotAcrossBound getPhysAddrBound
    dsimp only
    rw [hbound.1, hbound.2.1]

lemma DmaTable.start_dvd (h : DmaTable table) (hc : c ∈ pagesOf table) :
    kDsaHwDescSize ∣ c.startAddr := by
  have htype := h.isTable.type _ c hc
  have hsize : kDsaHwDescSize ∣ c.getChunkSize := by
    simp only [pageTypes, mem_cons, not_mem_nil, or_false] at htype
    unfold PhysChunk.getChunkSize
    rcases htype with htype | htype | htype | htype <;> (rw [htype]; decide)
  exact hsize.trans (h.isTable.aligned _ c hc)

lemma getNextAlignedAddress_eq {addr : Nat} (haddr : addr < 2 ^ 64) (hsize : size = 64 ∨ size = 32) :
    getNextAlignedAddress addr size = (addr + (size - addr % size) % size) % 2 ^ 64 := by
  unfold getNextAlignedAddress
  rcases hsize with rfl | rfl
  · have hland := land_pagemask (v := (addr + 64 - 1) % 2 ^ 64) (k := 6) (by norm_num) (Nat.mod_lt _ (by norm_num))
    rw [show (2 : Nat) ^ 6 = 64 by norm_num] at hland
    omega
  · have hland := land_pagemask (v := (addr + 32 - 1) % 2 ^ 64) (k := 5) (by norm_num) (Nat.mod_lt _ (by norm_num))
    rw [show (2 : Nat) ^ 5 = 32 by norm_num] at hland
    omega

structure ArrayIn (table : AddressMap) (chunk size base basePhys : Nat) : Prop where
  inside : ∀ k < kMaxInternalBatchSize, chunk ≤ elementAddr base size k ∧
    elementAddr base size k + size ≤ chunk + size * (kMaxInternalBatchSize + 1)
  mono : ∀ k j, k < j → j < kMaxInternalBatchSize → elementAddr base size k < elementAddr base size j
  translated : ∀ k < kMaxInternalBatchSize, elementAddr basePhys size k = lookUpAddr table (elementAddr base size k)

variable {chunk dst : Nat} {s : Nat × Nat}

lemma ArrayIn.distinct {base basePhys : Nat} (h : ArrayIn table chunk size base basePhys) {k j : Nat}
    (hk : k < kMaxInternalBatchSize) (hj : j < kMaxInternalBatchSize)
    (heq : elementAddr base size k = elementAddr base size j) : k = j := by
  rcases lt_trichotomy k j with hlt | heq' | hgt
  · exact absurd heq (h.mono k j hlt hj).ne
  · exact heq'
  · exact absurd heq.symm (h.mono j k hgt hk).ne

lemma lookUpAddr_mod (h : DmaTable table) (hc : c ∈ pagesOf table) (hv : HasAddr c v)
    (hsize : size ∣ kDsaHwDescSize) (hframe : size ∣ c.physAddr) : lookUpAddr table v % size = v % size := by
  have hlt : v < 2 ^ 64 := hv.2.trans (h.ends c hc)
  have hpow : size ∣ 2 ^ 64 := hsize.trans (by norm_num)
  obtain ⟨n, hn⟩ := hsize.trans (h.start_dvd hc)
  obtain ⟨m, hm⟩ := hframe
  have hstart := hv.1
  rw [lookUpAddr_eq h.isTable hlt hc hv, physAddrAt_eq hv hlt, Nat.mod_mod_of_dvd _ hpow, hm, Nat.mul_add_mod]
  have hsplit : v = (v - c.startAddr) + size * n := by omega
  conv_rhs => rw [hsplit]
  rw [Nat.add_mul_mod_self_left]

/-- Memory of an array of the context: inside a page whose frame is aligned as the elements are. -/
def ArrayPage (table : AddressMap) (chunk size : Nat) : Prop :=
  ∃ c ∈ pagesOf table, size ∣ c.physAddr ∧ c.startAddr ≤ chunk ∧ chunk + size * (kMaxInternalBatchSize + 1) ≤ pageEnd c

lemma ArrayPage.arrayIn (h : DmaTable table) (hsize : size = 64 ∨ size = 32) (hpage : ArrayPage table chunk size) :
    ArrayIn table chunk size (getNextAlignedAddress chunk size)
      (getNextAlignedAddress (lookUpAddr table chunk) size) := by
  obtain ⟨c, hc, hframe, hlo, hhi⟩ := hpage
  have hend := h.ends c hc
  have hpos : 0 < size := by omega
  have hdvd : size ∣ kDsaHwDescSize := by rcases hsize with rfl | rfl <;> decide
  rw [Nat.mul_add, Nat.mul_one] at hhi
  have hchunkPage : HasAddr c chunk := ⟨hlo, by omega⟩
  have hchunk : chunk < 2 ^ 64 := hchunkPage.2.trans hend
  have hphys := lookUpAddr_eq h.isTable hchunk hc hchunkPage
  rw [physAddrAt_eq hchunkPage hchunk] at hphys
  -- the padding in front of the first element is the same for both addresses
  have hbase := getNextAlignedAddress_eq hchunk hsize
  have hbasePhys := getNextAlignedAddress_eq (lookUpAddr_lt table chunk) hsize
  rw [lookUpAddr_mod h hc hchunkPage hdvd hframe] at hbasePhys
  have hpadlt : (size - chunk % size) % size < size := Nat.mod_lt _ hpos
  generalize (size - chunk % size) % size = pad at hbase hbasePhys hpadlt
  have hroom : ∀ k < kMaxInternalBatchSize, k * size + size ≤ size * kMaxInternalBatchSize := by
    intro k hk
    have := Nat.mul_le_mul_right size (Nat.succ_le_of_lt hk)
    rw [Nat.succ_mul, Nat.mul_comm kMaxInternalBatchSize] at this
    exact this
  have helement : ∀ k < kMaxInternalBatchSize,
      elementAddr (getNextAlignedAddress chunk size) size k = chunk + pad + k * size := by
    intro k hk
    have := hroom k hk
    unfold elementAddr
    rw [hbase, Nat.mod_add_mod]
    exact Nat.mod_eq_of_lt (by omega)
  refine ⟨?_, ?_, ?_⟩
  · intro k hk
    have := hroom k hk
    rw [helement k hk, Nat.mul_add, Nat.mul_one]
    exact ⟨by omega, by omega⟩
  · intro k j hkj hj
    have := Nat.mul_lt_mul_of_pos_right hkj hpos
    rw [helement k (hkj.trans hj), helement j hj]
    omega
  · intro k hk
    have := hroom k hk
    have haddr : HasAddr c (chunk + pad + k * size) := ⟨by omega, by omega⟩
    have hv : chunk + pad + k * size < 2 ^ 64 := haddr.2.trans hend
    have hoffset : chunk + pad + k * size - c.startAddr = chunk - c.startAddr + pad + k * size := by omega
    rw [helement k hk, lookUpAddr_eq h.isTable hv hc haddr, physAddrAt_eq haddr hv, hoffset]
    unfold elementAddr
    rw [hbasePhys, hphys, Nat.mod_add_mod, Nat.add_assoc, Nat.mod_add_mod]
    congr 1
    omega

structure CtxPreallocated (table : AddressMap) (ctx : DsaCtx) : Prop where
  built : preallocateCtx table ctx.descMemoryChunk ctx.completionRecordMemoryChunk = .ok ctx
  descs : ArrayPage table ctx.descMemoryChunk kDsaHwDescSize
  records : ArrayPage table ctx.completionRecordMemoryChunk kDsaCompletionRecordSize

lemma preallocateCtx_ok {d r : Nat} (h : preallocateCtx table d r = .ok ctx) :
    ctx.dsaHwDescs = getNextAlignedAddress d kDsaHwDescSize ∧
      ctx.dsaHwDescsPhys = getNextAlignedAddress (lookUpAddr table d) kDsaHwDescSize ∧
      ctx.dsaCompletionRecords = getNextAlignedAddress r kDsaCompletionRecordSize ∧
      ctx.dsaCompletionRecordsPhys = getNextAlignedAddress (lookUpAddr table r) kDsaCompletionRecordSize := by
  unfold preallocateCtx at h
  by_cases hnull : d = 0 ∨ r = 0
  · rw [if_pos hnull] at h
    cases h
  · rw [if_neg hnull] at h
    by_cases hphys : lookUpAddr table d = 0 ∨ lookUpAddr table r = 0
    · rw [if_pos hphys] at h
      cases h
    · rw [if_neg hphys] at h
      rw [← Except.ok.inj h]
      exact ⟨rfl, rfl, rfl, rfl⟩

lemma CtxPreallocated.arrays (h : DmaTable table) (hctx : CtxPreallocated table ctx) :
    ArrayIn table ctx.descMemoryChunk kDsaHwDescSize ctx.dsaHwDescs ctx.dsaHwDescsPhys ∧
      ArrayIn table ctx.completionRecordMemoryChunk kDsaCompletionRecordSize ctx.dsaCompletionRecords
        ctx.dsaCompletionRecordsPhys := by
  obtain ⟨hdescs, hdescsPhys, hrecords, hrecordsPhys⟩ := preallocateCtx_ok hctx.built
  rw [hdescs, hdescsPhys, hrecords, hrecordsPhys]
  exact ⟨hctx.descs.arrayIn h (.inl rfl), hctx.records.arrayIn h (.inr rfl)⟩

def chunkRanges (dst : Nat) : List (Nat × Nat) → Nat → List (Nat × Nat)
  | [], _ => []
  | (src, len) :: segments, offset => (src, len) :: (dst + offset, len) :: chunkRanges dst segments (offset + len)

/-- The ranges of virtual addresses that the copies and CRCs of a request are about, in the order
of the descriptors. -/
def requestRanges : DataFlowOperations → List (Nat × Nat)
  | .move ops => (ops.flatMap fun op => chunkRanges op.dst (op.src.zip op.srcLen) 0) ++
      (ops.filter needsCrc).map fun op => (op.dst, movedLength op)
  | .crc ops => ops.map fun op => (op.src, op.len)

def operationRanges : DsaOperation → List (Nat × Nat)
  | .memmove src dst size => [(src, size), (dst, size)]
  | .copyCrc src dst size _ => [(src, size), (dst, size)]
  | .crcgen src size _ => [(src, size)]
  | .batch _ _ => []
  | .fence => []

structure RangeOk (table : AddressMap) (range physRange : Nat × Nat) : Prop where
  page : InPage table range.1 range.2
  addr : physRange.1 = lookUpAddr table range.1
  size : physRange.2 = range.2

def NoWrap : DataFlowOperations → Prop
  | .move ops => ∀ op ∈ ops, (∀ s ∈ op.src.zip op.srcLen, s.1 + s.2 < 2 ^ 64) ∧ op.dst + movedLength op < 2 ^ 64
  | .crc ops => ∀ op ∈ ops, op.src + op.len < 2 ^ 64

section

variable (h : DmaTable table)
include h

lemma page_size_le (hc : c ∈ pagesOf table) : c.getChunkSize ≤ 2 ^ 30 := by
  obtain ⟨k, hk, hsize⟩ := exists_pageSize (h.isTable.type _ c hc)
  unfold PhysChunk.getChunkSize
  rw [hsize]
  exact Nat.pow_le_pow_right (by norm_num) hk

lemma InPage.len_mod (hpage : InPage table v len) : len % 2 ^ 32 = len := by
  obtain ⟨c, hc, hlo, hhi⟩ := hpage
  have hsize := page_size_le h hc
  unfold pageEnd at hhi
  apply Nat.mod_eq_of_lt
  omega

lemma inPage_of_lookUp (hend : v + len < 2 ^ 64) (hne : lookUpAddrIfNotAcrossBound table v len ≠ 0) :
    ∃ c ∈ pagesOf table, HasAddr c v ∧ v + len ≤ pageEnd c := by
  obtain ⟨c, hc, haddr, -, hle, -⟩ := lookUp_inside h.isTable (by omega) hne
  rw [Nat.mod_eq_of_lt hend, Nat.mod_eq_of_lt (h.ends c hc)] at hle
  exact ⟨c, hc, haddr, hle⟩

lemma rangeOk_lookUp (hend : v + len < 2 ^ 64) (hne : lookUpAddrIfNotAcrossBound table v len ≠ 0) :
    RangeOk table (v, len) (lookUpAddrIfNotAcrossBound table v len, len % 2 ^ 32) := by
  obtain ⟨c, hc, haddr, hle⟩ := inPage_of_lookUp h hend hne
  have hpage : InPage table v len := ⟨c, hc, haddr.1, hle⟩
  exact ⟨hpage, lookUp_eq_lookUpAddr h.isTable (by omega) hne, hpage.len_mod h⟩

end

variable {offset : Nat}

lemma rangeOk_part (h : DmaTable table) (hc : c ∈ pagesOf table) (haddr : HasAddr c dst)
    (hend : dst + offset + len ≤ pageEnd c) (hlen : 0 < len) :
    RangeOk table (dst + offset, len) ((lookUpAddr table dst + offset) % 2 ^ 64, len % 2 ^ 32) := by
  have hpage : InPage table (dst + offset) len := ⟨c, hc, haddr.1.trans (Nat.le_add_right _ _), hend⟩
  have hdst : dst < 2 ^ 64 := haddr.2.trans (h.ends c hc)
  have hpart : HasAddr c (dst + offset) := ⟨haddr.1.trans (Nat.le_add_right _ _), by omega⟩
  have hpartlt : dst + offset < 2 ^ 64 := hpart.2.trans (h.ends c hc)
  have hstart := haddr.1
  refine ⟨hpage, ?_, hpage.len_mod h⟩
  dsimp only
  rw [lookUpAddr_eq h.isTable hdst hc haddr, lookUpAddr_eq h.isTable hpartlt hc hpart, physAddrAt_eq haddr hdst,
    physAddrAt_eq hpart hpartlt, Nat.mod_add_mod, Nat.add_assoc]
  congr 2
  omega

lemma operationRanges_copyOperation (op : DataFlowMoveOperation) (src dst len : Nat) :
    operationRanges (copyOperation op src dst len) = [(src, len % 2 ^ 32), (dst, len % 2 ^ 32)] := by
  unfold copyOperation
  split <;> rfl

lemma chunkRanges_ok (h : DmaTable table) (hc : c ∈ pagesOf table) (haddr : HasAddr c op.dst)
    (hend : op.dst + offset + (segments.map Prod.snd).sum ≤ pageEnd c)
    (hlookups : ∀ s ∈ segments, s.1 + s.2 < 2 ^ 64 ∧ 0 < s.2 ∧ lookUpAddrIfNotAcrossBound table s.1 s.2 ≠ 0) :
    Forall₂ (RangeOk table) (chunkRanges op.dst segments offset)
      ((chunkOperations table op segments offset).flatMap operationRanges) := by
  induction segments generalizing offset with
  | nil => exact .nil
  | cons segment segments ih =>
    obtain ⟨src, len⟩ := segment
    obtain ⟨hsrc, hpos, hne⟩ := hlookups (src, len) mem_cons_self
    have hpage := h.ends c hc
    rw [map_cons, sum_cons] at hend
    unfold chunkRanges chunkOperations
    rw [flatMap_cons, operationRanges_copyOperation]
    refine .cons (rangeOk_lookUp h hsrc hne) (.cons (rangeOk_part h hc haddr (by omega) hpos) ?_)
    rw [Nat.mod_eq_of_lt (show offset + len < 2 ^ 64 by omega)]
    exact ih (by omega) fun s hs => hlookups s (mem_cons_of_mem _ hs)

lemma mem_chunkRanges (hs : s ∈ segments) :
    s ∈ chunkRanges dst segments offset := by
  induction segments generalizing offset with
  | nil => exact absurd hs not_mem_nil
  | cons segment segments ih =>
    rcases mem_cons.mp hs with rfl | hs
    · exact mem_cons_self
    · exact mem_cons_of_mem _ (mem_cons_of_mem _ (ih hs))

lemma exists_last_chunkRange (dst offset : Nat) (hne : segments ≠ []) :
    ∃ r ∈ chunkRanges dst segments offset, r.1 + r.2 = dst + offset + (segments.map Prod.snd).sum := by
  induction segments generalizing offset with
  | nil => exact absurd rfl hne
  | cons segment segments ih =>
    obtain ⟨src, len⟩ := segment
    unfold chunkRanges
    by_cases hrest : segments = []
    · subst hrest
      exact ⟨(dst + offset, len), by simp, by simp⟩
    · obtain ⟨r, hr, hsum⟩ := ih (offset + len) hrest
      refine ⟨r, mem_cons_of_mem _ (mem_cons_of_mem _ hr), ?_⟩
      rw [hsum, map_cons, sum_cons]
      omega

lemma zip_ne_nil (hop : PassesMove op) : op.src.zip op.srcLen ≠ [] := by
  intro hnil
  have hlen := congrArg List.length hnil
  rw [length_zip, length_nil, ← hop.2.1, Nat.min_self] at hlen
  exact hop.1 hlen

lemma zip_pos (hop : PassesMove op) (hs : s ∈ op.src.zip op.srcLen) :
    0 < s.2 :=
  Nat.pos_of_ne_zero (hop.2.2.2.1 s.2 (of_mem_zip hs).2)

lemma lengthSum_eq (hend : op.dst + movedLength op < 2 ^ 64) :
    lengthSum op = movedLength op :=
  Nat.mod_eq_of_lt (by unfold movedLength at hend; omega)

lemma Translates.dst_page (h : DmaTable table) (htranslates : Translates table op)
    (hend : op.dst + movedLength op < 2 ^ 64) :
    ∃ c ∈ pagesOf table, HasAddr c op.dst ∧ op.dst + movedLength op ≤ pageEnd c := by
  apply inPage_of_lookUp h hend
  rw [← lengthSum_eq hend]
  exact htranslates.whole

lemma crcTail_ranges (ops : List DataFlowMoveOperation) :
    (if ops.countP needsCrc ≠ 0 then .fence :: (ops.filter needsCrc).map (crcOperation table) else []).flatMap
        operationRanges =
      (ops.filter needsCrc).map fun op => (lookUpAddr table op.dst, lengthSum op % 2 ^ 32) := by
  have hcrcs : ((ops.filter needsCrc).map (crcOperation table)).flatMap operationRanges =
      (ops.filter needsCrc).map fun op => (lookUpAddr table op.dst, lengthSum op % 2 ^ 32) := by
    rw [flatMap_map, map_eq_flatMap]
    rfl
  by_cases hzero : ops.countP needsCrc = 0
  · rw [if_neg (by simpa using hzero)]
    rw [countP_eq_length_filter, length_eq_zero_iff] at hzero
    rw [hzero]
    rfl
  · rw [if_pos hzero, flatMap_cons, hcrcs]
    rfl

lemma copyRanges_ok (h : DmaTable table) (hop : PassesMove op) (htranslates : Translates table op)
    (hsrc : ∀ s ∈ op.src.zip op.srcLen, s.1 + s.2 < 2 ^ 64) (hdst : op.dst + movedLength op < 2 ^ 64) :
    Forall₂ (RangeOk table) (chunkRanges op.dst (op.src.zip op.srcLen) 0)
      ((copyOperations table op).flatMap operationRanges) := by
  obtain ⟨c, hc, haddr, hend⟩ := htranslates.dst_page h hdst
  apply chunkRanges_ok h hc haddr hend
  intro s hs
  exact ⟨hsrc s hs, zip_pos hop hs, htranslates.chunks s hs⟩

lemma moveRanges_ok (h : DmaTable table) {ops : List DataFlowMoveOperation} (hops : ∀ op ∈ ops, PassesMove op)
    (htranslates : ∀ op ∈ ops, Translates table op) (hwrap : NoWrap (.move ops)) :
    Forall₂ (RangeOk table) (requestRanges (.move ops)) ((moveList table ops).flatMap operationRanges) := by
  unfold requestRanges moveList
  rw [flatMap_append]
  apply rel_append
  · rw [flatMap_assoc]
    induction ops with
    | nil => exact .nil
    | cons op ops ih =>
      have hmem : op ∈ op :: ops := mem_cons_self
      rw [flatMap_cons, flatMap_cons]
      apply rel_append
      · exact copyRanges_ok h (hops op hmem) (htranslates op hmem) (hwrap op hmem).1 (hwrap op hmem).2
      · exact ih (fun o ho => hops o (mem_cons_of_mem _ ho)) (fun o ho => htranslates o (mem_cons_of_mem _ ho))
          fun o ho => hwrap o (mem_cons_of_mem _ ho)
  · rw [crcTail_ranges, List.forall₂_map_left_iff, List.forall₂_map_right_iff, List.forall₂_same]
    intro op hop
    have hmem := mem_of_mem_filter hop
    have hend := (hwrap op hmem).2
    obtain ⟨c, hc, haddr, hle⟩ := (htranslates op hmem).dst_page h hend
    have hpage : InPage table op.dst (movedLength op) := ⟨c, hc, haddr.1, hle⟩
    refine ⟨hpage, rfl, ?_⟩
    dsimp only
    rw [lengthSum_eq hend, hpage.len_mod h]

lemma crcList_ranges (ops : List DataFlowCrcOperation) :
    (crcList table ops).flatMap operationRanges =
      ops.map fun op => (lookUpAddrIfNotAcrossBound table op.src op.len, op.len % 2 ^ 32) := by
  unfold crcList
  rw [flatMap_map, map_eq_flatMap]
  rfl

lemma crcRanges_ok (h : DmaTable table) {ops : List DataFlowCrcOperation}
    (hlookups : ∀ op ∈ ops, lookUpAddrIfNotAcrossBound table op.src op.len ≠ 0) (hwrap : NoWrap (.crc ops)) :
    Forall₂ (RangeOk table) (requestRanges (.crc ops)) ((crcList table ops).flatMap operationRanges) := by
  unfold requestRanges
  rw [crcList_ranges, List.forall₂_map_left_iff, List.forall₂_map_right_iff, List.forall₂_same]
  intro op hop
  exact rangeOk_lookUp h (hwrap op hop) (hlookups op hop)

lemma noWrap_of_ranges (hop : PassesMove op)
    (hchunks : ∀ r ∈ chunkRanges op.dst (op.src.zip op.srcLen) 0, r.1 + r.2 < 2 ^ 64) :
    (∀ s ∈ op.src.zip op.srcLen, s.1 + s.2 < 2 ^ 64) ∧ op.dst + movedLength op < 2 ^ 64 := by
  refine ⟨fun s hs => hchunks s (mem_chunkRanges hs), ?_⟩
  obtain ⟨r, hr, hsum⟩ := exists_last_chunkRange op.dst 0 (zip_ne_nil hop)
  have hlast := hchunks r hr
  rw [hsum, Nat.add_zero] at hlast
  exact hlast

lemma InPage.covers (hpage : InPage table v len) : PagesCover table v len := by
  obtain ⟨c, hc, hlo, hhi⟩ := hpage
  intro x hx hx'
  exact ⟨c, hc, hlo.trans hx, hx'.trans_le hhi⟩

lemma PagesCover.end_lt (h : DmaTable table) (hcover : PagesCover table v len) (hpos : 0 < len) :
    v + len < 2 ^ 64 := by
  obtain ⟨c, hc, -, hhi⟩ := hcover (v + len - 1) (by omega) (by omega)
  have hend := h.ends c hc
  omega

lemma chunkRanges_pos {dst offset : Nat} (hpos : ∀ s ∈ segments, 0 < s.2)
    {r : Nat × Nat} (hr : r ∈ chunkRanges dst segments offset) : 0 < r.2 := by
  induction segments generalizing offset with
  | nil => exact absurd hr not_mem_nil
  | cons segment segments ih =>
    have hsegment := hpos segment mem_cons_self
    rcases mem_cons.mp hr with rfl | hr
    · exact hsegment
    · rcases mem_cons.mp hr with rfl | hr
      · exact hsegment
      · exact ih (fun s hs => hpos s (mem_cons_of_mem _ hs)) hr

lemma noWrap_of_cover (h : DmaTable table) (hpasses : PassesChecks ops)
    (hdma : ∀ r ∈ requestRanges ops, PagesCover table r.1 r.2) : NoWrap ops := by
  cases ops with
  | move ops =>
    intro op hop
    have hchunks : ∀ r ∈ chunkRanges op.dst (op.src.zip op.srcLen) 0, r.1 + r.2 < 2 ^ 64 := by
      intro r hr
      apply (hdma r (mem_append_left _ (mem_flatMap.mpr ⟨op, hop, hr⟩))).end_lt h
      exact chunkRanges_pos (fun s hs => zip_pos (hpasses.2.1 op hop) hs) hr
    exact noWrap_of_ranges (hpasses.2.1 op hop) hchunks
  | crc ops =>
    intro op hop
    exact (hdma (op.src, op.len) (mem_map_of_mem hop)).end_lt h (hpasses.2 op hop).1

def operationsOf (built : Built) : List DsaOperation := built.descs.map fun d => d.2.operation

def IsCopy : DsaOperation → Prop
  | .memmove _ _ _ => True
  | .copyCrc _ _ _ _ => True
  | _ => False

def IsCrc : DsaOperation → Prop
  | .crcgen _ _ _ => True
  | _ => False

def FenceOk (ops : DataFlowOperations) (list : List DsaOperation) : Prop :=
  match ops with
  | .move _ => (.fence ∈ list ↔ ∃ o ∈ list, IsCrc o) ∧
      ∀ before after, list = before ++ .fence :: after → (∀ o ∈ before, ¬ IsCrc o) ∧ ∀ o ∈ after, ¬ IsCopy o
  | .crc _ => .fence ∉ list ∧ ∀ o ∈ list, ¬ IsCopy o

structure DescLayout (table : AddressMap) (ctx : DsaCtx) (ops : DataFlowOperations) (built : Built) : Prop where
  /-- The descriptors are written to the first `desc_num` elements, each once. -/
  filled : built.descs.map Prod.fst = (List.range built.descNum).map (elementAddr ctx.dsaHwDescs kDsaHwDescSize)
  once : (built.descs.map Prod.fst).Nodup
  /-- Each has the record with the same number. -/
  records : (built.descs.map fun d => d.2.completionAddr) =
    (List.range built.descNum).map (elementAddr ctx.dsaCompletionRecordsPhys kDsaCompletionRecordSize)
  batch : 1 < built.descNum → 2 ≤ built.descNum - 1 ∧ ∃ list, operationsOf built =
    .batch (built.descNum - 1) (elementAddr ctx.dsaHwDescsPhys kDsaHwDescSize 1) :: list
  fence : FenceOk ops (operationsOf built)
  inside : ∀ k < built.descNum,
    ctx.descMemoryChunk ≤ elementAddr ctx.dsaHwDescs kDsaHwDescSize k ∧
      elementAddr ctx.dsaHwDescs kDsaHwDescSize k + kDsaHwDescSize ≤
        ctx.descMemoryChunk + kDsaHwDescSize * (kMaxInternalBatchSize + 1) ∧
      ctx.completionRecordMemoryChunk ≤ elementAddr ctx.dsaCompletionRecords kDsaCompletionRecordSize k ∧
      elementAddr ctx.dsaCompletionRecords kDsaCompletionRecordSize k + kDsaCompletionRecordSize ≤
        ctx.completionRecordMemoryChunk + kDsaCompletionRecordSize * (kMaxInternalBatchSize + 1)
  translated : ∀ k < built.descNum,
    elementAddr ctx.dsaHwDescsPhys kDsaHwDescSize k =
        lookUpAddr table (elementAddr ctx.dsaHwDescs kDsaHwDescSize k) ∧
      elementAddr ctx.dsaCompletionRecordsPhys kDsaCompletionRecordSize k =
        lookUpAddr table (elementAddr ctx.dsaCompletionRecords kDsaCompletionRecordSize k)
  /-- The records that are read for the CRCs are among them. -/
  results : ∀ i < ops.num, built.crcResults i = 0 ∨
    ∃ k < built.descNum, built.crcResults i = elementAddr ctx.dsaCompletionRecords kDsaCompletionRecordSize k
  /-- What the descriptors name are the ranges of the request, each inside one page. -/
  ranges : List.Forall₂ (RangeOk table) (requestRanges ops) ((operationsOf built).flatMap operationRanges)
  bound : built.descNum ≤ kMaxInternalBatchSize

variable (k : Nat) (list : List DsaOperation)

lemma map_fst_numbered :
    (numbered ctx k list).map Prod.fst =
      (range' k list.length).map (elementAddr ctx.dsaHwDescs kDsaHwDescSize) := by
  induction list generalizing k with
  | nil => rfl
  | cons operation list ih =>
    rw [numbered_cons, map_cons, ih, length_cons, range'_succ, map_cons]

lemma map_completionAddr_numbered :
    ((numbered ctx k list).map fun d => d.2.completionAddr) =
      (range' k list.length).map (elementAddr ctx.dsaCompletionRecordsPhys kDsaCompletionRecordSize) := by
  induction list generalizing k with
  | nil => rfl
  | cons operation list ih =>
    rw [numbered_cons, map_cons, ih, length_cons, range'_succ, map_cons]

lemma map_operation_numbered :
    ((numbered ctx k list).map fun d => d.2.operation) = list := by
  induction list generalizing k with
  | nil => rfl
  | cons operation list ih => rw [numbered_cons, map_cons, ih]

structure RequestBuilt (table : AddressMap) (ctx : DsaCtx) (ops : DataFlowOperations) (built : Built) : Prop where
  list : BuiltFrom ctx (operationList table ops) built
  nonempty : 1 ≤ (operationList table ops).length
  bound : (framed ctx (operationList table ops)).length ≤ kMaxInternalBatchSize
  fence : FenceOk ops (operationList table ops)
  ranges : NoWrap ops →
    List.Forall₂ (RangeOk table) (requestRanges ops) ((operationList table ops).flatMap operationRanges)
  results : ∀ i < ops.num, built.crcResults i = 0 ∨ ∃ operation, ResultAt ctx (fillOf built) i operation

lemma length_framed_le : (framed ctx list).length ≤ list.length + 1 := by
  unfold framed
  split
  · exact Nat.le_succ _
  · exact le_rfl

lemma isCopy_of_mem_chunkOperations {sum : Nat} {o : DsaOperation} (ho : o ∈ chunkOperations table op segments sum) :
    IsCopy o := by
  induction segments generalizing sum with
  | nil => exact absurd ho not_mem_nil
  | cons segment segments ih =>
    rcases mem_cons.mp ho with rfl | ho
    · unfold copyOperation
      split <;> trivial
    · exact ih ho

lemma fenceOk_moveList (ops : List DataFlowMoveOperation) : FenceOk (.move ops) (moveList table ops) := by
  have hcopies : ∀ o ∈ ops.flatMap (copyOperations table), IsCopy o := by
    intro o ho
    obtain ⟨op, -, ho⟩ := mem_flatMap.mp ho
    exact isCopy_of_mem_chunkOperations ho
  have hcrcs : ∀ o ∈ (ops.filter needsCrc).map (crcOperation table), IsCrc o := by
    intro o ho
    obtain ⟨op, -, rfl⟩ := mem_map.mp ho
    trivial
  have hfence : .fence ∉ ops.flatMap (copyOperations table) := fun hmem => hcopies _ hmem
  have hcopy : ∀ o, IsCrc o → ¬ IsCopy o := by
    intro o hcrc hcopy
    cases o <;> trivial
  unfold FenceOk moveList
  dsimp only
  by_cases hzero : ops.countP needsCrc = 0
  · rw [if_neg (by simpa using hzero), append_nil]
    refine ⟨⟨fun hmem => absurd hmem hfence, ?_⟩, ?_⟩
    · rintro ⟨o, ho, hcrc⟩
      exact absurd (hcopies o ho) (hcopy o hcrc)
    · intro before after heq
      rw [heq] at hfence
      exact absurd (by simp) hfence
  · rw [if_pos hzero]
    refine ⟨⟨fun _ => ?_, fun _ => by simp⟩, ?_⟩
    · obtain ⟨op, hop, hneeds⟩ := countP_pos_iff.mp (Nat.pos_of_ne_zero hzero)
      refine ⟨crcOperation table op, ?_, trivial⟩
      apply mem_append_right
      apply mem_cons_of_mem
      exact mem_map_of_mem (mem_filter.mpr ⟨hop, hneeds⟩)
    · intro before after heq
      have hfence' : .fence ∉ (ops.filter needsCrc).map (crcOperation table) := fun hmem => hcrcs _ hmem
      obtain ⟨rfl, -, rfl⟩ := (append_cons_inj_of_notMem hfence hfence').mp heq
      exact ⟨fun o ho hcrc => hcopy o hcrc (hcopies o ho), fun o ho => hcopy o (hcrcs o ho)⟩

lemma zip_of_fusesCrc (hop : PassesMove op) (hfuses : fusesCrc op = true) :
    ∃ src len, op.src.zip op.srcLen = [(src, len)] := by
  unfold fusesCrc isCopyWithCrcOk at hfuses
  have hsize := hop.2.1
  cases hsrc : op.src with
  | nil => simp [hsrc] at hfuses
  | cons src srcs =>
    cases srcs with
    | cons src' srcs => simp [hsrc] at hfuses
    | nil =>
      rw [hsrc] at hsize
      obtain ⟨len, hlen⟩ := length_eq_one_iff.mp hsize.symm
      exact ⟨src, len, by rw [hlen]; rfl⟩

lemma moveResult_cases {fill : Fill} {i : Nat} (hop : PassesMove op) (h : MoveResult table ctx fill i op) :
    fill.crcResults i = 0 ∨ ∃ operation, ResultAt ctx fill i operation := by
  unfold MoveResult copyResult at h
  by_cases hneeds : needsCrc op = true
  · rw [if_pos hneeds] at h
    exact .inr ⟨_, h⟩
  · rw [if_neg hneeds] at h
    by_cases hfuses : fusesCrc op = true
    · rw [if_pos hfuses] at h
      obtain ⟨src, len, hzip⟩ := zip_of_fusesCrc hop hfuses
      exact .inr ⟨_, h src len hzip⟩
    · rw [if_neg hfuses] at h
      exact .inl (h (zip_ne_nil hop))

theorem requestBuilt_of_ok (h : DmaTable table) {crcs : Nat → Nat} (hpasses : PassesChecks ops) (hnum : 1 ≤ ops.num)
    (hwords : Words ops) (hbuilt : buildCtx table ctx crcs ops = .ok built) : RequestBuilt table ctx ops built := by
  cases ops with
  | move ops =>
    have hne : ops ≠ [] := ne_nil_of_length_pos hnum
    obtain ⟨hlist, htranslates, hresults⟩ := buildMoveCtx_ok h.isTable hpasses.2.1 hne hwords hbuilt
    have hlen : (moveList table ops).length = _ := length_moveList hpasses.2.1
    have hcount : ops.countP needsCrc ≤ ops.length := countP_le_length
    refine ⟨hlist, ?_, ?_, fenceOk_moveList ops, moveRanges_ok h hpasses.2.1 htranslates, ?_⟩
    · obtain ⟨op, rest, rfl⟩ := exists_cons_of_ne_nil hne
      have hop := (hpasses.2.1 op mem_cons_self).1
      change 1 ≤ (moveList table (op :: rest)).length
      rw [hlen, map_cons, sum_cons]
      omega
    · refine (length_framed_le _).trans ?_
      change (moveList table ops).length + 1 ≤ _
      have hbound := hpasses.2.2
      rw [hlen]
      split <;> omega
    · intro i hi
      change i < ops.length at hi
      exact moveResult_cases (hpasses.2.1 _ (getElem_mem hi)) (hresults i ops[i] (getElem?_eq_getElem hi))
  | crc ops =>
    obtain ⟨hlist, hlookups, hresults⟩ := buildCrcCtx_ok hbuilt
    have hlen : (crcList table ops).length = ops.length := length_map _
    refine ⟨hlist, ?_, ?_, ?_, crcRanges_ok h hlookups, ?_⟩
    · exact hnum.trans hlen.symm.le
    · refine (length_framed_le _).trans ?_
      change (crcList table ops).length + 1 ≤ _
      have hmax : kMaxSubmittedBatchSize + 1 ≤ kMaxInternalBatchSize := by norm_num
      have := hpasses.1
      omega
    · have hcrcs : ∀ o ∈ crcList table ops, IsCrc o := by
        intro o ho
        obtain ⟨op, -, rfl⟩ := mem_map.mp ho
        trivial
      refine ⟨fun hmem => hcrcs _ hmem, ?_⟩
      intro o ho hcopy
      have := hcrcs o ho
      cases o <;> trivial
    · intro i hi
      change i < ops.length at hi
      exact .inr ⟨_, hresults i ops[i] (getElem?_eq_getElem hi)⟩

lemma fenceOk_framed {list : List DsaOperation} (h : FenceOk ops list) :
    FenceOk ops (framed ctx list) := by
  unfold framed
  split
  · exact h
  · cases ops with
    | move ops =>
      refine ⟨?_, ?_⟩
      · rw [mem_cons, exists_mem_cons_iff]
        refine (or_iff_right ?_).trans (h.1.trans (or_iff_right ?_).symm)
        · exact fun heq => DsaOperation.noConfusion heq
        · exact fun hcrc => hcrc
      · intro before after heq
        cases before with
        | nil => cases heq
        | cons o before =>
          obtain ⟨rfl, hlist⟩ := List.cons.inj heq
          obtain ⟨hbefore, hafter⟩ := h.2 before after hlist
          refine ⟨?_, hafter⟩
          exact forall_mem_cons.mpr ⟨fun hcrc => hcrc, hbefore⟩
    | crc ops =>
      refine ⟨?_, ?_⟩
      · rw [mem_cons]
        rintro (heq | hmem)
        · cases heq
        · exact h.1 hmem
      · exact forall_mem_cons.mpr ⟨fun hcopy => hcopy, h.2⟩

lemma framed_ranges :
    (framed ctx list).flatMap operationRanges = list.flatMap operationRanges := by
  unfold framed
  split <;> rfl

lemma RequestBuilt.operationsOf (h : RequestBuilt table ctx ops built) :
    operationsOf built = framed ctx (operationList table ops) := by
  unfold Proofs.operationsOf
  rw [h.list.descs, map_operation_numbered]

lemma RequestBuilt.layout (h : DmaTable table) (hctx : CtxPreallocated table ctx)
    (hbuilt : RequestBuilt table ctx ops built) (hwrap : NoWrap ops) :
    DescLayout table ctx ops built := by
  obtain ⟨hdescs, hrecords⟩ := hctx.arrays h
  have hnum := hbuilt.list.num
  have hbound : built.descNum ≤ kMaxInternalBatchSize := hnum.trans_le hbuilt.bound
  have hlength : built.descs.length = built.descNum := by rw [hbuilt.list.descs, length_numbered, hnum]
  have hfilled : built.descs.map Prod.fst =
      (range built.descNum).map (elementAddr ctx.dsaHwDescs kDsaHwDescSize) := by
    rw [hbuilt.list.descs, map_fst_numbered, range_eq_range', hnum]
  refine ⟨hfilled, ?_, ?_, ?_, ?_, ?_, ?_, ?_, ?_, hbound⟩
  · rw [hfilled]
    apply Nodup.map_on _ nodup_range
    intro k hk j hj heq
    rw [mem_range] at hk hj
    exact hdescs.distinct (hk.trans_le hbound) (hj.trans_le hbound) heq
  · rw [hbuilt.list.descs, map_completionAddr_numbered, range_eq_range', hnum]
  · intro hone
    rw [hbuilt.operationsOf]
    have hnonempty := hbuilt.nonempty
    unfold framed at hnum ⊢
    split at hnum
    · omega
    · rename_i hlen
      rw [length_cons] at hnum
      rw [if_neg hlen, hnum, Nat.add_sub_cancel]
      exact ⟨by omega, _, rfl⟩
  · rw [hbuilt.operationsOf]
    exact fenceOk_framed hbuilt.fence
  · intro k hk
    have hdesc := hdescs.inside k (hk.trans_le hbound)
    have hrecord := hrecords.inside k (hk.trans_le hbound)
    exact ⟨hdesc.1, hdesc.2, hrecord.1, hrecord.2⟩
  · intro k hk
    exact ⟨hdescs.translated k (hk.trans_le hbound), hrecords.translated k (hk.trans_le hbound)⟩
  · intro i hi
    rcases hbuilt.results i hi with hzero | ⟨operation, hresult⟩
    · exact .inl hzero
    · obtain ⟨k, hcrc, hdesc⟩ := hresult.exists_element
      refine .inr ⟨k, ?_, hcrc⟩
      rw [← hlength]
      exact (List.getElem?_eq_some_iff.mp hdesc).1
  · rw [hbuilt.operationsOf, framed_ranges]
    exact hbuilt.ranges hwrap

lemma DescLayout.noWrap (h : DmaTable table) (hpasses : PassesChecks ops) (hlayout : DescLayout table ctx ops built) :
    NoWrap ops := by
  apply noWrap_of_cover h hpasses
  intro r hr
  obtain ⟨n, hn, rfl⟩ := getElem_of_mem hr
  exact (hlayout.ranges.get hn (hlayout.ranges.length_eq ▸ hn)).page.covers

/-- The descriptors of a request that the checks pass on and that is built are laid out as they
have to be exactly when no range of the request wraps around the address space. -/
theorem dsa_descriptors_laid_out_iff (h : DmaTable table) (hctx : CtxPreallocated table ctx) (ops : DataFlowOperations)
    (hpasses : PassesChecks ops) (hnum : 1 ≤ ops.num) (hwords : Words ops) (crcs : Nat → Nat) (built : Built)
    (hbuilt : buildCtx table ctx crcs ops = .ok built) : DescLayout table ctx ops built ↔ NoWrap ops :=
  ⟨fun hlayout => hlayout.noWrap h hpasses, (requestBuilt_of_ok h hpasses hnum hwords hbuilt).layout h hctx⟩

def devicePage : PhysChunk := ⟨2097152, 1073741824, .kPage2Mb⟩

def deviceTable : AddressMap := AddressMap.empty.assign devicePage

lemma devicePage_mem : devicePage ∈ pagesOf deviceTable := by
  change Function.update AddressMap.empty devicePage.startAddr (some devicePage) devicePage.startAddr = some devicePage
  exact update_self _ _ _

lemma mem_pagesOf_deviceTable (hc : c ∈ pagesOf deviceTable) : c = devicePage := by
  rcases assign_eq_some hc with ⟨-, rfl⟩ | ⟨-, hold⟩
  · rfl
  · cases hold

lemma dmaTable_deviceTable : DmaTable deviceTable where
  isTable := by
    apply pageTable_empty.assign
    · decide
    · decide
    · decide
    · intro c hc
      cases hc
  ends := by
    intro c hc
    rw [mem_pagesOf_deviceTable hc]
    decide

def deviceCtx : DsaCtx := ⟨2097216, 2097216, 1073741888, 2163008, 2163008, 1073807680⟩

lemma ctxPreallocated_deviceCtx : CtxPreallocated deviceTable deviceCtx where
  built := by decide +kernel
  descs := ⟨devicePage, devicePage_mem, by decide, by decide, by decide⟩
  records := ⟨devicePage, devicePage_mem, by decide, by decide, by decide⟩

lemma exists_built {α : Type} (f : Built → α) (ops : DataFlowOperations) {x : α}
    (h : (buildCtx deviceTable deviceCtx (fun _ => 0) ops).map f = .ok x) :
    ∃ built, buildCtx deviceTable deviceCtx (fun _ => 0) ops = .ok built ∧ f built = x := by
  cases hbuilt : buildCtx deviceTable deviceCtx (fun _ => 0) ops with
  | error e =>
    rw [hbuilt] at h
    cases h
  | ok built =>
    rw [hbuilt] at h
    exact ⟨built, rfl, Except.ok.inj h⟩

def wrappingChunks : DataFlowOperations := .move [⟨[3145728, 3149824], [2 ^ 64 - 1, 5], 3153920, 0, false⟩]

theorem wrapping_chunk_leaves_its_page :
    ∃ built, CtxPreallocated deviceTable deviceCtx ∧ PassesChecks wrappingChunks ∧ Words wrappingChunks ∧
      buildCtx deviceTable deviceCtx (fun _ => 0) wrappingChunks = .ok built ∧
      .memmove 1074790400 1074798592 (2 ^ 32 - 1) ∈ operationsOf built ∧
      ¬ DescLayout deviceTable deviceCtx wrappingChunks built := by
  have hpasses : PassesChecks wrappingChunks := by decide
  obtain ⟨built, hbuilt, hlist⟩ := exists_built operationsOf wrappingChunks (x :=
    [.batch 2 1073741952, .memmove 1074790400 1074798592 (2 ^ 32 - 1), .memmove 1074794496 1074798591 5])
    (by decide +kernel)
  refine ⟨built, ctxPreallocated_deviceCtx, hpasses, ?_, hbuilt, ?_, ?_⟩
  · intro op hop
    rw [List.mem_singleton.mp hop]
    refine ⟨by norm_num, ?_⟩
    decide
  · rw [hlist]
    decide
  · intro hlayout
    have hwrap := hlayout.noWrap dmaTable_deviceTable hpasses
    have hfirst := (hwrap _ List.mem_cons_self).1 (3145728, 2 ^ 64 - 1) (by decide)
    norm_num at hfirst

def deviceMoves : DataFlowOperations :=
  .move [⟨[3145728], [16], 3145736, 7, true⟩, ⟨[3149824], [5], 3153920, 0, true⟩]

lemma words_deviceMoves : Words deviceMoves := by
  intro op hop
  rcases List.mem_pair.mp hop with rfl | rfl
  · exact ⟨by norm_num, by decide⟩
  · exact ⟨by norm_num, by decide⟩

theorem dsa_descriptors_laid_out_two_moves :
    ∃ built, buildCtx deviceTable deviceCtx (fun _ => 0) deviceMoves = .ok built ∧ built.descNum = 5 ∧
      DescLayout deviceTable deviceCtx deviceMoves built := by
  have hpasses : PassesChecks deviceMoves := by decide
  have hwrap : NoWrap deviceMoves := by
    intro op hop
    rcases List.mem_pair.mp hop with rfl | rfl
    · exact ⟨by decide, by decide⟩
    · exact ⟨by decide, by decide⟩
  obtain ⟨built, hbuilt, hnum⟩ := exists_built Built.descNum deviceMoves (x := 5) (by decide +kernel)
  exact ⟨built, hbuilt, hnum, (dsa_descriptors_laid_out_iff dmaTable_deviceTable
    ctxPreallocated_deviceCtx deviceMoves hpasses (by decide) words_deviceMoves _ built hbuilt).mpr hwrap⟩

end Vesal.Proofs
