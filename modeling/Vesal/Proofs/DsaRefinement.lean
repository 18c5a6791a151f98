import Vesal.Proofs.DsaSchedule

/-! # The DSA engine refines the software engine -/

namespace Vesal.Proofs

open Library DsaCtxFactory AddressManager List DsaHardware BitVec UInt8

variable {table : AddressMap} {ctx : DsaCtx}

variable {k : Nat} {list : List DsaOperation} {o : DsaOperation} {ops : List DataFlowMoveOperation}
  {op : DataFlowMoveOperation}

variable {d : Nat × DsaHwDesc} {i : Nat} {host : Memory}

lemma mem_numbered (hd : d ∈ numbered ctx k list) :
    ∃ j, k ≤ j ∧ j < k + list.length ∧ d.1 = elementAddr ctx.dsaHwDescs kDsaHwDescSize j ∧ d.2.operation ∈ list := by
  induction list generalizing k with
  | nil => exact absurd hd not_mem_nil
  | cons operation list ih =>
    rw [length_cons]
    rcases mem_cons.mp hd with rfl | hd
    · exact ⟨k, le_rfl, by omega, rfl, mem_cons_self⟩
    · obtain ⟨j, hlo, hhi, haddr, hmem⟩ := ih hd
      exact ⟨j, by omega, by omega, haddr, mem_cons_of_mem _ hmem⟩

def firstElement (list : List DsaOperation) : Nat := if list.length = 1 then 0 else 1

def IsBatch : DsaOperation → Prop
  | .batch _ _ => True
  | _ => False

/-- The descriptor that the device finds at the address of an element. -/
lemma find_numbered (hctx : CtxPreallocated table ctx) (h : DmaTable table) (k j : Nat)
    (hlen : k + list.length ≤ kMaxInternalBatchSize) (hj : k + j < kMaxInternalBatchSize) :
    ((numbered ctx k list).find? fun d =>
      lookUpAddr table d.1 = elementAddr ctx.dsaHwDescsPhys kDsaHwDescSize (k + j)) = (numbered ctx k list)[j]? := by
  induction list generalizing k j with
  | nil => rfl
  | cons operation list ih =>
    rw [length_cons] at hlen
    rw [numbered_cons]
    have haddr := (hctx.arrays h).1.translated k (by omega)
    cases j with
    | zero => exact find?_cons_of_pos (by simpa using haddr.symm)
    | succ j =>
      rw [getElem?_cons_succ, ← ih (k + 1) j (by omega) (by omega), Nat.add_right_comm k 1 j]
      apply find?_cons_of_neg
      simp only [decide_eq_true_eq, ← haddr]
      unfold elementAddr kDsaHwDescSize
      unfold kMaxInternalBatchSize at hj
      omega

lemma filterMap_getElem? {α : Type} (l : List α) (n : Nat) : (range n).filterMap (l[·]?) = l.take n := by
  induction n with
  | zero => rfl
  | succ n ih =>
    rw [range_succ, filterMap_append, ih, take_add_one]
    congr 1

lemma fetched_numbered (h : DmaTable table) (hctx : CtxPreallocated table ctx) (hbatch : ∀ o ∈ list, ¬ IsBatch o)
    (hbound : (framed ctx list).length ≤ kMaxInternalBatchSize) :
    fetched table (numbered ctx 0 (framed ctx list)) = numbered ctx (firstElement list) list := by
  unfold framed firstElement
  by_cases hlen : list.length = 1
  · rw [if_pos hlen, if_pos hlen]
    obtain ⟨o, rfl⟩ := length_eq_one_iff.mp hlen
    have ho := hbatch o mem_cons_self
    cases o with
    | batch => exact absurd trivial ho
    | memmove => rfl
    | copyCrc => rfl
    | crcgen => rfl
    | fence => rfl
  · unfold framed at hbound
    rw [if_neg hlen, length_cons] at hbound
    rw [if_neg hlen, if_neg hlen, numbered_cons]
    have hall : (range list.length).filterMap ((numbered ctx 1 list)[·]?) = numbered ctx 1 list := by
      rw [filterMap_getElem?, take_of_length_le (length_numbered 1 list).le]
    refine Eq.trans (filterMap_congr ?_) hall
    intro j hj
    rw [mem_range] at hj
    have helement : elementAddr (elementAddr ctx.dsaHwDescsPhys kDsaHwDescSize 1) kDsaHwDescSize j =
        elementAddr ctx.dsaHwDescsPhys kDsaHwDescSize (0 + (j + 1)) := by
      unfold elementAddr
      rw [Nat.mod_add_mod]
      congr 1
      ring
    rw [helement, ← numbered_cons]
    refine (find_numbered hctx h 0 (j + 1) (by rw [length_cons]; omega) (by omega)).trans ?_
    rw [numbered_cons]
    rfl

lemma mem_fetched (h : DmaTable table) (hctx : CtxPreallocated table ctx) (hbatch : ∀ o ∈ list, ¬ IsBatch o)
    (hbound : (framed ctx list).length ≤ kMaxInternalBatchSize) (hd : d ∈ numbered ctx 0 (framed ctx list))
    (hnot : ¬ IsBatch d.2.operation) : d ∈ fetched table (numbered ctx 0 (framed ctx list)) := by
  rw [fetched_numbered h hctx hbatch hbound]
  unfold framed firstElement at *
  by_cases hlen : list.length = 1
  · rw [if_pos hlen] at hd ⊢
    exact hd
  · rw [if_neg hlen] at hd ⊢
    rcases mem_cons.mp hd with rfl | hd
    · exact absurd trivial hnot
    · exact hd

lemma nodup_completionAddr (h : DmaMemory table) (hctx : CtxPreallocated table ctx)
    (hbound : k + list.length ≤ kMaxInternalBatchSize) :
    ((numbered ctx k list).map fun d => d.2.completionAddr).Nodup := by
  obtain ⟨-, hrecords⟩ := hctx.arrays h.toDmaTable
  obtain ⟨c, hc, -, hlo, hhi⟩ := hctx.records
  have hinside : ∀ j < kMaxInternalBatchSize,
      HasAddr c (elementAddr ctx.dsaCompletionRecords kDsaCompletionRecordSize j) := by
    intro j hj
    have := hrecords.inside j hj
    have hsize : 0 < kDsaCompletionRecordSize := by norm_num
    exact ⟨by omega, by omega⟩
  rw [map_completionAddr_numbered]
  apply Nodup.map_on _ nodup_range'
  intro i hi j hj heq
  rw [mem_range'_1] at hi hj
  have hi' : i < kMaxInternalBatchSize := by omega
  have hj' : j < kMaxInternalBatchSize := by omega
  rw [hrecords.translated i hi', hrecords.translated j hj'] at heq
  exact hrecords.distinct hi' hj' (h.lookUpAddr_inj hc hc (hinside i hi') (hinside j hj') heq)

lemma not_isBatch_of_isCopy (h : IsCopy o) : ¬ IsBatch o := by
  intro hbatch
  cases o <;> trivial

lemma not_isBatch_of_isCrc (h : IsCrc o) : ¬ IsBatch o := by
  intro hbatch
  cases o <;> trivial

lemma isCopy_of_mem_copies (ho : o ∈ ops.flatMap (copyOperations table)) : IsCopy o := by
  obtain ⟨op, -, ho⟩ := mem_flatMap.mp ho
  exact isCopy_of_mem_chunkOperations ho

lemma isCrc_of_mem_crcs (ho : o ∈ ops.map (crcOperation table)) : IsCrc o := by
  obtain ⟨op, -, rfl⟩ := mem_map.mp ho
  trivial

lemma moveList_not_batch (ops : List DataFlowMoveOperation) : ∀ o ∈ moveList table ops, ¬ IsBatch o := by
  intro o ho
  rcases mem_append.mp ho with ho | ho
  · exact not_isBatch_of_isCopy (isCopy_of_mem_copies ho)
  · split at ho
    · rcases mem_cons.mp ho with rfl | ho
      · exact fun h => h
      · exact not_isBatch_of_isCrc (isCrc_of_mem_crcs ho)
    · exact absurd ho not_mem_nil

lemma crcList_not_batch (ops : List DataFlowCrcOperation) : ∀ o ∈ crcList table ops, ¬ IsBatch o := by
  intro o ho
  obtain ⟨op, -, rfl⟩ := mem_map.mp ho
  exact fun hbatch => hbatch

lemma transferOf_numbered (k : Nat) (list : List DsaOperation) :
    ((numbered ctx k list).map fun d => transferOf d.2.operation) = list.map transferOf := by
  have hoperations : ((numbered ctx k list).map fun d => d.2.operation) = list := map_operation_numbered k list
  conv_rhs => rw [← hoperations]
  rw [map_map]
  rfl

lemma operation_mem (hd : d ∈ numbered ctx k list) :
    d.2.operation ∈ list := by
  obtain ⟨-, -, -, -, hmem⟩ := mem_numbered hd
  exact hmem

lemma map_transferOf (h : DmaTable table) (hops : ∀ op ∈ ops, MoveOk table op) :
    (ops.flatMap (copyOperations table)).map transferOf = (ops.flatMap transfersOf).map (physical table) := by
  rw [map_flatMap, map_flatMap]
  apply flatMap_congr
  intro op hop
  exact ((hops op hop).transfers h).1

lemma mapped_of_mem (h : DmaTable table) (hops : ∀ op ∈ ops, MoveOk table op) {t : Transfer}
    (ht : t ∈ ops.flatMap transfersOf) : Mapped table t := by
  obtain ⟨op, hop, ht⟩ := mem_flatMap.mp ht
  exact ((hops op hop).transfers h).2 t ht

lemma physical_apart (h : DmaMemory table) (hops : ∀ op ∈ ops, MoveOk table op) (hsep : SeparateMoves ops) :
    ((ops.flatMap transfersOf).map (physical table)).Pairwise Transfer.Apart := by
  rw [pairwise_map]
  apply (transfersOf_apart (fun op hop => (hops op hop).passes) hsep).imp_of_mem
  intro t u ht hu hapart
  exact Mapped.apart h (mapped_of_mem h.toDmaTable hops ht) (mapped_of_mem h.toDmaTable hops hu) hapart

variable {order : List (Nat × DsaHwDesc)} {built : Built} {hw' : DsaHardware} {a v len : Nat}

/-- Every permitted order makes the copies, and after them the CRCs. -/
theorem moves_run (h : DmaMemory table) (hctx : CtxPreallocated table ctx) (hops : ∀ op ∈ ops, MoveOk table op)
    (hsep : SeparateMoves ops) (hbound : k + (moveList table ops).length ≤ kMaxInternalBatchSize)
    (horder : Permitted (numbered ctx k (moveList table ops)) order) (hw : DsaHardware) :
    ∃ hw', hw.execAll order = some hw' ∧ RunOutcome (numbered ctx k (moveList table ops))
      ((ops.flatMap transfersOf).map (physical table)) hw hw' := by
  have hrecords := nodup_completionAddr h hctx hbound
  have hcopies : ∀ d ∈ numbered ctx k (ops.flatMap (copyOperations table)), IsCopy d.2.operation := by
    intro d hd
    exact isCopy_of_mem_copies (operation_mem hd)
  have hself : ∀ d ∈ numbered ctx k (ops.flatMap (copyOperations table)), SelfDisjoint d.2.operation := by
    intro d hd
    obtain ⟨op, hop, ho⟩ := mem_flatMap.mp (operation_mem hd)
    exact (hops op hop).selfDisjoint h ho
  have htransfers : ((numbered ctx k (ops.flatMap (copyOperations table))).map fun d => transferOf d.2.operation) =
      (ops.flatMap transfersOf).map (physical table) :=
    (transferOf_numbered k _).trans (map_transferOf h.toDmaTable hops)
  have hapart := physical_apart h hops hsep
  rw [← htransfers] at hapart ⊢
  unfold moveList at hrecords horder hbound ⊢
  by_cases hcount : ops.countP needsCrc ≠ 0
  · rw [if_pos hcount, numbered_append, numbered_cons] at hrecords horder ⊢
    rw [if_pos hcount, length_append, length_cons] at hbound
    obtain ⟨hdescs, -⟩ := hctx.arrays h.toDmaTable
    obtain ⟨first, second, rfl, hfirst, hsecond⟩ := permitted_split rfl
      (by
        intro d hd
        obtain ⟨j, -, hj, haddr, -⟩ := mem_numbered hd
        rw [haddr]
        exact hdescs.mono _ _ hj (by omega))
      (by
        intro d hd
        obtain ⟨j, hlo, hhi, haddr, -⟩ := mem_numbered hd
        rw [haddr]
        exact (hdescs.mono _ _ hlo (by omega)).le)
      horder
    apply runOutcome_phases hfirst hsecond hcopies _ hself hapart hrecords
    intro d hd
    rcases mem_cons.mp hd with rfl | hd
    · exact .inr rfl
    · exact .inl (isCrc_of_mem_crcs (operation_mem hd))
  · rw [if_neg hcount, append_nil] at hrecords horder ⊢
    have hnone : ∀ d ∈ ([] : List (Nat × DsaHwDesc)), IsCrc d.2.operation ∨ d.2.operation = .fence :=
      fun _ hd => absurd hd not_mem_nil
    have hrun := runOutcome_phases horder.1 (Perm.refl []) hcopies hnone hself hapart
      (by rw [append_nil]; exact hrecords) hw
    rw [append_nil, append_nil] at hrun
    exact hrun

theorem crcs_run (h : DmaMemory table) (hctx : CtxPreallocated table ctx) (ops : List DataFlowCrcOperation)
    (hbound : k + (crcList table ops).length ≤ kMaxInternalBatchSize)
    (horder : Permitted (numbered ctx k (crcList table ops)) order) (hw : DsaHardware) :
    ∃ hw', hw.execAll order = some hw' ∧ RunOutcome (numbered ctx k (crcList table ops)) [] hw hw' := by
  have hcrcs : ∀ d ∈ numbered ctx k (crcList table ops), IsCrc d.2.operation ∨ d.2.operation = .fence := by
    intro d hd
    obtain ⟨op, -, hop⟩ := mem_map.mp (operation_mem hd)
    rw [← hop]
    exact .inl trivial
  exact runOutcome_phases (Perm.refl []) horder.1 (fun _ hd => absurd hd not_mem_nil) hcrcs
    (fun _ hd => absurd hd not_mem_nil) .nil (nodup_completionAddr h hctx hbound) hw

lemma dsaCrc_eq (seed : BitVec 64) (bytes : List UInt8) :
    (~~~ DsaHardware.crc (vesalCrcRevise seed) bytes).setWidth 64 = registerCrc seed bytes := by
  unfold DsaHardware.crc vesalCrcRevise registerCrc
  rw [BitVec.not_not]
  congr 2
  rw [BitVec.setWidth_not (by norm_num), BitVec.not_not]

lemma CtxPreallocated.chunk_ne_zero (hctx : CtxPreallocated table ctx) : ctx.completionRecordMemoryChunk ≠ 0 := by
  intro hzero
  have hbuilt := hctx.built
  unfold preallocateCtx at hbuilt
  rw [if_pos (.inr hzero)] at hbuilt
  cases hbuilt

section

variable (h : DmaTable table)
include h

lemma record_of_resultAt (hctx : CtxPreallocated table ctx) (hbuilt : BuiltFrom ctx list built)
    (hbound : (framed ctx list).length ≤ kMaxInternalBatchSize) (hbatch : ∀ o ∈ list, ¬ IsBatch o)
    (hresult : ResultAt ctx (fillOf built) i o) (hnot : ¬ IsBatch o) :
    built.crcResults i ≠ 0 ∧ ∃ d ∈ fetched table built.descs, d.2.operation = o ∧
      lookUpAddr table (built.crcResults i) = d.2.completionAddr := by
  obtain ⟨k, hresult, hdesc⟩ := hresult.exists_element
  change built.crcResults i = _ at hresult
  change built.descs[k]? = _ at hdesc
  obtain ⟨-, hrecords⟩ := hctx.arrays h
  have hk : k < kMaxInternalBatchSize := by
    have hlt := (List.getElem?_eq_some_iff.mp hdesc).1
    rw [hbuilt.descs, length_numbered] at hlt
    omega
  have hmem := mem_of_getElem? hdesc
  rw [hbuilt.descs] at hmem ⊢
  refine ⟨?_, _, mem_fetched h hctx hbatch hbound hmem hnot, rfl, ?_⟩
  · have hinside := (hrecords.inside k hk).1
    have hne := hctx.chunk_ne_zero
    omega
  · rw [hresult]
    exact (hrecords.translated k hk).symm

def crcEntry (table : AddressMap) (crcResults : Nat → Nat) (hw : DsaHardware) (i : Nat) : BitVec 64 :=
  if crcResults i = 0 then 0 else (~~~ hw.crcVal (lookUpAddr table (crcResults i))).setWidth 64

lemma crcEntry_of_resultAt (hctx : CtxPreallocated table ctx) (hbuilt : BuiltFrom ctx list built)
    (hbound : (framed ctx list).length ≤ kMaxInternalBatchSize) (hbatch : ∀ o ∈ list, ¬ IsBatch o)
    (hresult : ResultAt ctx (fillOf built) i o) (hnot : ¬ IsBatch o) {seed : BitVec 64} {bytes : List UInt8}
    (hcrc : ∀ d ∈ fetched table built.descs, d.2.operation = o →
      hw'.crcVal d.2.completionAddr = DsaHardware.crc (vesalCrcRevise seed) bytes) :
    crcEntry table built.crcResults hw' i = registerCrc seed bytes := by
  obtain ⟨hne, d, hd, hoperation, haddr⟩ := record_of_resultAt h hctx hbuilt hbound hbatch hresult hnot
  unfold crcEntry
  rw [if_neg hne, haddr, hcrc d hd hoperation, dsaCrc_eq]

lemma views_of_hostView {phys : Memory} (hhost : ∀ a < 2 ^ 64, hostView table host phys a = host a) :
    Views table host phys := by
  intro c hc v hv
  rw [← hhost v (hv.2.trans (h.ends c hc)), hostView_of_hasAddr h hc hv]

lemma hostView_transferred {ts : List Transfer} {host' phys' : Memory} (hmapped : ∀ t ∈ ts, Mapped table t)
    (hhost : Transferred ts host host') (hviews : Views table host' phys') (ha : a < 2 ^ 64) :
    hostView table host phys' a = host' a := by
  by_cases hnone : ∀ c ∈ pagesOf table, ¬ HasAddr c a
  · rw [hostView_of_unmapped h ha hnone, hhost.outside]
    intro t ht
    obtain ⟨c, hc, hlo, hhi⟩ := (hmapped t ht).dst
    by_contra hin
    push Not at hin
    exact hnone c hc ⟨by omega, by omega⟩
  · push Not at hnone
    obtain ⟨c, hc, haddr⟩ := hnone
    rw [hostView_of_hasAddr h hc haddr, hviews c hc a haddr]

end

lemma read_dst (hops : ∀ op ∈ ops, PassesMove op) (hsep : SeparateMoves ops) (hop : ops[i]? = some op)
    (mem : Memory) :
    readBytes (performMove ((ops.take i).foldl performMove mem) op) op.dst (movedLength op) =
      readBytes (ops.foldl performMove mem) op.dst (movedLength op) := by
  obtain ⟨hi, rfl⟩ := List.getElem?_eq_some_iff.mp hop
  have hsplit : ops = ops.take i ++ ops[i] :: ops.drop (i + 1) := by
    rw [← drop_eq_getElem_cons hi, take_append_drop]
  have hfold : ops.foldl performMove mem =
      (ops.drop (i + 1)).foldl performMove (performMove ((ops.take i).foldl performMove mem) ops[i]) := by
    conv_lhs => rw [hsplit]
    rw [foldl_append, foldl_cons]
  have hdrop : SeparateMoves (ops.drop (i + 1)) :=
    ⟨hsep.distinct.sublist (drop_sublist _ _), fun o ho => hsep.own o (mem_of_mem_drop ho)⟩
  have hrest := transferred_transferAll
    (transfersOf_apart (fun o ho => hops o (mem_of_mem_drop ho)) hdrop)
    (performMove ((ops.take i).foldl performMove mem) ops[i])
  rw [hfold, foldl_performMove (ops.drop (i + 1))]
  symm
  apply hrest.read_outside
  intro t ht
  obtain ⟨o, ho, ht⟩ := List.mem_flatMap.mp ht
  have hdistinct := hsep.distinct
  rw [hsplit, pairwise_append] at hdistinct
  have happart := ((List.pairwise_cons.mp hdistinct.2.1).1 o ho).1
  exact happart.symm.mono (transfersOf_target ht).2

def Separate : DataFlowOperations → Prop
  | .move ops => SeparateMoves ops
  | .crc _ => True

lemma firstElement_add (list : List DsaOperation) :
    firstElement list + list.length = (framed ctx list).length := by
  unfold firstElement framed
  split
  · exact Nat.zero_add _
  · rw [length_cons, Nat.add_comm]

lemma enableCrc_of_needsCrc (h : needsCrc op = true) : op.enableCrc = true := by
  exact (Bool.and_eq_true_iff.mp h).1

lemma enableCrc_of_fusesCrc (h : fusesCrc op = true) : op.enableCrc = true := by
  exact (Bool.and_eq_true_iff.mp h).1

lemma enableCrc_eq_false (hneeds : ¬ needsCrc op = true) (hfuses : ¬ fusesCrc op = true) :
    op.enableCrc = false := by
  unfold needsCrc at hneeds
  unfold fusesCrc at hfuses
  cases henable : op.enableCrc with
  | false => rfl
  | true => simp_all

section Outcome

variable {built : Built} {hw hw' : DsaHardware} {host : Memory}

variable {i : Nat}

lemma crcEntry_move (h : DmaMemory table) (hctx : CtxPreallocated table ctx) {ops : List DataFlowMoveOperation}
    (hops : ∀ op ∈ ops, MoveOk table op) (hsep : SeparateMoves ops)
    (hbuilt : BuiltFrom ctx (moveList table ops) built)
    (hbound : (framed ctx (moveList table ops)).length ≤ kMaxInternalBatchSize) (hviews : Views table host hw.mem)
    (hviews' : Views table (ops.foldl performMove host) hw'.mem)
    (hrun : RunOutcome (fetched table built.descs) ((ops.flatMap transfersOf).map (physical table)) hw hw')
    {op : DataFlowMoveOperation} (hop : ops[i]? = some op) (hresult : MoveResult table ctx (fillOf built) i op) :
    crcEntry table built.crcResults hw' i = operationCrc host (.move ops) i := by
  have hmem := mem_of_getElem? hop
  have hmove := hops op hmem
  have hpage := hmove.dst_inPage h.toDmaTable
  have hpasses : ∀ op ∈ ops, PassesMove op := fun op hop => (hops op hop).passes
  unfold operationCrc
  dsimp only
  rw [hop]
  dsimp only
  unfold moveCrc
  rw [read_dst hpasses hsep hop]
  unfold MoveResult copyResult at hresult
  by_cases hneeds : needsCrc op = true
  · rw [if_pos hneeds] at hresult
    rw [if_pos (enableCrc_of_needsCrc hneeds)]
    apply crcEntry_of_resultAt h.toDmaTable hctx hbuilt hbound (moveList_not_batch ops) hresult (fun hbatch => hbatch)
    intro d hd hoperation
    apply hrun.crcgen d hd
    · rw [hoperation]
      trivial
    · rw [hoperation]
      unfold crcOperation crcOfOperation
      dsimp only
      rw [lengthSum_eq hmove.dst, hpage.len_mod h.toDmaTable, hviews'.read h hpage]
  · rw [if_neg hneeds] at hresult
    by_cases hfuses : fusesCrc op = true
    · rw [if_pos hfuses] at hresult
      rw [if_pos (enableCrc_of_fusesCrc hfuses)]
      obtain ⟨src, len, hzip, hlen, hmapped, -, hcopies⟩ := hmove.fused h.toDmaTable hfuses
      have hthis := hresult src len hzip
      have hoperation : DsaOperation.copyCrc (lookUpAddrIfNotAcrossBound table src len)
          ((lookUpAddr table op.dst + 0) % 2 ^ 64) (len % 2 ^ 32) (vesalCrcRevise op.seed) =
          .copyCrc (lookUpAddr table src) (lookUpAddr table op.dst) len (vesalCrcRevise op.seed) := by
        unfold copyOperations at hcopies
        rw [hzip] at hcopies
        unfold chunkOperations copyOperation at hcopies
        rw [if_pos hfuses] at hcopies
        exact (List.cons.inj hcopies).1
      rw [hoperation] at hthis
      -- what is at the destination was at the source before the batch
      have hread : readBytes (ops.foldl performMove host) op.dst (movedLength op) = readBytes host src len := by
        have htransferred := transferred_transferAll (transfersOf_apart hpasses hsep) host
        rw [foldl_performMove, hlen]
        apply htransferred.read_target (t := ⟨src, op.dst, len⟩)
        apply mem_flatMap.mpr
        refine ⟨op, hmem, ?_⟩
        unfold transfersOf
        rw [hzip]
        exact mem_singleton_self _
      rw [hread]
      apply crcEntry_of_resultAt h.toDmaTable hctx hbuilt hbound (moveList_not_batch ops) hthis (fun hbatch => hbatch)
      intro d hd hoperation'
      apply hrun.copyCrc d hd
      · rw [hoperation']
        trivial
      · rw [hoperation']
        unfold crcOfOperation
        dsimp only
        rw [hviews.read h hmapped.src]
    · rw [if_neg hfuses] at hresult
      have hzero : built.crcResults i = 0 := hresult (zip_ne_nil hmove.passes)
      rw [enableCrc_eq_false hneeds hfuses, if_neg Bool.false_ne_true]
      unfold crcEntry
      rw [if_pos hzero]

lemma crcEntry_crc (h : DmaMemory table) (hctx : CtxPreallocated table ctx) {ops : List DataFlowCrcOperation}
    (hwrap : NoWrap (.crc ops)) (hlookups : ∀ op ∈ ops, lookUpAddrIfNotAcrossBound table op.src op.len ≠ 0)
    (hbuilt : BuiltFrom ctx (crcList table ops) built)
    (hbound : (framed ctx (crcList table ops)).length ≤ kMaxInternalBatchSize) (hviews' : Views table host hw'.mem)
    (hrun : RunOutcome (fetched table built.descs) [] hw hw') {op : DataFlowCrcOperation} (hop : ops[i]? = some op)
    (hresult : ResultAt ctx (fillOf built) i (crcRequestOperation table op)) :
    crcEntry table built.crcResults hw' i = operationCrc host (.crc ops) i := by
  have hmem := mem_of_getElem? hop
  have hrange := rangeOk_lookUp h.toDmaTable (hwrap op hmem) (hlookups op hmem)
  unfold operationCrc
  dsimp only
  rw [hop]
  dsimp only
  apply crcEntry_of_resultAt h.toDmaTable hctx hbuilt hbound (crcList_not_batch ops) hresult (fun hbatch => hbatch)
  intro d hd hoperation
  apply hrun.crcgen d hd
  · rw [hoperation]
    trivial
  · rw [hoperation]
    unfold crcRequestOperation crcOfOperation
    dsimp only
    have haddr : lookUpAddrIfNotAcrossBound table op.src op.len = lookUpAddr table op.src := hrange.addr
    rw [hrange.page.len_mod h.toDmaTable, haddr, hviews'.read h hrange.page]

end Outcome

lemma dsaCrcOutput_eq {ops : DataFlowOperations} {crcResults : Nat → Nat}
    (hentries : ∀ i < ops.num, crcEntry table crcResults hw' i = operationCrc host ops i) :
    dsaCrcOutput table ops.num crcResults hw' = operationCrcs host ops := by
  unfold dsaCrcOutput operationCrcs
  apply map_congr_left
  intro i hi
  exact hentries i (mem_range.mp hi)

structure SameOutcome (table : AddressMap) (ops : DataFlowOperations) (crcResults : Nat → Nat) (host : Memory)
    (hw' : DsaHardware) (mem' : Memory) : Prop where
  mem : ∀ a < 2 ^ 64, hostView table host hw'.mem a = mem' a
  crcOutput : dsaCrcOutput table ops.num crcResults hw' = operationCrcs host ops

section Refinement

variable {crcs : Nat → Nat} {built : Built} {host : Memory} {hw : DsaHardware} {order : List (Nat × DsaHwDesc)}

theorem moves_refine (h : DmaMemory table) (hctx : CtxPreallocated table ctx) {ops : List DataFlowMoveOperation}
    (hpasses : PassesChecks (.move ops)) (hne : ops ≠ []) (hwords : Words (.move ops)) (hwrap : NoWrap (.move ops))
    (hsep : SeparateMoves ops) (hbuilt : buildMoveCtx table ctx crcs ops = .ok built)
    (hhost : ∀ a < 2 ^ 64, hostView table host hw.mem a = host a)
    (horder : Permitted (fetched table built.descs) order) :
    ∃ hw', hw.execAll order = some hw' ∧
      SameOutcome table (.move ops) built.crcResults host hw' (ops.foldl performMove host) := by
  obtain ⟨hlist, htranslates, hresults⟩ := buildMoveCtx_ok h.isTable hpasses.2.1 hne hwords hbuilt
  have hbound := (requestBuilt_of_ok h.toDmaTable hpasses (length_pos_iff.mpr hne) hwords hbuilt).bound
  have hops : ∀ op ∈ ops, MoveOk table op := fun op hop =>
    ⟨hpasses.2.1 op hop, htranslates op hop, (hwrap op hop).1, (hwrap op hop).2⟩
  have hfetched : fetched table (numbered ctx 0 (framed ctx (moveList table ops))) = _ :=
    fetched_numbered h.toDmaTable hctx (moveList_not_batch ops) hbound
  rw [← hlist.descs] at hfetched
  have hlength : firstElement (moveList table ops) + (moveList table ops).length ≤ kMaxInternalBatchSize :=
    (firstElement_add _).trans_le hbound
  rw [hfetched] at horder
  obtain ⟨hw', hexec, hrun⟩ := moves_run h hctx hops hsep hlength horder hw
  rw [← hfetched] at hrun
  have hviews := views_of_hostView h.toDmaTable hhost
  have hmapped : ∀ t ∈ ops.flatMap transfersOf, Mapped table t := fun t ht => mapped_of_mem h.toDmaTable hops ht
  have htransferred := transferred_transferAll (transfersOf_apart hpasses.2.1 hsep) host
  rw [← foldl_performMove] at htransferred
  have hviews' := views_transferred h hmapped hviews htransferred hrun.mem
  refine ⟨hw', hexec, fun a ha => hostView_transferred h.toDmaTable hmapped htransferred hviews' ha, ?_⟩
  apply dsaCrcOutput_eq
  intro i hi
  have hop : ops[i]? = some (ops.get ⟨i, hi⟩) := getElem?_eq_getElem hi
  exact crcEntry_move h hctx hops hsep hlist hbound hviews hviews' hrun hop (hresults i _ hop)

theorem crcs_refine (h : DmaMemory table) (hctx : CtxPreallocated table ctx) {ops : List DataFlowCrcOperation}
    (hpasses : PassesChecks (.crc ops)) (hwrap : NoWrap (.crc ops))
    (hbuilt : buildCrcCtx table ctx crcs ops = .ok built)
    (hhost : ∀ a < 2 ^ 64, hostView table host hw.mem a = host a)
    (horder : Permitted (fetched table built.descs) order) :
    ∃ hw', hw.execAll order = some hw' ∧ SameOutcome table (.crc ops) built.crcResults host hw' host := by
  obtain ⟨hlist, hlookups, hresults⟩ := buildCrcCtx_ok hbuilt
  have hbound : (framed ctx (crcList table ops)).length ≤ kMaxInternalBatchSize := by
    have hmax : kMaxSubmittedBatchSize + 1 ≤ kMaxInternalBatchSize := by norm_num
    have hlen : (crcList table ops).length = ops.length := length_map _
    have hle : (framed ctx (crcList table ops)).length ≤ _ := length_framed_le _
    have hnum := hpasses.1
    omega
  have hfetched : fetched table (numbered ctx 0 (framed ctx (crcList table ops))) = _ :=
    fetched_numbered h.toDmaTable hctx (crcList_not_batch ops) hbound
  rw [← hlist.descs] at hfetched
  have hlength : firstElement (crcList table ops) + (crcList table ops).length ≤ kMaxInternalBatchSize :=
    (firstElement_add _).trans_le hbound
  rw [hfetched] at horder
  obtain ⟨hw', hexec, hrun⟩ := crcs_run h hctx ops hlength horder hw
  rw [← hfetched] at hrun
  have hnone : ∀ t ∈ ([] : List Transfer), Mapped table t := fun _ ht => absurd ht not_mem_nil
  have hviews' := views_transferred h hnone (views_of_hostView h.toDmaTable hhost) (.nil host) hrun.mem
  refine ⟨hw', hexec, fun a ha => hostView_transferred h.toDmaTable hnone (.nil host) hviews' ha, ?_⟩
  apply dsaCrcOutput_eq
  intro i hi
  have hop : ops[i]? = some (ops.get ⟨i, hi⟩) := getElem?_eq_getElem hi
  exact crcEntry_crc h hctx hwrap hlookups hlist hbound hviews' hrun hop (hresults i _ hop)

end Refinement

/-- The descriptors of a request, run by the device in any order that it may choose, leave the
memory and `crc_output` of the software engine. -/
theorem dsa_refines_software (h : DmaMemory table) (hctx : CtxPreallocated table ctx) (ops : DataFlowOperations)
    (hpasses : PassesChecks ops) (hne : ops ≠ .move []) (hwords : Words ops)
    (hdma : ∀ r ∈ requestRanges ops, PagesCover table r.1 r.2) (hsep : Separate ops) (crcs : Nat → Nat)
    (built : Built) (hbuilt : buildCtx table ctx crcs ops = .ok built) (host : Memory) (hw : DsaHardware)
    (hhost : ∀ a < 2 ^ 64, hostView table host hw.mem a = host a) (order : List (Nat × DsaHwDesc))
    (horder : DsaHardware.Permitted (DsaHardware.fetched table built.descs) order) (swCtx : Nat → Nat → BitVec 64)
    (obj userCtx : Nat) (result : DataFlowResult) (hempty : result.crcOutput = []) :
    ∃ hw', hw.execAll order = some hw' ∧
      let req := DataFlowRequest.build ops.num userCtx
      let sw := (SwEngine.submit ⟨host, swCtx⟩ obj req ops).2
      (∀ a < 2 ^ 64, hostView table host hw'.mem a = sw.mem a) ∧
        dsaCrcOutput table ops.num built.crcResults hw' = (SwEngine.checkCompletion sw obj req result).2.1.crcOutput := by
  have hwrap := noWrap_of_cover h.toDmaTable hpasses hdma
  have hsame : ∃ hw', hw.execAll order = some hw' ∧ SameOutcome table ops built.crcResults host hw'
      (SwEngine.submit ⟨host, swCtx⟩ obj (.build ops.num userCtx) ops).2.mem := by
    cases ops with
    | move ops =>
      have hmem : (SwEngine.submit ⟨host, swCtx⟩ obj (.build ops.length userCtx) (.move ops)).2.mem =
          ops.foldl performMove host := submitMoves_mem ops 0 (swCtx obj) host
      have hne' : ops ≠ [] := fun hnil => hne (congrArg _ hnil)
      have := moves_refine h hctx hpasses hne' hwords hwrap hsep hbuilt hhost horder
      rw [← hmem] at this
      exact this
    | crc ops => exact crcs_refine h hctx hpasses hwrap hbuilt hhost horder
  obtain ⟨hw', hexec, hmem, hcrcs⟩ := hsame
  refine ⟨hw', hexec, hmem, ?_⟩
  rw [hcrcs, ← swCtx_submit ⟨host, swCtx⟩ obj (.build ops.num userCtx) ops]
  unfold SwEngine.checkCompletion
  dsimp only
  rw [hempty, List.nil_append]
  rfl

lemma dmaMemory_deviceTable : DmaMemory deviceTable where
  toDmaTable := dmaTable_deviceTable
  fits := by
    intro c hc
    rw [mem_pagesOf_deviceTable hc]
    decide
  framesApart := by
    intro c hc c' hc' hne
    rw [mem_pagesOf_deviceTable hc, mem_pagesOf_deviceTable hc'] at hne
    exact absurd rfl hne

def deviceMem (host : Memory) : Memory := fun p => host (p + 2097152 - 1073741824)

lemma hostView_deviceMem (host : Memory) (ha : a < 2 ^ 64) :
    hostView deviceTable host (deviceMem host) a = host a := by
  by_cases haddr : HasAddr devicePage a
  · rw [hostView_of_hasAddr dmaTable_deviceTable devicePage_mem haddr,
      dmaMemory_deviceTable.lookUpAddr_page devicePage_mem haddr]
    have hlo : 2097152 ≤ a := haddr.1
    have hback : 1073741824 + (a - 2097152) + 2097152 - 1073741824 = a := by omega
    exact congrArg host hback
  · apply hostView_of_unmapped dmaTable_deviceTable ha
    intro c hc
    rw [mem_pagesOf_deviceTable hc]
    exact haddr

lemma covers_devicePage (hlo : 2097152 ≤ v) (hhi : v + len ≤ 4194304) : PagesCover deviceTable v len :=
  InPage.covers ⟨devicePage, devicePage_mem, hlo, hhi⟩

def deviceOrder : List (Nat × DsaHwDesc) :=
  [(2097344, ⟨.copyCrc 1074794496 1074798592 5 (BitVec.ofNat 32 4294967295), 1073807744⟩),
    (2097280, ⟨.memmove 1074790400 1074790408 16, 1073807712⟩),
    (2097408, ⟨.fence, 1073807776⟩),
    (2097472, ⟨.crcgen 1074790408 16 (BitVec.ofNat 32 4294967288), 1073807808⟩)]

theorem dsa_refines_software_two_moves :
    ∃ built hw', buildCtx deviceTable deviceCtx (fun _ => 0) deviceMoves = .ok built ∧
      DsaHardware.execAll ⟨deviceMem fun a => ofNat a, fun _ => 0⟩ deviceOrder = some hw' ∧
      let sw := (SwEngine.submit ⟨fun a => ofNat a, fun _ _ => 0⟩ 0 (.build 2 0) deviceMoves).2
      (∀ a < 2 ^ 64, hostView deviceTable (fun a => ofNat a) hw'.mem a = sw.mem a) ∧
        dsaCrcOutput deviceTable 2 built.crcResults hw' =
          (SwEngine.checkCompletion sw 0 (.build 2 0) ⟨.kOk, [], 0⟩).2.1.crcOutput := by
  have hdma : ∀ r ∈ requestRanges deviceMoves, PagesCover deviceTable r.1 r.2 := by
    intro r hr
    have hrange : ∀ r ∈ requestRanges deviceMoves, 2097152 ≤ r.1 ∧ r.1 + r.2 ≤ 4194304 := by decide
    exact covers_devicePage (hrange r hr).1 (hrange r hr).2
  have hsep : Separate deviceMoves := ⟨by decide, by decide⟩
  have hok : (buildCtx deviceTable deviceCtx (fun _ => 0) deviceMoves).map Built.descs =
      .ok ((2097216, ⟨.batch 4 1073741952, 1073807680⟩) :: [(2097280, ⟨.memmove 1074790400 1074790408 16, 1073807712⟩),
        (2097344, ⟨.copyCrc 1074794496 1074798592 5 (BitVec.ofNat 32 4294967295), 1073807744⟩),
        (2097408, ⟨.fence, 1073807776⟩),
        (2097472, ⟨.crcgen 1074790408 16 (BitVec.ofNat 32 4294967288), 1073807808⟩)]) := by decide +kernel
  obtain ⟨built, hbuilt, hdescs⟩ := exists_built Built.descs deviceMoves hok
  have horder : DsaHardware.Permitted (DsaHardware.fetched deviceTable built.descs) deviceOrder := by
    rw [hdescs]
    unfold DsaHardware.Permitted
    decide +kernel
  obtain ⟨hw', hrun, hsame⟩ := dsa_refines_software dmaMemory_deviceTable ctxPreallocated_deviceCtx deviceMoves
    (by decide) (by decide) words_deviceMoves hdma hsep _ built hbuilt (fun a => ofNat a)
    ⟨deviceMem fun a => ofNat a, fun _ => 0⟩ (fun _ ha => hostView_deviceMem _ ha) deviceOrder horder
    (fun _ _ => 0) 0 0 ⟨.kOk, [], 0⟩ rfl
  exact ⟨built, hw', hbuilt, hrun, hsame⟩

end Vesal.Proofs
