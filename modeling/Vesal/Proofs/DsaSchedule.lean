import Vesal.Library.Transfers
import Vesal.Proofs.DsaLayout

/-! # The device and the software engine -/

namespace Vesal.Proofs

open Library DsaCtxFactory AddressManager List Function

variable {table : AddressMap}

structure DmaMemory (table : AddressMap) : Prop extends DmaTable table where
  fits : ∀ c ∈ pagesOf table, c.physAddr + c.getChunkSize ≤ 2 ^ 64
  framesApart : ∀ c ∈ pagesOf table, ∀ c' ∈ pagesOf table, c ≠ c' →
    c.physAddr + c.getChunkSize ≤ c'.physAddr ∨ c'.physAddr + c'.getChunkSize ≤ c.physAddr

variable {v : Nat} {host phys : Memory} {t : Transfer} {ds : List (Nat × DsaHwDesc)}

variable {c : PhysChunk} {len offset : Nat} {d : Nat × DsaHwDesc} {segments : List (Nat × Nat)}

lemma DmaMemory.lookUpAddr_page (h : DmaMemory table) (hc : c ∈ pagesOf table) (hv : HasAddr c v) :
    lookUpAddr table v = c.physAddr + (v - c.startAddr) := by
  have hlt : v < 2 ^ 64 := hv.2.trans (h.ends c hc)
  have hfits := h.fits c hc
  have hstart := hv.1
  have hend := hv.2
  unfold pageEnd at hend
  rw [lookUpAddr_eq h.isTable hlt hc hv, physAddrAt_eq hv hlt]
  apply Nat.mod_eq_of_lt
  omega

lemma DmaMemory.lookUpAddr_add (h : DmaMemory table) {k : Nat} (hpage : InPage table v len) (hk : k < len) :
    lookUpAddr table (v + k) = lookUpAddr table v + k := by
  obtain ⟨c, hc, hlo, hhi⟩ := hpage
  rw [h.lookUpAddr_page hc ⟨hlo, by omega⟩, h.lookUpAddr_page hc ⟨by omega, by omega⟩]
  omega

variable {v' dst : Nat} {o : DsaOperation} {copies crcs : List (Nat × DsaHwDesc)} {op : DataFlowMoveOperation}

lemma DmaMemory.lookUpAddr_inj (h : DmaMemory table) {c' : PhysChunk} (hc : c ∈ pagesOf table)
    (hc' : c' ∈ pagesOf table) (hv : HasAddr c v) (hv' : HasAddr c' v')
    (heq : lookUpAddr table v = lookUpAddr table v') : v = v' := by
  rw [h.lookUpAddr_page hc hv, h.lookUpAddr_page hc' hv'] at heq
  obtain ⟨hlo, hhi⟩ := hv
  obtain ⟨hlo', hhi'⟩ := hv'
  unfold pageEnd at hhi hhi'
  by_cases hsame : c = c'
  · subst hsame
    omega
  · rcases h.framesApart c hc c' hc' hsame with happart | happart <;> omega

lemma DmaMemory.disjoint (h : DmaMemory table) {len' : Nat} (hv : InPage table v len) (hv' : InPage table v' len')
    (hpos : 0 < len) (hpos' : 0 < len') (hdisjoint : Extent.Disjoint ⟨v, len⟩ ⟨v', len'⟩) :
    Extent.Disjoint ⟨lookUpAddr table v, len⟩ ⟨lookUpAddr table v', len'⟩ := by
  obtain ⟨c, hc, hlo, hhi⟩ := hv
  obtain ⟨c', hc', hlo', hhi'⟩ := hv'
  rw [h.lookUpAddr_page hc ⟨hlo, by omega⟩, h.lookUpAddr_page hc' ⟨hlo', by omega⟩]
  unfold Extent.Disjoint at *
  dsimp only at *
  unfold pageEnd at hhi hhi'
  by_cases hsame : c = c'
  · subst hsame
    omega
  · rcases h.framesApart c hc c' hc' hsame with happart | happart <;> omega

def Views (table : AddressMap) (host phys : Memory) : Prop :=
  ∀ c ∈ pagesOf table, ∀ v, HasAddr c v → host v = phys (lookUpAddr table v)

lemma Views.read (h : DmaMemory table) (hviews : Views table host phys) (hpage : InPage table v len) :
    readBytes phys (lookUpAddr table v) len = readBytes host v len := by
  apply map_congr_left
  intro k hk
  rw [mem_range] at hk
  obtain ⟨c, hc, hlo, hhi⟩ := hpage
  rw [hviews c hc (v + k) ⟨by omega, by omega⟩, h.lookUpAddr_add ⟨c, hc, hlo, hhi⟩ hk]

lemma hostView_of_hasAddr (h : DmaTable table) (hc : c ∈ pagesOf table) (hv : HasAddr c v) :
    hostView table host phys v = phys (lookUpAddr table v) := by
  have hlt : v < 2 ^ 64 := hv.2.trans (h.ends c hc)
  have horder : defaultOrder.Perm pageTypes := by decide
  unfold hostView
  rw [h.isTable.tableLookUp_complete hlt hc hv (mem_of_perm_pageTypes horder h.isTable hc),
    lookUpAddr_eq h.isTable hlt hc hv]

lemma hostView_of_unmapped (h : DmaTable table) (hv : v < 2 ^ 64) (hnone : ∀ c ∈ pagesOf table, ¬ HasAddr c v) :
    hostView table host phys v = host v := by
  unfold hostView
  rw [h.isTable.tableLookUp_eq_none hv fun c hc haddr => absurd haddr (hnone c hc)]

def physical (table : AddressMap) (t : Transfer) : Transfer := ⟨lookUpAddr table t.src, lookUpAddr table t.dst, t.len⟩

structure Mapped (table : AddressMap) (t : Transfer) : Prop where
  src : InPage table t.src t.len
  dst : InPage table t.dst t.len
  pos : 0 < t.len

lemma Mapped.apart (h : DmaMemory table) {u : Transfer} (ht : Mapped table t) (hu : Mapped table u)
    (hapart : t.Apart u) : (physical table t).Apart (physical table u) where
  targets := h.disjoint ht.dst hu.dst ht.pos hu.pos hapart.targets
  source_right := h.disjoint ht.dst hu.src ht.pos hu.pos hapart.source_right
  source_left := h.disjoint hu.dst ht.src hu.pos ht.pos hapart.source_left

lemma views_transferred (h : DmaMemory table) {ts : List Transfer} {host' phys' : Memory}
    (hmapped : ∀ t ∈ ts, Mapped table t) (hviews : Views table host phys) (hhost : Transferred ts host host')
    (hphys : Transferred (ts.map (physical table)) phys phys') : Views table host' phys' := by
  intro c hc v hv
  by_cases hout : ∀ t ∈ ts, v < t.dst ∨ t.dst + t.len ≤ v
  · rw [hhost.outside v hout, hviews c hc v hv, hphys.outside]
    intro u hu
    obtain ⟨t, ht, rfl⟩ := mem_map.mp hu
    by_contra hin
    push Not at hin
    obtain ⟨k, hk⟩ := Nat.exists_eq_add_of_le hin.1
    change lookUpAddr table v = lookUpAddr table t.dst + k at hk
    have hklt : k < t.len := by
      have := hin.2
      change lookUpAddr table v < lookUpAddr table t.dst + t.len at this
      omega
    obtain ⟨c', hc', hlo, hhi⟩ := (hmapped t ht).dst
    rw [← h.lookUpAddr_add (hmapped t ht).dst hklt] at hk
    have heq := h.lookUpAddr_inj hc hc' hv ⟨by omega, by omega⟩ hk
    have := hout t ht
    omega
  · push Not at hout
    obtain ⟨t, ht, hlo, hhi⟩ := hout
    obtain ⟨k, rfl⟩ := Nat.exists_eq_add_of_le hlo
    have hk : k < t.len := by omega
    obtain ⟨c', hc', hlo', hhi'⟩ := (hmapped t ht).src
    have htarget := hphys.target (physical table t) (mem_map_of_mem ht) k hk
    rw [hhost.target t ht k hk, hviews c' hc' (t.src + k) ⟨by omega, by omega⟩,
      h.lookUpAddr_add (hmapped t ht).src hk, h.lookUpAddr_add (hmapped t ht).dst hk]
    exact htarget.symm

def transferOf : DsaOperation → Transfer
  | .memmove src dst size => ⟨src, dst, size⟩
  | .copyCrc src dst size _ => ⟨src, dst, size⟩
  | _ => ⟨0, 0, 0⟩

def crcOfOperation (mem : Memory) : DsaOperation → Option (BitVec 32)
  | .copyCrc src _ size seed => some (DsaHardware.crc seed (readBytes mem src size))
  | .crcgen src size seed => some (DsaHardware.crc seed (readBytes mem src size))
  | _ => none

def SelfDisjoint : DsaOperation → Prop
  | .copyCrc src dst size _ => Extent.Disjoint ⟨src, size⟩ ⟨dst, size⟩
  | _ => True

structure RecordsOf (ds : List (Nat × DsaHwDesc)) (mem : Memory) (before after : Nat → BitVec 32) : Prop where
  written : ∀ d ∈ ds, ∀ crc, crcOfOperation mem d.2.operation = some crc → after d.2.completionAddr = crc
  other : ∀ a, (∀ d ∈ ds, d.2.completionAddr ≠ a) → after a = before a

lemma exec_copy (hw : DsaHardware) {d : DsaHwDesc} (hcopy : IsCopy d.operation) (hself : SelfDisjoint d.operation) :
    ∃ hw', hw.exec d = some hw' ∧ hw'.mem = (transferOf d.operation).run hw.mem ∧
      (∀ crc, crcOfOperation hw.mem d.operation = some crc → hw'.crcVal d.completionAddr = crc) ∧
      ∀ a ≠ d.completionAddr, hw'.crcVal a = hw.crcVal a := by
  obtain ⟨operation, addr⟩ := d
  cases operation with
  | memmove src dst size =>
    refine ⟨_, rfl, rfl, ?_, fun _ _ => rfl⟩
    intro crc hcrc
    cases hcrc
  | copyCrc src dst size seed =>
    refine ⟨_, if_pos hself, rfl, ?_, ?_⟩
    · intro crc hcrc
      rw [← Option.some.inj hcrc]
      exact update_self _ _ _
    · intro a ha
      exact update_of_ne ha _ _
  | batch => exact hcopy.elim
  | crcgen => exact hcopy.elim
  | fence => exact hcopy.elim

lemma crcOfOperation_run (ho : IsCopy o) (hapart : t.Apart (transferOf o)) (mem : Memory) :
    crcOfOperation (t.run mem) o = crcOfOperation mem o := by
  cases o with
  | copyCrc src dst size seed =>
    unfold crcOfOperation
    dsimp only
    have hread : readBytes (t.run mem) src size = readBytes mem src size := by
      apply readBytes_writeBytes_disjoint
      rw [readBytes_length]
      exact hapart.source_right.symm
    rw [hread]
  | memmove => rfl
  | batch => exact ho.elim
  | crcgen => exact ho.elim
  | fence => exact ho.elim

lemma exec_crc (hw : DsaHardware) {d : DsaHwDesc} (hcrc : IsCrc d.operation ∨ d.operation = .fence) :
    ∃ hw', hw.exec d = some hw' ∧ hw'.mem = hw.mem ∧
      (∀ crc, crcOfOperation hw.mem d.operation = some crc → hw'.crcVal d.completionAddr = crc) ∧
      ∀ a ≠ d.completionAddr, hw'.crcVal a = hw.crcVal a := by
  obtain ⟨operation, addr⟩ := d
  cases operation with
  | crcgen src size seed =>
    refine ⟨_, rfl, rfl, ?_, ?_⟩
    · intro crc hcrc
      rw [← Option.some.inj hcrc]
      exact update_self _ _ _
    · intro a ha
      exact update_of_ne ha _ _
  | fence =>
    refine ⟨hw, rfl, rfl, ?_, fun _ _ => rfl⟩
    intro crc hcrc
    cases hcrc
  | memmove => rcases hcrc with hcrc | hcrc <;> cases hcrc
  | copyCrc => rcases hcrc with hcrc | hcrc <;> cases hcrc
  | batch => rcases hcrc with hcrc | hcrc <;> cases hcrc

lemma RecordsOf.cons {mem mem₁ : Memory} {before between after : Nat → BitVec 32}
    (h : RecordsOf ds mem₁ between after)
    (hsame : ∀ e ∈ ds, crcOfOperation mem₁ e.2.operation = crcOfOperation mem e.2.operation)
    (hnot : ∀ e ∈ ds, e.2.completionAddr ≠ d.2.completionAddr)
    (hcrc : ∀ crc, crcOfOperation mem d.2.operation = some crc → between d.2.completionAddr = crc)
    (hother : ∀ a ≠ d.2.completionAddr, between a = before a) : RecordsOf (d :: ds) mem before after where
  written e he crc hcrc' := by
    rcases mem_cons.mp he with rfl | he
    · rw [h.other _ hnot]
      exact hcrc crc hcrc'
    · apply h.written e he
      rw [hsame e he]
      exact hcrc'
  other a ha := by
    rw [h.other a fun e he => ha e (mem_cons_of_mem _ he)]
    exact hother a (ha d mem_cons_self).symm

lemma execAll_cons {hw hw₁ : DsaHardware} (h : hw.exec d.2 = some hw₁) (ds : List (Nat × DsaHwDesc)) :
    hw.execAll (d :: ds) = hw₁.execAll ds := by
  unfold DsaHardware.execAll
  rw [foldlM_cons, h]
  rfl

lemma completionAddr_ne (h : d.2.completionAddr ∉ ds.map fun d => d.2.completionAddr) :
    ∀ e ∈ ds, e.2.completionAddr ≠ d.2.completionAddr := by
  intro e he heq
  apply h
  rw [← heq]
  exact mem_map_of_mem (f := fun d => d.2.completionAddr) he

theorem execAll_copies (hcopies : ∀ d ∈ ds, IsCopy d.2.operation) (hself : ∀ d ∈ ds, SelfDisjoint d.2.operation)
    (hapart : (ds.map fun d => transferOf d.2.operation).Pairwise Transfer.Apart)
    (hrecords : (ds.map fun d => d.2.completionAddr).Nodup) (hw : DsaHardware) :
    ∃ hw', hw.execAll ds = some hw' ∧
      Transferred (ds.map fun d => transferOf d.2.operation) hw.mem hw'.mem ∧
      RecordsOf ds hw.mem hw.crcVal hw'.crcVal := by
  induction ds generalizing hw with
  | nil =>
    exact ⟨hw, rfl, .nil _, ⟨fun _ hd => absurd hd not_mem_nil, fun _ _ => rfl⟩⟩
  | cons d ds ih =>
    rw [map_cons, pairwise_cons] at hapart
    rw [map_cons, nodup_cons] at hrecords
    obtain ⟨hw₁, hexec, hmem, hcrc, hother⟩ :=
      exec_copy hw (hcopies d mem_cons_self) (hself d mem_cons_self)
    obtain ⟨hw', hall, htransferred, hwritten⟩ := ih (fun e he => hcopies e (mem_cons_of_mem _ he))
      (fun e he => hself e (mem_cons_of_mem _ he)) hapart.2 hrecords.2 hw₁
    refine ⟨hw', (execAll_cons hexec ds).trans hall, ?_, ?_⟩
    · rw [hmem] at htransferred
      exact .cons hapart.1 htransferred
    · apply hwritten.cons _ (completionAddr_ne hrecords.1) hcrc hother
      intro e he
      rw [hmem]
      exact crcOfOperation_run (hcopies e (mem_cons_of_mem _ he))
        (hapart.1 _ (mem_map_of_mem (f := fun d => transferOf d.2.operation) he)) hw.mem

/-- Fences and CRCs leave the memory as it is. -/
theorem execAll_crcs (hcrcs : ∀ d ∈ ds, IsCrc d.2.operation ∨ d.2.operation = .fence)
    (hrecords : (ds.map fun d => d.2.completionAddr).Nodup) (hw : DsaHardware) :
    ∃ hw', hw.execAll ds = some hw' ∧ hw'.mem = hw.mem ∧ RecordsOf ds hw.mem hw.crcVal hw'.crcVal := by
  induction ds generalizing hw with
  | nil => exact ⟨hw, rfl, rfl, ⟨fun _ hd => absurd hd not_mem_nil, fun _ _ => rfl⟩⟩
  | cons d ds ih =>
    rw [map_cons, nodup_cons] at hrecords
    obtain ⟨hw₁, hexec, hmem, hcrc, hother⟩ := exec_crc hw (hcrcs d mem_cons_self)
    obtain ⟨hw', hall, hmem', hwritten⟩ := ih (fun e he => hcrcs e (mem_cons_of_mem _ he)) hrecords.2 hw₁
    refine ⟨hw', (execAll_cons hexec ds).trans hall, hmem'.trans hmem, ?_⟩
    apply hwritten.cons _ (completionAddr_ne hrecords.1) hcrc hother
    intro e _
    rw [hmem]

lemma eq_filter_append {α : Type} (P : α → Bool) {l : List α}
    (h : l.Pairwise fun a b => ¬ (P b = true ∧ P a = false)) : l = l.filter P ++ l.filter fun a => !P a := by
  induction l with
  | nil => rfl
  | cons a l ih =>
    rw [pairwise_cons] at h
    cases ha : P a with
    | true =>
      rw [filter_cons_of_pos ha, filter_cons_of_neg (by simp [ha]), cons_append, ← ih h.2]
    | false =>
      have hnone : l.filter P = [] := by
        rw [filter_eq_nil_iff]
        intro b hb hpb
        exact h.1 b hb ⟨hpb, ha⟩
      rw [filter_cons_of_neg (by simp [ha]), filter_cons_of_pos (by simp [ha]), hnone, nil_append]
      congr 1
      conv_lhs => rw [ih h.2, hnone, nil_append]

lemma permitted_split {order : List (Nat × DsaHwDesc)} {f : Nat × DsaHwDesc} (hf : f.2.operation = .fence)
    (hcopies : ∀ d ∈ copies, d.1 < f.1) (hcrcs : ∀ d ∈ crcs, f.1 ≤ d.1)
    (h : DsaHardware.Permitted (copies ++ f :: crcs) order) :
    ∃ first second, order = first ++ second ∧ first.Perm copies ∧ second.Perm (f :: crcs) := by
  let P : Nat × DsaHwDesc → Bool := fun d => decide (d.1 < f.1)
  have hfirst : (copies ++ f :: crcs).filter P = copies := by
    rw [filter_append, filter_eq_self.mpr, filter_eq_nil_iff.mpr, append_nil]
    · intro d hd
      rcases mem_cons.mp hd with rfl | hd
      · simp [P]
      · simpa [P] using hcrcs d hd
    · intro d hd
      simpa [P] using hcopies d hd
  have hsecond : ((copies ++ f :: crcs).filter fun d => !P d) = f :: crcs := by
    rw [filter_append, filter_eq_nil_iff.mpr, filter_eq_self.mpr, nil_append]
    · intro d hd
      rcases mem_cons.mp hd with rfl | hd
      · simp [P]
      · simpa [P] using hcrcs d hd
    · intro d hd
      simpa [P] using hcopies d hd
  refine ⟨order.filter P, order.filter fun d => !P d, ?_, ?_, ?_⟩
  · apply eq_filter_append
    apply h.2.imp
    intro d d' hdd' hP
    apply hdd' f (mem_append_right _ mem_cons_self) hf
    exact ⟨by simpa [P] using hP.1, by simpa [P] using hP.2⟩
  · have := h.1.filter P
    rwa [hfirst] at this
  · have := h.1.filter fun d => !P d
    rwa [hsecond] at this

/-- What a run of descriptors leaves: the copies are made, the CRC of a copy is that of the bytes
before the run, any other CRC that of the bytes after it. -/
structure RunOutcome (ds : List (Nat × DsaHwDesc)) (ts : List Transfer) (hw hw' : DsaHardware) : Prop where
  mem : Transferred ts hw.mem hw'.mem
  copyCrc : ∀ d ∈ ds, IsCopy d.2.operation → ∀ crc, crcOfOperation hw.mem d.2.operation = some crc →
    hw'.crcVal d.2.completionAddr = crc
  crcgen : ∀ d ∈ ds, IsCrc d.2.operation → ∀ crc, crcOfOperation hw'.mem d.2.operation = some crc →
    hw'.crcVal d.2.completionAddr = crc

lemma execAll_append (hw : DsaHardware) (ds es : List (Nat × DsaHwDesc)) :
    hw.execAll (ds ++ es) = (hw.execAll ds).bind fun hw' => hw'.execAll es := by
  unfold DsaHardware.execAll
  rw [foldlM_append]
  rfl

lemma not_isCopy_of_isCrc (h : IsCrc o) : ¬ IsCopy o := by
  intro hcopy
  cases o <;> trivial

/-- Copies in any order, and then fences and CRCs in any order. -/
theorem runOutcome_phases {first second : List (Nat × DsaHwDesc)} (hfirst : first.Perm copies)
    (hsecond : second.Perm crcs) (hcopies : ∀ d ∈ copies, IsCopy d.2.operation)
    (hcrcs : ∀ d ∈ crcs, IsCrc d.2.operation ∨ d.2.operation = .fence)
    (hself : ∀ d ∈ copies, SelfDisjoint d.2.operation)
    (hapart : (copies.map fun d => transferOf d.2.operation).Pairwise Transfer.Apart)
    (hrecords : ((copies ++ crcs).map fun d => d.2.completionAddr).Nodup) (hw : DsaHardware) :
    ∃ hw', hw.execAll (first ++ second) = some hw' ∧
      RunOutcome (copies ++ crcs) (copies.map fun d => transferOf d.2.operation) hw hw' := by
  rw [map_append, nodup_append] at hrecords
  obtain ⟨hnodup, hnodup', hne⟩ := hrecords
  have hapart' : (first.map fun d => transferOf d.2.operation).Pairwise Transfer.Apart :=
    ((hfirst.map _).pairwise_iff Transfer.Apart.symm).mpr hapart
  obtain ⟨hw₁, hexec, hmem, hwritten⟩ := execAll_copies (fun d hd => hcopies d (hfirst.subset hd))
    (fun d hd => hself d (hfirst.subset hd)) hapart' ((hfirst.map _).nodup_iff.mpr hnodup) hw
  obtain ⟨hw₂, hexec', hmem', hwritten'⟩ := execAll_crcs (fun d hd => hcrcs d (hsecond.subset hd))
    ((hsecond.map _).nodup_iff.mpr hnodup') hw₁
  refine ⟨hw₂, ?_, ?_, ?_, ?_⟩
  · rw [execAll_append, hexec]
    exact hexec'
  · rw [hmem']
    exact hmem.perm (hfirst.map _)
  · intro d hd hcopy crc hcrc
    rcases mem_append.mp hd with hd | hd
    · rw [hwritten'.other]
      · exact hwritten.written d (hfirst.symm.subset hd) crc hcrc
      · intro e he heq
        exact hne _ (mem_map_of_mem (f := fun d => d.2.completionAddr) hd) _
          (mem_map_of_mem (f := fun d => d.2.completionAddr) (hsecond.subset he)) heq.symm
    · rcases hcrcs d hd with hcrc' | hfence
      · exact absurd hcopy (not_isCopy_of_isCrc hcrc')
      · rw [hfence] at hcopy
        exact hcopy.elim
  · intro d hd hcrc crc hval
    rcases mem_append.mp hd with hd | hd
    · exact absurd (hcopies d hd) (not_isCopy_of_isCrc hcrc)
    · rw [hmem'] at hval
      exact hwritten'.written d (hsecond.symm.subset hd) crc hval

def chunkTransfers (dst : Nat) : List (Nat × Nat) → Nat → List Transfer
  | [], _ => []
  | (src, len) :: segments, offset => ⟨src, dst + offset, len⟩ :: chunkTransfers dst segments (offset + len)

def transfersOf (op : DataFlowMoveOperation) : List Transfer := chunkTransfers op.dst (op.src.zip op.srcLen) 0

lemma moveSegments_mem (dst : Nat) (segments : List (Nat × Nat)) (offset : Nat) (mem : Memory) :
    (SwEngine.moveSegments dst segments offset mem).2 = transferAll (chunkTransfers dst segments offset) mem := by
  induction segments generalizing offset mem with
  | nil => rfl
  | cons segment segments ih => exact ih _ _

lemma performMove_eq (mem : Memory) (op : DataFlowMoveOperation) :
    performMove mem op = transferAll (transfersOf op) mem :=
  moveSegments_mem op.dst _ 0 mem

lemma transferAll_append (ts us : List Transfer) (mem : Memory) :
    transferAll (ts ++ us) mem = transferAll us (transferAll ts mem) :=
  foldl_append

lemma foldl_performMove (ops : List DataFlowMoveOperation) (mem : Memory) :
    ops.foldl performMove mem = transferAll (ops.flatMap transfersOf) mem := by
  induction ops generalizing mem with
  | nil => rfl
  | cons op ops ih =>
    rw [foldl_cons, ih, flatMap_cons, transferAll_append, performMove_eq]

lemma submitMoves_mem (ops : List DataFlowMoveOperation) (i : Nat) (swCtx : Nat → BitVec 64) (mem : Memory) :
    (SwEngine.submitMoves ops i swCtx mem).2 = ops.foldl performMove mem := by
  induction ops generalizing i swCtx mem with
  | nil => rfl
  | cons op ops ih =>
    rw [submitMoves_cons, ih]
    rfl

lemma chunkTransfers_target (ht : t ∈ chunkTransfers dst segments offset) :
    (t.src, t.len) ∈ segments ∧ dst + offset ≤ t.dst ∧
      t.dst + t.len ≤ dst + offset + (segments.map Prod.snd).sum := by
  induction segments generalizing offset with
  | nil => exact absurd ht not_mem_nil
  | cons segment segments ih =>
    obtain ⟨src, len⟩ := segment
    rw [map_cons, sum_cons]
    rcases mem_cons.mp ht with rfl | ht
    · exact ⟨mem_cons_self, le_rfl, by dsimp only; omega⟩
    · obtain ⟨hmem, hlo, hhi⟩ := ih ht
      exact ⟨mem_cons_of_mem _ hmem, by omega, by omega⟩

def dstExtent (op : DataFlowMoveOperation) : Extent := ⟨op.dst, movedLength op⟩

lemma transfersOf_target (ht : t ∈ transfersOf op) :
    (t.src, t.len) ∈ op.src.zip op.srcLen ∧ t.target.Within (dstExtent op) := by
  obtain ⟨hmem, hlo, hhi⟩ := chunkTransfers_target ht
  rw [Nat.add_zero] at hlo hhi
  exact ⟨hmem, hlo, hhi⟩

/-- No move writes what another one reads or writes, and none with several chunks what it reads
itself. -/
structure SeparateMoves (ops : List DataFlowMoveOperation) : Prop where
  distinct : ops.Pairwise fun op op' => (dstExtent op).Disjoint (dstExtent op') ∧
    (∀ s ∈ op'.src.zip op'.srcLen, (dstExtent op).Disjoint ⟨s.1, s.2⟩) ∧
    ∀ s ∈ op.src.zip op.srcLen, (dstExtent op').Disjoint ⟨s.1, s.2⟩
  own : ∀ op ∈ ops, op.src.length ≠ 1 → ∀ s ∈ op.src.zip op.srcLen, (dstExtent op).Disjoint ⟨s.1, s.2⟩

lemma chunkTransfers_apart
    (hsrc : ∀ s ∈ segments, Extent.Disjoint ⟨dst + offset, (segments.map Prod.snd).sum⟩ ⟨s.1, s.2⟩) :
    (chunkTransfers dst segments offset).Pairwise Transfer.Apart := by
  induction segments generalizing offset with
  | nil => exact .nil
  | cons segment segments ih =>
    obtain ⟨src, len⟩ := segment
    rw [map_cons, sum_cons] at hsrc
    have hrest : ∀ s ∈ segments, Extent.Disjoint ⟨dst + (offset + len), (segments.map Prod.snd).sum⟩ ⟨s.1, s.2⟩ := by
      intro s hs
      apply (hsrc s (mem_cons_of_mem _ hs)).mono
      unfold Extent.Within
      dsimp only
      omega
    refine .cons ?_ (ih hrest)
    intro t ht
    obtain ⟨hmem, hlo, hhi⟩ := chunkTransfers_target ht
    have hthis := hsrc (src, len) mem_cons_self
    have hthat := hsrc (t.src, t.len) (mem_cons_of_mem _ hmem)
    refine ⟨?_, ?_, ?_⟩
    · unfold Extent.Disjoint Transfer.target
      dsimp only
      omega
    · apply hthat.mono
      unfold Extent.Within Transfer.target
      dsimp only
      omega
    · apply hthis.mono
      unfold Extent.Within Transfer.target
      dsimp only
      omega

lemma transfersOf_apart {ops : List DataFlowMoveOperation} (hops : ∀ op ∈ ops, PassesMove op)
    (hsep : SeparateMoves ops) : (ops.flatMap transfersOf).Pairwise Transfer.Apart := by
  rw [pairwise_flatMap]
  constructor
  · intro op hop
    by_cases hone : op.src.length = 1
    · -- one chunk has no other to be apart from
      obtain ⟨src, hsrc⟩ := length_eq_one_iff.mp hone
      have hlen := (hops op hop).2.1
      rw [hone] at hlen
      obtain ⟨len, hlens⟩ := length_eq_one_iff.mp hlen.symm
      unfold transfersOf
      rw [hsrc, hlens]
      exact pairwise_singleton _ _
    · apply chunkTransfers_apart
      intro s hs
      exact hsep.own op hop hone s hs
  · apply hsep.distinct.imp
    intro op op' h t ht u hu
    obtain ⟨htmem, htarget⟩ := transfersOf_target ht
    obtain ⟨humem, hutarget⟩ := transfersOf_target hu
    exact ⟨((h.1.mono htarget).symm.mono hutarget).symm, (h.2.1 _ humem).mono htarget, (h.2.2 _ htmem).mono hutarget⟩

lemma transferOf_copyOperation (op : DataFlowMoveOperation) (src dst len : Nat) :
    transferOf (copyOperation op src dst len) = ⟨src, dst, len % 2 ^ 32⟩ := by
  unfold copyOperation
  split <;> rfl

lemma transferOf_chunkOperations {sum : Nat} (hpos : ∀ s ∈ segments, 0 < s.2)
    (h : Forall₂ (RangeOk table) (chunkRanges op.dst segments offset)
      ((chunkOperations table op segments sum).flatMap operationRanges)) :
    (chunkOperations table op segments sum).map transferOf =
        (chunkTransfers op.dst segments offset).map (physical table) ∧
      ∀ t ∈ chunkTransfers op.dst segments offset, Mapped table t := by
  induction segments generalizing offset sum with
  | nil => exact ⟨rfl, fun _ ht => absurd ht not_mem_nil⟩
  | cons segment segments ih =>
    obtain ⟨src, len⟩ := segment
    unfold chunkRanges chunkOperations at h
    rw [flatMap_cons, operationRanges_copyOperation] at h
    obtain ⟨hsrc, h⟩ := List.forall₂_cons.mp h
    obtain ⟨hdst, h⟩ := List.forall₂_cons.mp h
    obtain ⟨hmap, hmapped⟩ := ih (fun s hs => hpos s (mem_cons_of_mem _ hs)) h
    unfold chunkTransfers chunkOperations
    constructor
    · rw [map_cons, map_cons, hmap, transferOf_copyOperation]
      congr 1
      unfold physical
      rw [← hsrc.addr, ← hdst.addr]
      exact congrArg _ hsrc.size
    · exact forall_mem_cons.mpr ⟨⟨hsrc.page, hdst.page, hpos _ mem_cons_self⟩, hmapped⟩

structure MoveOk (table : AddressMap) (op : DataFlowMoveOperation) : Prop where
  passes : PassesMove op
  translates : Translates table op
  chunks : ∀ s ∈ op.src.zip op.srcLen, s.1 + s.2 < 2 ^ 64
  dst : op.dst + movedLength op < 2 ^ 64

namespace MoveOk

variable {op : DataFlowMoveOperation}

lemma transfers (h : DmaTable table) (hop : MoveOk table op) :
    (copyOperations table op).map transferOf = (transfersOf op).map (physical table) ∧
      ∀ t ∈ transfersOf op, Mapped table t :=
  transferOf_chunkOperations (fun _ hs => zip_pos hop.passes hs)
    (copyRanges_ok h hop.passes hop.translates hop.chunks hop.dst)

lemma dst_inPage (h : DmaTable table) (hop : MoveOk table op) : InPage table op.dst (movedLength op) := by
  obtain ⟨c, hc, haddr, hend⟩ := hop.translates.dst_page h hop.dst
  exact ⟨c, hc, haddr.1, hend⟩

lemma fused (h : DmaTable table) (hop : MoveOk table op) (hfuses : fusesCrc op = true) :
    ∃ src len, op.src.zip op.srcLen = [(src, len)] ∧ movedLength op = len ∧ Mapped table ⟨src, op.dst, len⟩ ∧
      Extent.Disjoint ⟨src, len⟩ ⟨op.dst, len⟩ ∧
      copyOperations table op = [.copyCrc (lookUpAddr table src) (lookUpAddr table op.dst) len (vesalCrcRevise op.seed)] := by
  obtain ⟨src, len, hzip⟩ := zip_of_fusesCrc hop.passes hfuses
  have hlen : movedLength op = len := by
    unfold movedLength
    rw [hzip, map_singleton, sum_singleton]
  have hmem : (src, len) ∈ op.src.zip op.srcLen := by
    rw [hzip]
    exact mem_singleton_self _
  have htransfers : transfersOf op = [⟨src, op.dst + 0, len⟩] := by
    unfold transfersOf
    rw [hzip]
    rfl
  have hmapped : Mapped table ⟨src, op.dst, len⟩ := by
    apply (hop.transfers h).2
    rw [htransfers]
    exact mem_singleton_self _
  have hsrcwrap := hop.chunks (src, len) hmem
  have hdstwrap := hop.dst
  rw [hlen] at hdstwrap
  refine ⟨src, len, hzip, hlen, hmapped, ?_, ?_⟩
  · have hok : isCopyWithCrcOk op = true := by
      unfold fusesCrc at hfuses
      exact (Bool.and_eq_true_iff.mp hfuses).2
    have hsrc : ∃ lens, op.src = [src] ∧ op.srcLen = len :: lens := by
      unfold isCopyWithCrcOk at hok
      split at hok
      · rename_i src' len' lens hsrc hlens
        rw [hsrc, hlens, zip_cons_cons, zip_nil_left] at hzip
        obtain ⟨rfl, rfl⟩ := Prod.mk.inj (List.cons.inj hzip).1
        exact ⟨lens, hsrc, hlens⟩
      · cases hok
    obtain ⟨lens, hsrc, hlens⟩ := hsrc
    unfold isCopyWithCrcOk isNoOverlap at hok
    rw [hsrc, hlens] at hok
    dsimp only at hok
    rw [decide_eq_true_eq, Nat.mod_eq_of_lt hsrcwrap, Nat.mod_eq_of_lt hdstwrap] at hok
    exact hok
  · unfold copyOperations
    rw [hzip]
    unfold chunkOperations chunkOperations copyOperation
    rw [if_pos hfuses, hmapped.src.len_mod h,
      lookUp_eq_lookUpAddr h.isTable (by omega) (hop.translates.chunks (src, len) hmem), Nat.add_zero,
      Nat.mod_eq_of_lt (lookUpAddr_lt table _)]

lemma selfDisjoint (h : DmaMemory table) (hop : MoveOk table op) {o : DsaOperation} (ho : o ∈ copyOperations table op) :
    SelfDisjoint o := by
  by_cases hfuses : fusesCrc op = true
  · obtain ⟨src, len, -, -, hmapped, hdisjoint, hcopies⟩ := hop.fused h.toDmaTable hfuses
    rw [hcopies, mem_singleton] at ho
    rw [ho]
    exact h.disjoint hmapped.src hmapped.dst hmapped.pos hmapped.pos hdisjoint
  · have hplain : ∀ segments sum, ∀ o ∈ chunkOperations table op segments sum, SelfDisjoint o := by
      intro segments
      induction segments with
      | nil => exact fun _ _ ho => absurd ho not_mem_nil
      | cons segment segments ih =>
        intro sum o ho
        rcases mem_cons.mp ho with rfl | ho
        · unfold copyOperation
          rw [if_neg hfuses]
          trivial
        · exact ih _ o ho
    exact hplain _ _ o ho

end MoveOk

end Vesal.Proofs
