import Vesal.Proofs.TranslationCache

/-! # Registering memory of the caller -/

namespace Vesal.Proofs

open Library AddressManager List Function

def pageAddr (info : MemoryInfo) (i : Nat) : Nat := (info.virtualAddr + i * info.pageSize) % 2 ^ 64

def MemoryApart (info info' : MemoryInfo) : Prop :=
  ∀ k < info.len, ∀ k' < info'.len, (info.virtualAddr + k) % 2 ^ 64 ≠ (info'.virtualAddr + k') % 2 ^ 64

/-- The memory is split into pages without a rest, and the table has each of them with the address
that was asked for it and the type of its size. -/
structure Registered (kernel : Kernel) (table : AddressMap) (info : MemoryInfo) : Prop where
  split : info.len / info.pageSize * info.pageSize = info.len
  typed : alignTypeToPageSize (pageSizeToAlignType info.pageSize) = info.pageSize
  pages : ∀ i < info.len / info.pageSize, table (pageAddr info i) =
    some ⟨pageAddr info i, kernel.physAddrOf (pageAddr info i), pageSizeToAlignType info.pageSize⟩

structure Keyed (table : AddressMap) : Prop where
  key : ∀ a c, table a = some c → c.startAddr = a
  type : ∀ a c, table a = some c → c.alignType ∈ pageTypes

variable {kernel : Kernel} {table : AddressMap} {infos : List MemoryInfo} {info info' : MemoryInfo}
  {chunks : List PhysChunk} {order : List AlignType} {a i v : Nat} {c : PhysChunk} {r r' : TranslationRun}

lemma foldl_assign_of_notMem (h : a ∉ chunks.map PhysChunk.startAddr) : chunks.foldl AddressMap.assign table a = table a := by
  induction chunks generalizing table with
  | nil => rfl
  | cons q chunks ih =>
    rw [map_cons, mem_cons, not_or] at h
    rw [foldl_cons, ih h.2]
    exact update_of_ne h.1 _ _

lemma exists_foldl_assign (table : AddressMap) (h : a ∈ chunks.map PhysChunk.startAddr) :
    ∃ q ∈ chunks, q.startAddr = a ∧ chunks.foldl AddressMap.assign table a = some q := by
  induction chunks generalizing table with
  | nil => cases h
  | cons q chunks ih =>
    rw [foldl_cons]
    by_cases hrest : a ∈ chunks.map PhysChunk.startAddr
    · obtain ⟨q', hq', ha, hfold⟩ := ih (table.assign q) hrest
      exact ⟨q', mem_cons_of_mem q hq', ha, hfold⟩
    · obtain rfl : a = q.startAddr := (mem_cons.mp h).resolve_right hrest
      refine ⟨q, mem_cons_self, rfl, ?_⟩
      rw [foldl_assign_of_notMem hrest]
      exact update_self _ _ _

lemma foldl_assign_cases (h : chunks.foldl AddressMap.assign table a = some c) :
    (c ∈ chunks ∧ c.startAddr = a) ∨ table a = some c := by
  by_cases hmem : a ∈ chunks.map PhysChunk.startAddr
  · obtain ⟨q, hq, ha, hfold⟩ := exists_foldl_assign table hmem
    obtain rfl : q = c := Option.some.inj (hfold.symm.trans h)
    exact Or.inl ⟨hq, ha⟩
  · rw [foldl_assign_of_notMem hmem] at h
    exact Or.inr h

lemma foldl_assign_of_mem (hnodup : (chunks.map PhysChunk.startAddr).Nodup) (hc : c ∈ chunks) :
    chunks.foldl AddressMap.assign table c.startAddr = some c := by
  obtain ⟨q, hq, ha, hfold⟩ := exists_foldl_assign table (mem_map_of_mem (f := PhysChunk.startAddr) hc)
  rw [hfold, inj_on_of_nodup_map hnodup hq hc ha]

lemma keyed_empty : Keyed AddressMap.empty where
  key a c hc := by cases hc
  type a c hc := by cases hc

lemma Keyed.foldl (h : Keyed table) (htypes : ∀ q ∈ chunks, q.alignType ∈ pageTypes) :
    Keyed (chunks.foldl AddressMap.assign table) where
  key a c hc := by
    rcases foldl_assign_cases hc with ⟨-, ha⟩ | hold
    · exact ha
    · exact h.key a c hold
  type a c hc := by
    rcases foldl_assign_cases hc with ⟨hmem, -⟩ | hold
    · exact htypes c hmem
    · exact h.type a c hold

lemma hasAddr_of_probe (hv : v < 2 ^ 64) (hkey : c.startAddr = alignPage v c.alignType) (htype : c.alignType ∈ pageTypes) :
    HasAddr c v := by
  rw [alignPage_eq htype hv] at hkey
  obtain ⟨k, -, hsize⟩ := exists_pageSize htype
  have hpos : 0 < alignTypeToPageSize c.alignType := by
    rw [hsize]
    exact Nat.two_pow_pos k
  have hle := Nat.div_mul_le_self v (alignTypeToPageSize c.alignType)
  have hlt := Nat.lt_div_mul_add (a := v) hpos
  unfold HasAddr pageEnd PhysChunk.getChunkSize
  rw [hkey]
  exact ⟨hle, hlt⟩

lemma PagesApart.not_hasAddr {q : PhysChunk} (h : PagesApart q c) (hq : HasAddr q v) : ¬ HasAddr c v := by
  intro hc
  unfold HasAddr at hq hc
  unfold PagesApart at h
  omega

lemma hasAddr_startAddr (htype : c.alignType ∈ pageTypes) : HasAddr c c.startAddr := by
  obtain ⟨k, -, hsize⟩ := exists_pageSize htype
  unfold HasAddr pageEnd PhysChunk.getChunkSize
  rw [hsize]
  exact ⟨le_rfl, Nat.lt_add_of_pos_right (Nat.two_pow_pos k)⟩

lemma Keyed.tableLookUp_sound (h : Keyed table) (hv : v < 2 ^ 64) (hfound : table.tableLookUp v order = some c) :
    c ∈ pagesOf table ∧ HasAddr c v := by
  induction order with
  | nil => cases hfound
  | cons type order ih =>
    unfold AddressMap.tableLookUp at hfound
    split at hfound
    · rename_i c' hc'
      split at hfound
      · rename_i htype
        cases hfound
        have hkey := h.key _ c hc'
        refine ⟨?_, hasAddr_of_probe hv ?_ (h.type _ c hc')⟩
        · change table c.startAddr = some c
          rw [hkey]
          exact hc'
        · rw [htype]
          exact hkey
      · exact ih hfound
    · exact ih hfound

lemma Keyed.tableLookUp_foldl (h : Keyed table) (htypes : ∀ q ∈ chunks, q.alignType ∈ pageTypes)
    (hapart : ∀ q ∈ chunks, ∀ c ∈ pagesOf table, PagesApart q c) (hv : v < 2 ^ 64)
    (hfound : table.tableLookUp v order = some c) :
    (chunks.foldl AddressMap.assign table).tableLookUp v order = some c := by
  obtain ⟨hc, haddr⟩ := h.tableLookUp_sound hv hfound
  induction order with
  | nil => cases hfound
  | cons type order ih =>
    unfold AddressMap.tableLookUp at hfound ⊢
    by_cases hmem : alignPage v type ∈ chunks.map PhysChunk.startAddr
    · obtain ⟨q, hq, hqa, hfold⟩ := exists_foldl_assign table hmem
      -- neither the new entry nor an old one at this address ends the search
      have hnew : q.alignType ≠ type := by
        rintro rfl
        exact (hapart q hq c hc).not_hasAddr (hasAddr_of_probe hv hqa (htypes q hq)) haddr
      have hold : ∀ c', table (alignPage v type) = some c' → False := by
        intro c' hc'
        have hkey := h.key _ c' hc'
        have hpage : c' ∈ pagesOf table := by
          change table c'.startAddr = some c'
          rw [hkey]
          exact hc'
        apply (hapart q hq c' hpage).not_hasAddr (hasAddr_startAddr (htypes q hq))
        rw [hqa, ← hkey]
        exact hasAddr_startAddr (h.type _ c' hc')
      rw [hfold]
      dsimp only
      rw [if_neg hnew]
      split at hfound
      · rename_i c' hc'
        exact (hold c' hc').elim
      · exact ih hfound
    · rw [foldl_assign_of_notMem hmem]
      split at hfound
      · split at hfound
        · rename_i htype
          rw [if_pos htype]
          exact hfound
        · rename_i htype
          rw [if_neg htype]
          exact ih hfound
      · exact ih hfound

section

variable (h : validateExternalMemInfo info = true)
include h

lemma len_of_validate : info.len / info.pageSize * info.pageSize = info.len := by
  apply Nat.div_mul_cancel
  exact Nat.dvd_of_mod_eq_zero (validateExternalMemInfo_cases h).2.2

lemma pageSize_pos_of_validate : 0 < info.pageSize := by
  obtain ⟨htype, hsize⟩ := pageSize_of_validate h
  obtain ⟨k, -, hpow⟩ := exists_pageSize htype
  rw [← hsize, hpow]
  exact Nat.two_pow_pos k

lemma pageSize_dvd_of_validate : 2 ^ 21 ∣ info.pageSize := by
  rcases (validateExternalMemInfo_cases h).1 with heq | heq | heq
  · rw [heq]
    decide
  · rw [heq]
    decide
  · rw [heq]
    decide

lemma page_lt (hi : i < info.len / info.pageSize) : i * info.pageSize < info.len := by
  rw [← len_of_validate h]
  exact Nat.mul_lt_mul_of_pos_right hi (pageSize_pos_of_validate h)

end

lemma map_startAddr_externalChunks (kernel : Kernel) (infos : List MemoryInfo) :
    (externalChunks kernel infos).map PhysChunk.startAddr =
      infos.flatMap fun info => (range (info.len / info.pageSize)).map (pageAddr info) := by
  unfold externalChunks
  rw [map_flatMap]
  congr 1
  funext info
  rw [map_map]
  rfl

lemma nodup_externalChunks (kernel : Kernel) (hvalid : ∀ info ∈ infos, validateExternalMemInfo info = true)
    (hlen : ∀ info ∈ infos, info.len < 2 ^ 64) (hapart : infos.Pairwise MemoryApart) :
    ((externalChunks kernel infos).map PhysChunk.startAddr).Nodup := by
  rw [map_startAddr_externalChunks, nodup_flatMap]
  constructor
  · intro info hinfo
    have hlt := hlen info hinfo
    apply Nodup.map_on _ nodup_range
    intro i hi j hj heq
    have hi' := page_lt (hvalid info hinfo) (mem_range.mp hi)
    have hj' := page_lt (hvalid info hinfo) (mem_range.mp hj)
    unfold pageAddr at heq
    have hsame : i * info.pageSize = j * info.pageSize := by omega
    exact Nat.eq_of_mul_eq_mul_right (pageSize_pos_of_validate (hvalid info hinfo)) hsame
  · refine hapart.imp_of_mem ?_
    intro info info' hinfo hinfo' hdisjoint x hx hx'
    obtain ⟨i, hi, rfl⟩ := mem_map.mp hx
    obtain ⟨i', hi', heq⟩ := mem_map.mp hx'
    exact hdisjoint _ (page_lt (hvalid info hinfo) (mem_range.mp hi)) _
      (page_lt (hvalid info' hinfo') (mem_range.mp hi')) heq.symm

lemma length_externalChunks_le (kernel : Kernel) (hvalid : ∀ info ∈ infos, validateExternalMemInfo info = true)
    (hlen : ∀ info ∈ infos, info.len < 2 ^ 64) (hapart : infos.Pairwise MemoryApart) :
    (externalChunks kernel infos).length ≤ 2 ^ 43 := by
  have hnodup := nodup_externalChunks kernel hvalid hlen hapart
  have hpages : ∀ a ∈ (externalChunks kernel infos).map PhysChunk.startAddr, 2 ^ 21 ∣ a ∧ a < 2 ^ 64 := by
    rw [map_startAddr_externalChunks]
    intro a ha
    obtain ⟨info, hinfo, ha⟩ := mem_flatMap.mp ha
    obtain ⟨i, -, rfl⟩ := mem_map.mp ha
    have hdvd := pageSize_dvd_of_validate (hvalid info hinfo)
    have haligned := hdvd.trans (aligned_of_validate (hvalid info hinfo))
    refine ⟨?_, Nat.mod_lt _ (by decide)⟩
    unfold pageAddr
    rw [Nat.dvd_mod_iff (pow_dvd_pow 2 (by decide))]
    exact Nat.dvd_add haligned (hdvd.trans (Nat.dvd_mul_left _ _))
  have hsmall : (((externalChunks kernel infos).map PhysChunk.startAddr).map (· / 2 ^ 21)).Nodup := by
    apply hnodup.map_on
    intro a ha b hb heq
    rw [← Nat.div_mul_cancel (hpages a ha).1, ← Nat.div_mul_cancel (hpages b hb).1, heq]
  have hrange : ((externalChunks kernel infos).map PhysChunk.startAddr).map (· / 2 ^ 21) ⊆ range (2 ^ 43) := by
    intro x hx
    obtain ⟨a, ha, rfl⟩ := mem_map.mp hx
    have hlt := (hpages a ha).2
    rw [mem_range]
    omega
  have hle := (subperm_of_subset hsmall hrange).length_le
  rw [length_map, length_map, length_range] at hle
  exact hle

lemma externalChunkNum_eq (hvalid : ∀ info ∈ infos, validateExternalMemInfo info = true)
    (hlen : ∀ info ∈ infos, info.len < 2 ^ 64) (hapart : infos.Pairwise MemoryApart) :
    externalChunkNum infos = (externalChunks kernel infos).length := by
  have hle := length_externalChunks_le kernel hvalid hlen hapart
  have hfold : ∀ (infos : List MemoryInfo) (n : Nat),
      infos.foldl (fun chunkNum info => (chunkNum + info.len / info.pageSize) % 2 ^ 64) (n % 2 ^ 64) =
        (n + (externalChunks kernel infos).length) % 2 ^ 64 := by
    intro infos
    induction infos with
    | nil => exact fun n => rfl
    | cons info infos ih =>
      intro n
      rw [foldl_cons, Nat.mod_add_mod, ih]
      simp [externalChunks, Nat.add_assoc]
  have hzero := hfold infos 0
  rw [Nat.zero_add, Nat.mod_eq_of_lt (show (externalChunks kernel infos).length < 2 ^ 64 by omega)] at hzero
  exact hzero

def TableKeyed (pages : PoolPages) : Prop := ∀ table, pages.addrManager = some table → Keyed table

lemma TableKeyed.init {pages pages' : PoolPages} (h : TableKeyed pages) {opt : PoolInitOption} {ok : Bool}
    (hinit : pages.init kernel opt = some (ok, pages')) : TableKeyed pages' := by
  unfold PoolPages.init at hinit
  split at hinit
  · cases hinit
    exact h
  · split at hinit
    · cases hinit
      exact h
    · unfold PoolPages.preallocate at hinit
      split at hinit
      · cases hinit
      · rename_i hhp
        split at hinit
        · cases hinit
        · rename_i ok table regions hloop
          cases hinit
          intro table' htable'
          cases htable'
          obtain ⟨-, hkeyed⟩ := preallocateLoop_induct (P := fun _ table _ => Keyed table)
            (by
              intro call table regions num node addr hkeyed halloc
              apply hkeyed.foldl
              intro q hq
              obtain ⟨i, -, rfl⟩ := mem_map.mp hq
              exact hugePage_mem_pageTypes hhp)
            _ keyed_empty hloop
          exact hkeyed

lemma TableKeyed.register {pages : PoolPages} (h : TableKeyed pages) : TableKeyed (pages.register kernel infos).2 := by
  unfold PoolPages.register
  split
  · exact h
  · split
    · exact h
    · rename_i table htable
      intro table' htable'
      rcases addExternalEntries_cases kernel infos table with hfalse | ⟨hvalid, htrue⟩
      · rw [hfalse] at htable'
        cases htable'
        exact h table htable
      · rw [htrue] at htable'
        cases htable'
        exact (h table htable).foldl fun q hq => (externalChunks_page hvalid (mem_of_mem_take hq)).1

lemma TableKeyed.step (h : TableKeyed r.pages) {ev : TranslationEvent} (hstep : translationStep r ev = .ok r') :
    TableKeyed r'.pages := by
  cases ev with
  | init kernel opt =>
    unfold translationStep at hstep
    dsimp only at hstep
    split at hstep
    · cases hstep
    · rename_i ok pages hinit
      cases hstep
      exact h.init hinit
  | reset t =>
    unfold translationStep PoolPages.reset at hstep
    dsimp only at hstep
    split at hstep
    · cases hstep
      exact h
    · cases hstep
      intro table htable
      cases htable
  | register kernel infos =>
    cases hstep
    exact h.register
  | lookup t l =>
    unfold translationStep at hstep
    dsimp only at hstep
    split at hstep
    · cases hstep
    · cases hstep
      exact h

/-- `AddExternalEntries` on the table of any pool: it fails and leaves the table, or it counts every
page of the memory and enters it, and if they lie apart from the pages before, what a thread could translate
stays translated to the same address. -/
theorem external_entries_all_or_nothing (r : TranslationRun)
    (hruns : Runs translationStep (fun _ _ => True) TranslationRun.new r) (table : AddressMap)
    (htable : r.pages.addrManager = some table) (kernel : Kernel) (infos : List MemoryInfo)
    (hlen : ∀ info ∈ infos, info.len < 2 ^ 64) (hapart : infos.Pairwise MemoryApart) :
    ∃ ok table', addExternalEntries kernel infos table = (ok, table') ∧ (ok = false → table' = table) ∧
      (ok = true → externalChunkNum infos = (externalChunks kernel infos).length ∧
        (∀ info ∈ infos, Registered kernel table' info) ∧
        ((∀ q ∈ externalChunks kernel infos, ∀ c ∈ pagesOf table, PagesApart q c) →
          ∀ (order : List AlignType) (cache : AddressMap) (v : Nat), v < 2 ^ 64 →
            (lookUpChunk table order v cache).isSome →
              getPhysAddr table' order v cache = getPhysAddr table order v cache)) := by
  have hkeyed : Keyed table := by
    have hinvariant : TableKeyed r.pages := hruns.invariant (P := fun r => TableKeyed r.pages)
      (fun _ htable => by cases htable) fun _ _ _ h _ hstep => h.step hstep
    exact hinvariant table htable
  rcases addExternalEntries_cases kernel infos table with hfalse | ⟨hvalid, htrue⟩
  · exact ⟨false, table, hfalse, fun _ => rfl, fun h => by cases h⟩
  · have hinfos := List.all_eq_true.mp hvalid
    have hnum : externalChunkNum infos = (externalChunks kernel infos).length := externalChunkNum_eq hinfos hlen hapart
    rw [hnum, List.take_length] at htrue
    refine ⟨true, _, htrue, ?_, fun _ => ⟨hnum, ?_, ?_⟩⟩
    · intro hfalse
      cases hfalse
    · intro info hinfo
      have hnodup := nodup_externalChunks kernel hinfos hlen hapart
      refine ⟨len_of_validate (hinfos info hinfo), (pageSize_of_validate (hinfos info hinfo)).2, ?_⟩
      intro i hi
      refine foldl_assign_of_mem hnodup (c := ⟨pageAddr info i, _, _⟩) ?_
      exact List.mem_flatMap.mpr ⟨info, hinfo, List.mem_map.mpr ⟨i, List.mem_range.mpr hi, rfl⟩⟩
    · intro hpages order cache v hv hsome
      unfold getPhysAddr
      unfold lookUpChunk at hsome ⊢
      cases hcache : cache.tableLookUp v order with
      | some c => rfl
      | none =>
        rw [hcache] at hsome
        cases hfound : table.tableLookUp v order with
        | none =>
          rw [hfound] at hsome
          cases hsome
        | some c =>
          rw [hkeyed.tableLookUp_foldl (fun q hq => (externalChunks_page hvalid hq).1) hpages hv hfound]

/-- Two pages of 2 MB and two of 512 MB. -/
def callerMemory : List MemoryInfo := [⟨0x40000000, 0x400000, 0x200000⟩, ⟨0x80000000, 0x40000000, 0x20000000⟩]

/-- The memory is registered with a pool of two pages, whose addresses stay where they are. -/
theorem external_entries_beside_pool :
    ∃ r table table', Runs translationStep (fun _ _ => True) TranslationRun.new r ∧ r.pages.addrManager = some table ∧
      addExternalEntries sampleKernel callerMemory table = (true, table') ∧
      (∀ info ∈ callerMemory, Registered sampleKernel table' info) ∧
      ∀ v, 0x200000 ≤ v → v < 0x600000 →
        (getPhysAddr table defaultOrder v AddressMap.empty).1 = v + 0x40000000 ∧
          (getPhysAddr table' defaultOrder v AddressMap.empty).1 = v + 0x40000000 := by
  obtain ⟨pages, table, call, hinit, -, htable, hpool⟩ := init_samplePool
  have hruns : Runs translationStep (fun _ _ => True) TranslationRun.new { TranslationRun.new with pages := pages } :=
    .single ⟨_, trivial, hinit⟩
  have hapart : callerMemory.Pairwise MemoryApart := by
    refine List.pairwise_pair.mpr ?_
    intro k hk k' hk'
    dsimp only at hk hk' ⊢
    omega
  obtain ⟨ok, table', hadd, -, hregistered⟩ := external_entries_all_or_nothing _ hruns table htable sampleKernel
    callerMemory (by decide) hapart
  have hok : (addExternalEntries sampleKernel callerMemory table).1 = true := rfl
  rw [hadd] at hok
  subst hok
  obtain ⟨-, hpages, hkept⟩ := hregistered rfl
  refine ⟨_, table, table', hruns, htable, hadd, hpages, ?_⟩
  have hbeside : ∀ q ∈ externalChunks sampleKernel callerMemory, ∀ c ∈ pagesOf table, PagesApart q c := by
    intro q hq c hc
    obtain ⟨region, hregion, -, hend⟩ := hpool.pages c hc
    obtain rfl := List.mem_singleton.mp hregion
    have habove : ∀ q ∈ externalChunks sampleKernel callerMemory, 0x600000 ≤ q.startAddr := by decide +kernel
    exact Or.inr (hend.trans (habove q hq))
  intro v hlo hhi
  have hpage : ∃ c ∈ pagesOf table, HasAddr c v ∧ c.physAddr = c.startAddr + 0x40000000 ∧ c.alignType = .kPage2Mb := by
    have hentries := hpool.entries _ (List.mem_singleton_self _)
    rcases Nat.lt_or_ge v 0x400000 with hfirst | hsecond
    · exact ⟨_, hentries 0 (by decide), ⟨hlo, hfirst⟩, by decide, rfl⟩
    · exact ⟨_, hentries 1 (by decide), ⟨hsecond, hhi⟩, by decide, rfl⟩
  obtain ⟨c, hc, haddr, hphys, htype⟩ := hpage
  have hv : v < 2 ^ 64 := by omega
  have hlisted : c.alignType ∈ defaultOrder := by
    rw [htype]
    decide
  have hperm : defaultOrder.Perm pageTypes := by decide
  have hfound := lookUpChunk_found hpool.isTable (subMap_empty table) hv hc haddr hlisted
  have haddrs := (addrExact hpool.isTable hperm (subMap_empty table) hv).found c hc haddr
  have hstart := haddr.1
  rw [hkept hbeside defaultOrder AddressMap.empty v hv (by rw [hfound]; rfl), haddrs, hphys]
  omega

end Vesal.Proofs
