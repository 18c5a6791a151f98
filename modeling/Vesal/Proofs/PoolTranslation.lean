import Vesal.MemoryPool
import Vesal.Proofs.PoolExclusive
import Vesal.Proofs.RangeTranslation

/-! # The memory of the pool is translated in one piece -/

namespace Vesal.Proofs

open Library AddressManager List Function PoolPages PoolRun

/-- What `mmap` does when it gets hugepages: the region is aligned to the size of its pages, does
not start at the null pointer, ends below the end of the address space, and has no byte of another
region. -/
structure MapsHugepages (kernel : Kernel) : Prop where
  aligned : ∀ call size num node a, kernel.allocHugepageFn call size num node = some a → size ∣ a
  mapped : ∀ call size num node a, kernel.allocHugepageFn call size num node = some a → 0 < a
  fits : ∀ call size num node a, kernel.allocHugepageFn call size num node = some a → a + size * num < 2 ^ 64
  apart : ∀ call call' size size' num num' node node' a a', call < call' →
    kernel.allocHugepageFn call size num node = some a →
    kernel.allocHugepageFn call' size' num' node' = some a' → a + size * num ≤ a' ∨ a' + size' * num' ≤ a

def pageAt (kernel : Kernel) (hp : HugePageSize) (addr : Nat) : PhysChunk :=
  ⟨addr, kernel.physAddrOf addr, hugePageSizeToAlignType hp⟩

def GotRegion (kernel : Kernel) (hp : HugePageSize) (call : Nat) (region : PoolRegion) : Prop :=
  ∃ num node, kernel.allocHugepageFn call (getHugePageSize hp) num node = some region.virtualAddr ∧
    region.len = getHugePageSize hp * num

structure Entered (kernel : Kernel) (hp : HugePageSize) (call : Nat) (table : AddressMap)
    (regions : List PoolRegion) : Prop where
  isTable : PageTable table
  got : ∀ region ∈ regions, ∃ j < call, GotRegion kernel hp j region
  apart : regions.Pairwise fun r r' =>
    r.virtualAddr + r.len ≤ r'.virtualAddr ∨ r'.virtualAddr + r'.len ≤ r.virtualAddr
  pages : ∀ c ∈ pagesOf table, ∃ region ∈ regions,
    region.virtualAddr ≤ c.startAddr ∧ pageEnd c ≤ region.virtualAddr + region.len
  entries : ∀ region ∈ regions, ∀ i, (i + 1) * getHugePageSize hp ≤ region.len →
    pageAt kernel hp (region.virtualAddr + i * getHugePageSize hp) ∈ pagesOf table

variable {kernel : Kernel} {hp : HugePageSize} {table cache : AddressMap} {call addr num : Nat}
  {regions old : List PoolRegion}

/-- The frame number is that of the pagemap entry; a page without a frame has no address. -/
lemma physAddrOf_eq (kernel : Kernel) (addr : Nat) :
    kernel.physAddrOf addr = if kernel.pagemap addr % 2 ^ 55 = 0 then 0
      else (kernel.pagemap addr % 2 ^ 55 * kernel.getpagesize + addr % kernel.getpagesize) % 2 ^ 64 := by
  have hmask : kernel.getPageFrameNumberOrZero addr = kernel.pagemap addr % 2 ^ 55 :=
    Nat.and_two_pow_sub_one_eq_mod _ 55
  unfold Kernel.physAddrOf Kernel.calcPhysAddr
  rw [hmask]

lemma getChunkSize_pageAt (kernel : Kernel) (hp : HugePageSize) (addr : Nat) :
    (pageAt kernel hp addr).getChunkSize = getHugePageSize hp := by
  cases hp with
  | k2MB => rfl
  | k1GB => rfl
  | k512MB => rfl
  | kUnknown => rfl

lemma pageEnd_pageAt (kernel : Kernel) (hp : HugePageSize) (addr : Nat) :
    pageEnd (pageAt kernel hp addr) = addr + getHugePageSize hp := by
  unfold pageEnd
  rw [getChunkSize_pageAt]
  rfl

lemma hugePage_mem_pageTypes (h : hp ≠ .kUnknown) : hugePageSizeToAlignType hp ∈ pageTypes := by
  cases hp with
  | kUnknown => exact absurd rfl h
  | _ => decide

lemma hugePageSize_pos (h : hp ≠ .kUnknown) : 0 < getHugePageSize hp := by
  cases hp with
  | kUnknown => exact absurd rfl h
  | _ => decide

variable {c : PhysChunk}

lemma mem_pagesOf_assign {c' : PhysChunk} :
    c' ∈ pagesOf (table.assign c) ↔ c' = c ∨ c'.startAddr ≠ c.startAddr ∧ c' ∈ pagesOf table := by
  constructor
  · intro h
    rcases assign_eq_some h with ⟨-, heq⟩ | ⟨hne, hold⟩
    · exact Or.inl heq
    · exact Or.inr ⟨hne, hold⟩
  · rintro (rfl | ⟨hne, hold⟩)
    · exact update_self _ _ _
    · exact (update_of_ne hne _ _).trans hold

lemma pageTable_regionChunks (h : PageTable table) (hhp : hp ≠ .kUnknown) (haligned : getHugePageSize hp ∣ addr)
    (hfits : addr + getHugePageSize hp * num < 2 ^ 64)
    (hapart : ∀ c ∈ pagesOf table, addr + getHugePageSize hp * num ≤ c.startAddr ∨ pageEnd c ≤ addr) {n : Nat}
    (hn : n ≤ num) :
    PageTable ((regionChunks kernel hp addr n).foldl AddressMap.assign table) ∧
      ∀ c, c ∈ pagesOf ((regionChunks kernel hp addr n).foldl AddressMap.assign table) ↔
        c ∈ pagesOf table ∨ ∃ i < n, c = pageAt kernel hp (addr + i * getHugePageSize hp) := by
  induction n with
  | zero => exact ⟨h, fun c => by simp [regionChunks]⟩
  | succ n ih =>
    obtain ⟨htable, hpages⟩ := ih (by omega)
    have hfold : (regionChunks kernel hp addr (n + 1)).foldl AddressMap.assign table =
        ((regionChunks kernel hp addr n).foldl AddressMap.assign table).assign
          (pageAt kernel hp (addr + n * getHugePageSize hp)) := by
      unfold regionChunks
      rw [range_succ, map_append, foldl_append]
      rfl
    have hroom : (n + 1) * getHugePageSize hp ≤ getHugePageSize hp * num := by
      rw [Nat.mul_comm]
      exact Nat.mul_le_mul_left _ hn
    rw [Nat.succ_mul] at hroom
    -- the page lies behind the pages before it and apart from the old ones
    have hsides : ∀ c ∈ pagesOf ((regionChunks kernel hp addr n).foldl AddressMap.assign table),
        addr + n * getHugePageSize hp + getHugePageSize hp ≤ c.startAddr ∨
          pageEnd c ≤ addr + n * getHugePageSize hp := by
      intro c hc
      rcases (hpages c).mp hc with hold | ⟨i, hi, rfl⟩
      · rcases hapart c hold with hle | hle
        · left
          omega
        · right
          omega
      · right
        have hmul := Nat.mul_le_mul_right (getHugePageSize hp) hi
        rw [Nat.succ_mul] at hmul
        rw [pageEnd_pageAt]
        omega
    have hpos := hugePageSize_pos hhp
    rw [hfold]
    constructor
    · apply htable.assign
      · exact hugePage_mem_pageTypes hhp
      · rw [getChunkSize_pageAt]
        exact Nat.dvd_add haligned (Nat.dvd_mul_left _ _)
      · change addr + n * getHugePageSize hp < 2 ^ 64
        omega
      · intro c hc _
        rw [pageEnd_pageAt]
        exact hsides c hc
    · intro c
      rw [mem_pagesOf_assign, hpages c]
      constructor
      · rintro (rfl | ⟨-, hold | ⟨i, hi, rfl⟩⟩)
        · exact Or.inr ⟨n, Nat.lt_succ_self n, rfl⟩
        · exact Or.inl hold
        · exact Or.inr ⟨i, Nat.lt_succ_of_lt hi, rfl⟩
      · intro hc
        by_cases hlast : c = pageAt kernel hp (addr + n * getHugePageSize hp)
        · exact Or.inl hlast
        · right
          have hmem : c ∈ pagesOf table ∨ ∃ i < n, c = pageAt kernel hp (addr + i * getHugePageSize hp) := by
            apply hc.imp_right
            rintro ⟨i, hi, rfl⟩
            refine ⟨i, lt_of_le_of_ne (Nat.le_of_lt_succ hi) ?_, rfl⟩
            rintro rfl
            exact hlast rfl
          refine ⟨?_, hmem⟩
          have hside := hsides c ((hpages c).mpr hmem)
          have hsize := htable.size_pos ((hpages c).mpr hmem)
          unfold pageEnd at hside
          change c.startAddr ≠ addr + n * getHugePageSize hp
          omega

lemma entered_empty (kernel : Kernel) (hp : HugePageSize) : Entered kernel hp 0 AddressMap.empty [] where
  isTable := pageTable_empty
  got region hregion := by cases hregion
  apart := Pairwise.nil
  pages c hc := by cases hc
  entries region hregion := by cases hregion

lemma Entered.region (h : Entered kernel hp call table regions) (hkernel : MapsHugepages kernel) (hhp : hp ≠ .kUnknown)
    {node : Option Nat} (halloc : kernel.allocHugepageFn call (getHugePageSize hp) num node = some addr) :
    Entered kernel hp (call + 1) ((regionChunks kernel hp addr num).foldl AddressMap.assign table)
      (regions ++ [⟨addr, getHugePageSize hp * num⟩]) := by
  have hfits := hkernel.fits _ _ _ _ _ halloc
  have hsides : ∀ region ∈ regions, region.virtualAddr + region.len ≤ addr ∨
      addr + getHugePageSize hp * num ≤ region.virtualAddr := by
    intro region hregion
    obtain ⟨j, hj, num', node', hgot, hlen⟩ := h.got region hregion
    rw [hlen]
    exact hkernel.apart j call _ _ _ _ _ _ _ _ hj hgot halloc
  have hapart : ∀ c ∈ pagesOf table, addr + getHugePageSize hp * num ≤ c.startAddr ∨ pageEnd c ≤ addr := by
    intro c hc
    obtain ⟨region, hregion, hlo, hhi⟩ := h.pages c hc
    have hside := hsides region hregion
    omega
  obtain ⟨htable, hpages⟩ := pageTable_regionChunks h.isTable hhp (hkernel.aligned _ _ _ _ _ halloc) hfits hapart le_rfl
  refine ⟨htable, ?_, ?_, ?_, ?_⟩
  · intro region hregion
    rcases mem_append.mp hregion with hold | hnew
    · obtain ⟨j, hj, hgot⟩ := h.got region hold
      exact ⟨j, Nat.lt_succ_of_lt hj, hgot⟩
    · rw [mem_singleton] at hnew
      subst hnew
      exact ⟨call, Nat.lt_succ_self call, num, node, halloc, rfl⟩
  · rw [pairwise_append]
    refine ⟨h.apart, pairwise_singleton _ _, ?_⟩
    intro region hregion region' hregion'
    rw [mem_singleton] at hregion'
    subst hregion'
    exact hsides region hregion
  · intro c hc
    rcases (hpages c).mp hc with hold | ⟨i, hi, rfl⟩
    · obtain ⟨region, hregion, hinside⟩ := h.pages c hold
      exact ⟨region, mem_append_left _ hregion, hinside⟩
    · refine ⟨_, mem_append_right _ (mem_singleton_self _), Nat.le_add_right _ _, ?_⟩
      have hmul := Nat.mul_le_mul_left (getHugePageSize hp) hi
      rw [Nat.mul_succ, Nat.mul_comm _ i] at hmul
      rw [pageEnd_pageAt]
      change addr + i * getHugePageSize hp + getHugePageSize hp ≤ addr + getHugePageSize hp * num
      omega
  · intro region hregion i hi
    rcases mem_append.mp hregion with hold | hnew
    · exact (hpages _).mpr (Or.inl (h.entries region hold i hi))
    · rw [mem_singleton] at hnew
      subst hnew
      refine (hpages _).mpr (Or.inr ⟨i, ?_, rfl⟩)
      rw [Nat.mul_comm] at hi
      exact Nat.le_of_mul_le_mul_left hi (hugePageSize_pos hhp)

/-- What each region that the loop adds keeps holds behind it. -/
lemma preallocateLoop_induct {P : Nat → AddressMap → List PoolRegion → Prop}
    (hstep : ∀ {call table regions num node addr}, P call table regions →
      kernel.allocHugepageFn call (getHugePageSize hp) num node = some addr →
      P (call + 1) ((regionChunks kernel hp addr num).foldl AddressMap.assign table)
        (regions ++ [⟨addr, getHugePageSize hp * num⟩]))
    (fuel : Nat) : ∀ {call left numa table regions ok table' regions'}, P call table regions →
      PoolPages.preallocateLoop kernel hp fuel call left numa table regions = some (ok, table', regions') →
      ∃ call', P call' table' regions' := by
  induction fuel with
  | zero =>
    intro call left numa table regions ok table' regions' h hloop
    unfold PoolPages.preallocateLoop at hloop
    split at hloop
    · cases hloop
      exact ⟨call, h⟩
    · cases hloop
  | succ fuel ih =>
    intro call left numa table regions ok table' regions' h hloop
    unfold PoolPages.preallocateLoop at hloop
    split at hloop
    · split at hloop
      · cases hloop
        exact ⟨call, h⟩
      · cases hloop
    · dsimp only at hloop
      split at hloop
      · cases hloop
        exact ⟨call, h⟩
      · rename_i addr halloc
        split at hloop
        · cases hloop
          exact ⟨call, h⟩
        · split at hloop
          · cases hloop
            exact ⟨call, h⟩
          · exact ih (hstep h halloc) hloop

lemma init_entered (hkernel : MapsHugepages kernel) {opt : PoolInitOption} {pages pages' : PoolPages} {ok : Bool}
    (hnew : pages.initialized = false) (hinit : pages.init kernel opt = some (ok, pages')) :
    ok = false ∧ pages' = pages ∨
      opt.preallocPageSize ≠ .kUnknown ∧ pages'.initialized = ok ∧ ∃ table call rs, pages'.addrManager = some table ∧
        pages'.regions = pages.regions ++ rs ∧ Entered kernel opt.preallocPageSize call table rs := by
  unfold PoolPages.init at hinit
  rw [hnew, if_neg Bool.false_ne_true] at hinit
  split at hinit
  · cases hinit
    exact Or.inl ⟨rfl, rfl⟩
  · unfold preallocate at hinit
    split at hinit
    · cases hinit
    · rename_i hhp
      split at hinit
      · cases hinit
      · rename_i ok table regions hloop
        cases hinit
        right
        obtain ⟨call, rs, hregions, hentered⟩ := preallocateLoop_induct
          (P := fun call table regions => ∃ rs, regions = pages.regions ++ rs ∧
            Entered kernel opt.preallocPageSize call table rs)
          (by
            rintro call table _ num node addr ⟨rs, rfl, hentered⟩ halloc
            exact ⟨_, append_assoc _ _ _, hentered.region hkernel hhp halloc⟩)
          _ ⟨[], (append_nil _).symm, entered_empty kernel opt.preallocPageSize⟩ hloop
        exact ⟨hhp, rfl, table, call, rs, rfl, hregions, hentered⟩

lemma exists_chunks_of_hugePage (h : hp ≠ .kUnknown) : ∃ k, 0 < k ∧ getHugePageSize hp = k * kChunkSize := by
  cases hp with
  | k2MB => exact ⟨1, by decide, by decide⟩
  | k1GB => exact ⟨512, by decide, by decide⟩
  | k512MB => exact ⟨256, by decide, by decide⟩
  | kUnknown => exact absurd rfl h

section

variable (h : Entered kernel hp call table regions)
include h

lemma Entered.chunk_page (hhp : hp ≠ .kUnknown) {region : PoolRegion} (hregion : region ∈ regions) {a : Nat}
    (ha : a ∈ region.chunks) :
    ∃ start, pageAt kernel hp start ∈ pagesOf table ∧ start ≤ a ∧ a + kChunkSize ≤ start + getHugePageSize hp := by
  obtain ⟨k, hk, hsize⟩ := exists_chunks_of_hugePage hhp
  obtain ⟨j, hj, num, node, -, hlen⟩ := h.got region hregion
  obtain ⟨i, hi, rfl⟩ := mem_map.mp ha
  rw [mem_range, hlen, hsize] at hi
  have hchunk : 0 < kChunkSize := by decide
  have hnum : i < num * k := by
    rw [show k * kChunkSize * num = num * k * kChunkSize by ring, Nat.mul_div_cancel _ hchunk] at hi
    exact hi
  have hpage : i / k < num := Nat.div_lt_of_lt_mul (by rw [Nat.mul_comm]; exact hnum)
  have hlo : i / k * k ≤ i := Nat.div_mul_le_self i k
  have hhi : i + 1 ≤ (i / k + 1) * k := by
    have hmod := Nat.div_add_mod i k
    have hlt := Nat.mod_lt i hk
    rw [Nat.succ_mul, Nat.mul_comm]
    omega
  refine ⟨region.virtualAddr + i / k * getHugePageSize hp, h.entries region hregion (i / k) ?_, ?_, ?_⟩
  · rw [hlen, Nat.mul_comm]
    exact Nat.mul_le_mul_left _ hpage
  · rw [hsize, ← Nat.mul_assoc]
    exact Nat.add_le_add_left (Nat.mul_le_mul_right _ hlo) _
  · have hmul := Nat.mul_le_mul_right kChunkSize hhi
    rw [hsize, ← Nat.mul_assoc]
    rw [Nat.succ_mul, Nat.succ_mul, Nat.add_mul] at hmul
    omega

lemma Entered.exists_poolRegions (hkernel : MapsHugepages kernel) :
    ∃ rs : PoolRegions, rs.regions = regions := by
  refine ⟨⟨regions, ?_, h.apart⟩, rfl⟩
  intro region hregion
  obtain ⟨j, -, num, node, hgot, -⟩ := h.got region hregion
  exact hkernel.mapped _ _ _ _ _ hgot

lemma Entered.pageEnd_lt (hkernel : MapsHugepages kernel) (hc : c ∈ pagesOf table) : pageEnd c < 2 ^ 64 := by
  obtain ⟨region, hregion, -, hhi⟩ := h.pages c hc
  obtain ⟨j, -, num, node, hgot, hlen⟩ := h.got region hregion
  have hfits := hkernel.fits _ _ _ _ _ hgot
  omega

end

variable {p size maxNum : Nat} {order : List AlignType}

lemma Entered.block_page (h : Entered kernel hp call table regions) (hhp : hp ≠ .kUnknown) {rs : PoolRegions}
    (hrs : rs.regions = regions) {opt : MemoryPoolInitOption} {run : PoolRun}
    (hruns : PoolRuns opt (init rs) run) (hlive : (p, size) ∈ run.live) :
    ∃ start, pageAt kernel hp start ∈ pagesOf table ∧ start ≤ p ∧ p + size ≤ start + getHugePageSize hp := by
  obtain ⟨v, hinv⟩ := PoolRuns.poolInv hruns
  obtain ⟨a, ha, k, -, -, hlo, hhi, -⟩ := hinv.blocksExclusive.inside (p, size) hlive
  have hmem : a ∈ rs.chunks := (mem_filter.mp ha).1
  obtain ⟨region, hregion, hchunk⟩ := mem_flatMap.mp hmem
  obtain ⟨start, hpage, hstart, hend⟩ := h.chunk_page hhp (hrs ▸ hregion) hchunk
  exact ⟨start, hpage, by omega, by omega⟩

def cacheAfter (table : AddressMap) (lookups : List Lookup) : AddressMap :=
  lookups.foldl (fun cache l => (l.run table cache).2) AddressMap.empty

lemma SubMap.run (hsub : SubMap cache table) (h : PageTable table) (l : Lookup) : SubMap (l.run table cache).2 table := by
  cases l with
  | physAddr order vaddr => exact hsub.getPhysAddr h vaddr.isLt order
  | bound order vaddr vLen maxNum paddrs paddrSizes => exact SubMap.boundLoop h order maxNum hsub vaddr.isLt

lemma subMap_cacheAfter (h : PageTable table) (lookups : List Lookup) : SubMap (cacheAfter table lookups) table := by
  unfold cacheAfter
  induction lookups using List.reverseRecOn with
  | nil => exact subMap_empty table
  | append_singleton lookups l ih =>
    rw [foldl_append]
    exact ih.run h l

/-- The memory from `p` on has one segment. Its physical address is that of the page of `p` plus the
offset of `p`, as a number of 64 bits. -/
structure OneSegment (kernel : Kernel) (pageSize : Nat) (table : AddressMap) (order : List AlignType)
    (p size maxNum : Nat) (paddrs sizes : Nat → Nat) (cache : AddressMap) : Prop where
  ret : (getPhysAddrBound table order p size paddrs sizes maxNum cache).ret = 1
  len : (getPhysAddrBound table order p size paddrs sizes maxNum cache).paddrSizes 0 = size
  paddr : (getPhysAddrBound table order p size paddrs sizes maxNum cache).paddrs 0 =
    (kernel.physAddrOf (p - p % pageSize) + p % pageSize) % 2 ^ 64
  lookUp : lookUpAddrIfNotAcrossBound table p size paddrs sizes cache =
    (kernel.physAddrOf (p - p % pageSize) + p % pageSize) % 2 ^ 64

lemma bound_inside_page (h : PageTable table) (hends : ∀ c ∈ pagesOf table, pageEnd c < 2 ^ 64)
    (horder : order.Perm pageTypes) (hsub : SubMap cache table) (hc : c ∈ pagesOf table) {v len : Nat}
    (hlo : c.startAddr ≤ v) (hhi : v + len ≤ pageEnd c) (hlen : 0 < len) (hnum : 0 < maxNum)
    (paddrs sizes : Nat → Nat) :
    getPhysAddrBound table order v len paddrs sizes maxNum cache =
      ⟨1, Function.update paddrs 0 (physAddrAt c v), Function.update sizes 0 len, cache.assign c⟩ := by
  have hcuts : PageCuts table v len [(c, len)] := Cuts.single hc hlo hhi hlen
  have hlast := hends c hc
  exact boundLoop_cuts h horder hcuts (by omega) (fun c' hc' htop => absurd htop (hends c' hc').ne) hsub hnum

lemma Entered.oneSegment (h : Entered kernel hp call table regions) (hkernel : MapsHugepages kernel) {start : Nat}
    (hpage : pageAt kernel hp start ∈ pagesOf table) (hlo : start ≤ p) (hhi : p + size ≤ start + getHugePageSize hp)
    (hsize : 0 < size) (horder : order.Perm pageTypes) (hsub : SubMap cache table) (hnum : 0 < maxNum)
    (paddrs sizes : Nat → Nat) :
    OneSegment kernel (getHugePageSize hp) table order p size maxNum paddrs sizes cache := by
  have hends : ∀ c ∈ pagesOf table, pageEnd c < 2 ^ 64 := fun c hc => h.pageEnd_lt hkernel hc
  have hinside : p + size ≤ pageEnd (pageAt kernel hp start) := by
    rw [pageEnd_pageAt]
    exact hhi
  have hlt := hends _ hpage
  have hoffset : p % getHugePageSize hp = p - start := by
    obtain ⟨m, hm⟩ := h.isTable.aligned _ _ hpage
    rw [getChunkSize_pageAt] at hm
    change start = getHugePageSize hp * m at hm
    have hp' : p = (p - start) + getHugePageSize hp * m := by omega
    rw [hp', Nat.add_mul_mod_self_left, Nat.mod_eq_of_lt (by omega)]
    omega
  have hpaddr : physAddrAt (pageAt kernel hp start) p =
      (kernel.physAddrOf (p - p % getHugePageSize hp) + p % getHugePageSize hp) % 2 ^ 64 := by
    rw [physAddrAt_eq ⟨hlo, by omega⟩ (by omega), hoffset, Nat.sub_sub_self hlo]
    rfl
  have hbound := bound_inside_page h.isTable hends horder hsub hpage hlo hinside hsize hnum paddrs sizes
  have hdefault : defaultOrder.Perm pageTypes := by decide
  have htwo := bound_inside_page h.isTable hends hdefault hsub hpage hlo hinside hsize Nat.two_pos paddrs sizes
  have hfirst : Function.update paddrs 0 (physAddrAt (pageAt kernel hp start) p) 0 =
      (kernel.physAddrOf (p - p % getHugePageSize hp) + p % getHugePageSize hp) % 2 ^ 64 := by
    rw [update_self]
    exact hpaddr
  refine ⟨?_, ?_, ?_, ?_⟩
  · rw [hbound]
  · rw [hbound]
    simp only [update_self]
  · rw [hbound]
    exact hfirst
  · unfold lookUpAddrIfNotAcrossBound
    rw [htwo]
    dsimp only
    rw [if_pos rfl]
    exact hfirst

/-- Every block of a pool is one segment for the device, whatever was looked up before. -/
theorem pool_memory_one_segment (kernel : Kernel) (hkernel : MapsHugepages kernel) (opt : PoolInitOption)
    (pages : PoolPages) (hinit : PoolPages.new.init kernel opt = some (true, pages)) :
    ∃ (table : AddressMap) (rs : PoolRegions), pages.addrManager = some table ∧ rs.regions = pages.regions ∧
      ∀ run, PoolRuns opt.toMemoryPoolInitOption (init rs) run → ∀ p size, (p, size) ∈ run.live → 1 ≤ size →
        ∀ (lookups : List Lookup) (order : List AlignType), order.Perm pageTypes →
          ∀ maxNum, 1 ≤ maxNum → ∀ paddrs sizes : Nat → Nat,
            OneSegment kernel (getHugePageSize opt.preallocPageSize) table order p size maxNum paddrs sizes
              (cacheAfter table lookups) := by
  rcases init_entered hkernel rfl hinit with ⟨hfalse, -⟩ | ⟨hhp, -, table, call, rs, htable, hregions, hentered⟩
  · cases hfalse
  · have hregions' : pages.regions = rs := hregions
    obtain ⟨rs', hrs'⟩ := hentered.exists_poolRegions hkernel
    refine ⟨table, rs', htable, hrs'.trans hregions'.symm, ?_⟩
    intro run hruns p size hlive hsize lookups order horder maxNum hnum paddrs sizes
    obtain ⟨start, hpage, hlo, hhi⟩ := hentered.block_page hhp hrs' hruns hlive
    have hsub := subMap_cacheAfter hentered.isTable lookups
    exact hentered.oneSegment hkernel hpage hlo hhi hsize horder hsub hnum paddrs sizes

/-- A region of two pages at the second hugepage of the address space, with the frames of the
second gigabyte. -/
def sampleKernel : Kernel where
  allocHugepageFn call size num _ := if call = 0 ∧ size = 2097152 ∧ num = 2 then some 2097152 else none
  pagemap addr := addr / 4096 + 262144
  kpageflags _ := 2 ^ 17
  getpagesize := 4096

lemma mapsHugepages_sampleKernel : MapsHugepages sampleKernel := by
  have hone : ∀ {call size num node a}, sampleKernel.allocHugepageFn call size num node = some a →
      call = 0 ∧ size = 2097152 ∧ num = 2 ∧ a = 2097152 := by
    intro call size num node a h
    unfold sampleKernel at h
    dsimp only at h
    split at h
    · rename_i hcall
      exact ⟨hcall.1, hcall.2.1, hcall.2.2, (Option.some.inj h).symm⟩
    · cases h
  refine ⟨?_, ?_, ?_, ?_⟩
  · intro call size num node a h
    obtain ⟨-, rfl, -, rfl⟩ := hone h
    exact dvd_rfl
  · intro call size num node a h
    obtain ⟨-, -, -, rfl⟩ := hone h
    decide
  · intro call size num node a h
    obtain ⟨-, rfl, rfl, rfl⟩ := hone h
    decide
  · intro call call' size size' num num' node node' a a' hlt h h'
    have hcall := (hone h).1
    have hcall' := (hone h').1
    omega

def sampleOption : PoolInitOption := ⟨⟨64, 1, 1⟩, true, .k2MB, 4, fun _ => 0⟩

lemma init_sampleKernel : ∃ pages, PoolPages.new.init sampleKernel sampleOption = some (true, pages) ∧
    pages.regions = twoChunks.regions := by
  have hinit : (PoolPages.new.init sampleKernel sampleOption).map (fun x => (x.1, x.2.regions)) =
      some (true, twoChunks.regions) := by decide +kernel
  obtain ⟨⟨ok, pages⟩, heq, hmap⟩ := Option.map_eq_some_iff.mp hinit
  obtain ⟨rfl, hregions⟩ := Prod.mk.inj hmap
  exact ⟨pages, heq, hregions⟩

/-- The blocks that two threads hold. -/
theorem pool_memory_one_segment_sharedBlocks :
    ∃ pages table run, PoolPages.new.init sampleKernel sampleOption = some (true, pages) ∧
      pages.addrManager = some table ∧ PoolRuns ⟨64, 1, 1⟩ (init twoChunks) run ∧
      run.live.map Prod.snd = [524288, 400000] ∧ ∀ p size, (p, size) ∈ run.live →
        OneSegment sampleKernel 2097152 table defaultOrder p size 2 (fun _ => 0) (fun _ => 0) AddressMap.empty := by
  obtain ⟨pages, hinit, hregions⟩ := init_sampleKernel
  obtain ⟨table, rs, htable, hrs, hsegment⟩ :=
    pool_memory_one_segment sampleKernel mapsHugepages_sampleKernel sampleOption pages hinit
  obtain rfl : rs = twoChunks := by
    cases rs
    cases hrs.trans hregions
    rfl
  obtain ⟨run, hruns, _, hgoal⟩ := exists_runs_of_reaches (poolStep ⟨64, 1, 1⟩) (init twoChunks) sharedBlocks
    poolAllowed (fun r => decide (r.live.map Prod.snd = [524288, 400000])) (fun _ _ h => h) (by decide +kernel)
  have hgoal := of_decide_eq_true hgoal
  refine ⟨pages, table, run, hinit, htable, hruns, hgoal, ?_⟩
  intro p size hlive
  have hmem : size ∈ [524288, 400000] := hgoal ▸ List.mem_map_of_mem hlive
  have hsize : 1 ≤ size := by
    simp only [List.mem_cons, List.not_mem_nil, or_false] at hmem
    omega
  exact hsegment run hruns p size hlive hsize [] defaultOrder (by decide) 2 (by decide) _ _

end Vesal.Proofs
