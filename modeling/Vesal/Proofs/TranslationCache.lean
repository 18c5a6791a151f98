import Vesal.Proofs.PoolTranslation

/-! # The translation caches of the threads -/

namespace Vesal.Proofs

open Library AddressManager List Function Option

/-- Every look-up on every thread answers what the table alone answers: with the table for a cache
nothing else is asked. -/
def AnswersFromTable (r : TranslationRun) : Prop :=
  ∀ (t : Nat) (l : Lookup) (table : AddressMap), r.pages.addrManager = some table →
    (l.run table (r.caches t)).1 = (l.run table table).1

def PagesApart (q c : PhysChunk) : Prop := pageEnd q ≤ c.startAddr ∨ pageEnd c ≤ q.startAddr

/-- Pages that can be registered: each lies apart from the pages of the table and from the others,
or it takes the place of an entry for the same page that is the same or that no thread has cached. -/
structure RegistersApart (caches : Nat → AddressMap) (table : AddressMap) (chunks : List PhysChunk) : Prop where
  table : ∀ q ∈ chunks, ∀ c ∈ pagesOf table, PagesApart q c ∨
    q.startAddr = c.startAddr ∧ q.alignType = c.alignType ∧ (q = c ∨ ∀ t, caches t c.startAddr ≠ some c)
  each : ∀ q ∈ chunks, ∀ q' ∈ chunks, q = q' ∨ PagesApart q q'

/-- A step that keeps the caches up to date: `Init` makes a new table only while all caches are
empty, and `Register` changes no entry that a thread has cached. -/
def KeepsTranslations (r : TranslationRun) : TranslationEvent → Prop
  | .init kernel _ => MapsHugepages kernel ∧ (r.pages.initialized = true ∨ ∀ t, r.caches t = AddressMap.empty)
  | .reset _ => True
  | .register kernel infos => ∀ table, r.pages.addrManager = some table →
    RegistersApart r.caches table (externalChunks kernel infos)
  | .lookup _ _ => True

variable {table cache cache' : AddressMap} {order : List AlignType} {v : Nat} {r r' : TranslationRun}

lemma lookUpChunk_cache (h : PageTable table) (hsub : SubMap cache table) (hsub' : SubMap cache' table)
    (hv : v < 2 ^ 64) :
    (lookUpChunk table order v cache = none ∧ lookUpChunk table order v cache' = none) ∨
      ∃ c ∈ pagesOf table, lookUpChunk table order v cache = some (c, cache.assign c) ∧
        lookUpChunk table order v cache' = some (c, cache'.assign c) := by
  by_cases hpage : ∃ c ∈ pagesOf table, HasAddr c v ∧ c.alignType ∈ order
  · obtain ⟨c, hc, haddr, htype⟩ := hpage
    right
    exact ⟨c, hc, lookUpChunk_found h hsub hv hc haddr htype, lookUpChunk_found h hsub' hv hc haddr htype⟩
  · have hnone : ∀ c ∈ pagesOf table, HasAddr c v → c.alignType ∉ order :=
      fun c hc haddr htype => hpage ⟨c, hc, haddr, htype⟩
    exact Or.inl ⟨lookUpChunk_none h hsub hv hnone, lookUpChunk_none h hsub' hv hnone⟩

def answerOf (b : Bound) : LookupAnswer := .bound b.ret b.paddrs b.paddrSizes

lemma boundLoop_cache (h : PageTable table) (n : Nat) : ∀ {ret curr left paddrs sizes cache cache'},
    SubMap cache table → SubMap cache' table → curr < 2 ^ 64 →
      answerOf (boundLoop table order n ret curr left paddrs sizes cache) =
        answerOf (boundLoop table order n ret curr left paddrs sizes cache') := by
  induction n with
  | zero =>
    intro ret curr left paddrs sizes cache cache' hsub hsub' hcurr
    rfl
  | succ n ih =>
    intro ret curr left paddrs sizes cache cache' hsub hsub' hcurr
    unfold AddressManager.boundLoop
    by_cases hleft : left = 0
    · rw [if_pos hleft, if_pos hleft]
      rfl
    · rw [if_neg hleft, if_neg hleft]
      rcases lookUpChunk_cache (v := curr) h hsub hsub' hcurr with ⟨hnone, hnone'⟩ | ⟨c, hc, hfound, hfound'⟩
      · rw [hnone, hnone']
        rfl
      · rw [hfound, hfound']
        dsimp only
        split
        · exact ih (hsub.assign hc) (hsub'.assign hc) hcurr
        · exact ih (hsub.assign hc) (hsub'.assign hc) (Nat.mod_lt _ (by decide))

lemma subMap_self (table : AddressMap) : SubMap table table := fun _ _ hc => hc

lemma run_cache (h : PageTable table) (hsub : SubMap cache table) (l : Lookup) :
    (l.run table cache).1 = (l.run table table).1 := by
  cases l with
  | physAddr order vaddr =>
    have hsame : (lookUpChunk table order vaddr cache = none ∧ lookUpChunk table order vaddr table = none) ∨ _ :=
      lookUpChunk_cache h hsub (subMap_self table) vaddr.isLt
    apply congrArg LookupAnswer.physAddr
    change (getPhysAddr table order vaddr cache).1 = (getPhysAddr table order vaddr table).1
    unfold getPhysAddr
    rcases hsame with ⟨hnone, hnone'⟩ | ⟨c, -, hfound, hfound'⟩
    · rw [hnone, hnone']
    · rw [hfound, hfound']
  | bound order vaddr vLen maxNum paddrs paddrSizes =>
    exact boundLoop_cache h maxNum hsub (subMap_self table) vaddr.isLt

variable {info : MemoryInfo} {infos : List MemoryInfo}

section

variable (h : validateExternalMemInfo info = true)
include h

lemma validateExternalMemInfo_cases : (info.pageSize = vesalPagesize 30 ∨ info.pageSize = vesalPagesize 21 ∨
    info.pageSize = vesalPagesize 29) ∧ vesalIsPageAligned info.virtualAddr info.pageSize = true ∧
      info.len % info.pageSize = 0 := by
  unfold validateExternalMemInfo at h
  split at h
  · cases h
  split at h
  · cases h
  split at h
  · cases h
  split at h
  · cases h
  split at h
  · cases h
  rename_i hsize haligned hmod
  refine ⟨?_, by simpa using haligned, not_not.mp hmod⟩
  by_contra hnone
  apply hsize
  simpa [not_or] using hnone

lemma pageSize_of_validate : pageSizeToAlignType info.pageSize ∈ pageTypes ∧
    alignTypeToPageSize (pageSizeToAlignType info.pageSize) = info.pageSize := by
  rcases (validateExternalMemInfo_cases h).1 with heq | heq | heq
  · rw [heq]
    decide
  · rw [heq]
    decide
  · rw [heq]
    decide

lemma aligned_of_validate : info.pageSize ∣ info.virtualAddr := by
  obtain ⟨htype, hsize⟩ := pageSize_of_validate h
  obtain ⟨k, hk, hpow⟩ := exists_pageSize htype
  rw [hsize] at hpow
  have haligned : info.virtualAddr = vesalPageAlign info.virtualAddr info.pageSize := by
    simpa [vesalIsPageAligned] using (validateExternalMemInfo_cases h).2.1
  have hpos := Nat.two_pow_pos k
  unfold vesalPageAlign vesalPagemask at haligned
  rw [hpow, Nat.mod_eq_of_lt (by omega)] at haligned
  -- a masked address has 64 bits
  have hlt : info.virtualAddr < 2 ^ 64 := by
    have hle : info.virtualAddr &&& (2 ^ 64 - 2 ^ k) ≤ 2 ^ 64 - 2 ^ k := Nat.and_le_right
    omega
  rw [land_pagemask (by omega) hlt] at haligned
  rw [hpow, haligned]
  exact Nat.dvd_mul_left _ _

end

variable {kernel : Kernel}

lemma externalChunks_page (hvalid : infos.all validateExternalMemInfo = true) {q : PhysChunk}
    (hq : q ∈ externalChunks kernel infos) :
    q.alignType ∈ pageTypes ∧ q.getChunkSize ∣ q.startAddr ∧ q.startAddr < 2 ^ 64 := by
  obtain ⟨info, hinfo, hq⟩ := mem_flatMap.mp hq
  obtain ⟨i, -, rfl⟩ := mem_map.mp hq
  have hvalidInfo := all_eq_true.mp hvalid info hinfo
  obtain ⟨htype, hsize⟩ := pageSize_of_validate hvalidInfo
  obtain ⟨k, hk, hpow⟩ := exists_pageSize htype
  refine ⟨htype, ?_, Nat.mod_lt _ (by decide)⟩
  unfold PhysChunk.getChunkSize
  have hdvd : info.pageSize ∣ 2 ^ 64 := by
    rw [← hsize, hpow]
    exact Nat.pow_dvd_pow 2 (by omega)
  rw [hsize, Nat.dvd_mod_iff hdvd]
  exact Nat.dvd_add (aligned_of_validate hvalidInfo) (Nat.dvd_mul_left _ _)

lemma RegistersApart.foldl {caches : Nat → AddressMap} {chunks : List PhysChunk} (h : RegistersApart caches table chunks)
    (hpages : ∀ q ∈ chunks, q.alignType ∈ pageTypes ∧ q.getChunkSize ∣ q.startAddr ∧ q.startAddr < 2 ^ 64)
    {todo : List PhysChunk} (htodo : ∀ q ∈ todo, q ∈ chunks) : ∀ {now : AddressMap}, PageTable now →
      (∀ c ∈ pagesOf now, c ∈ pagesOf table ∨ c ∈ chunks) → (∀ t, SubMap (caches t) now) →
      PageTable (todo.foldl AddressMap.assign now) ∧ ∀ t, SubMap (caches t) (todo.foldl AddressMap.assign now) := by
  induction todo with
  | nil =>
    intro now hnow hfrom hsub
    exact ⟨hnow, hsub⟩
  | cons q todo ih =>
    intro now hnow hfrom hsub
    have hq := htodo q mem_cons_self
    obtain ⟨htype, haligned, hlt⟩ := hpages q hq
    -- an entry of now lies apart from the page, or is for this page
    have hsides : ∀ c ∈ pagesOf now, PagesApart q c ∨
        q.startAddr = c.startAddr ∧ (q = c ∨ ∀ t, caches t c.startAddr ≠ some c) := by
      intro c hc
      rcases hfrom c hc with hold | hchunk
      · exact (h.table q hq c hold).imp_right fun hsame => ⟨hsame.1, hsame.2.2⟩
      · rcases h.each q hq c hchunk with rfl | hapart
        · exact Or.inr ⟨rfl, Or.inl rfl⟩
        · exact Or.inl hapart
    have hassign : PageTable (now.assign q) := by
      apply hnow.assign htype haligned hlt
      intro c hc hne
      rcases hsides c hc with hapart | ⟨hstart, -⟩
      · exact hapart
      · exact absurd hstart.symm hne
    refine ih (fun q' hq' => htodo q' (mem_cons_of_mem _ hq')) hassign ?_ ?_
    · intro c hc
      rcases mem_pagesOf_assign.mp hc with rfl | ⟨-, hold⟩
      · exact Or.inr hq
      · exact hfrom c hold
    · intro t a c hcached
      have hentry := hsub t a c hcached
      by_cases ha : a = q.startAddr
      · have hc := hnow.mem_pagesOf hentry
        have hkey := hnow.key a c hentry
        have hsame : q = c := by
          rcases hsides c hc with hapart | ⟨-, heq | huncached⟩
          · have hsize := hnow.size_pos hc
            have hsize' : 0 < q.getChunkSize := hassign.size_pos (update_self _ _ _)
            unfold PagesApart pageEnd at hapart
            omega
          · exact heq
          · rw [hkey] at huncached
            exact absurd hcached (huncached t)
        rw [ha, ← hsame]
        exact update_self _ _ _
      · exact (update_of_ne ha _ _).trans hentry

def Coherent (r : TranslationRun) : Prop :=
  ∀ table, r.pages.addrManager = some table → PageTable table ∧ ∀ t, SubMap (r.caches t) table

lemma coherent_new : Coherent TranslationRun.new := by
  intro table htable
  cases htable

lemma Coherent.init (h : Coherent r) {opt : PoolInitOption} {ok : Bool} {pages : PoolPages}
    (hkeeps : KeepsTranslations r (.init kernel opt)) (hinit : r.pages.init kernel opt = some (ok, pages)) :
    Coherent { r with pages := pages } := by
  obtain ⟨hkernel, hcaches⟩ := hkeeps
  cases hinitialized : r.pages.initialized with
  | true =>
    unfold PoolPages.init at hinit
    rw [hinitialized, if_pos rfl] at hinit
    cases hinit
    exact h
  | false =>
    rcases init_entered hkernel hinitialized hinit with ⟨-, rfl⟩ | ⟨-, -, table, call, rs, htable, -, hentered⟩
    · exact h
    · intro table' htable'
      obtain rfl : table = table' := some.inj (htable.symm.trans htable')
      refine ⟨hentered.isTable, fun t => ?_⟩
      have hempty : r.caches t = AddressMap.empty := by
        rcases hcaches with htrue | hempty
        · rw [hinitialized] at htrue
          cases htrue
        · exact hempty t
      rw [hempty]
      exact subMap_empty table

lemma addExternalEntries_cases (kernel : Kernel) (infos : List MemoryInfo) (table : AddressMap) :
    addExternalEntries kernel infos table = (false, table) ∨ infos.all validateExternalMemInfo = true ∧
      addExternalEntries kernel infos table = (true,
        ((externalChunks kernel infos).take (externalChunkNum infos)).foldl AddressMap.assign table) := by
  unfold addExternalEntries
  dsimp only
  split
  · exact Or.inl rfl
  · rename_i hvalid
    split
    · exact Or.inl rfl
    · split
      · exact Or.inl rfl
      · exact Or.inr ⟨by simpa using hvalid, rfl⟩

lemma Coherent.register (h : Coherent r) (hkeeps : KeepsTranslations r (.register kernel infos)) :
    Coherent { r with pages := (r.pages.register kernel infos).2 } := by
  unfold PoolPages.register
  split
  · exact h
  · split
    · exact h
    · rename_i table htable
      obtain ⟨hpages, hsub⟩ := h table htable
      intro table' htable'
      rcases addExternalEntries_cases kernel infos table with hfalse | ⟨hvalid, htrue⟩
      · rw [hfalse] at htable'
        cases htable'
        exact ⟨hpages, hsub⟩
      · rw [htrue] at htable'
        cases htable'
        exact (hkeeps table htable).foldl (fun q hq => externalChunks_page hvalid hq) (fun q hq => mem_of_mem_take hq)
          hpages (fun c hc => Or.inl hc) hsub

lemma Coherent.step {ev : TranslationEvent} (h : Coherent r) (hkeeps : KeepsTranslations r ev)
    (hstep : translationStep r ev = .ok r') : Coherent r' := by
  cases ev with
  | init kernel opt =>
    unfold translationStep at hstep
    dsimp only at hstep
    split at hstep
    · cases hstep
    · rename_i ok pages hinit
      cases hstep
      exact h.init hkeeps hinit
  | reset t =>
    unfold translationStep at hstep
    dsimp only at hstep
    split at hstep
    · cases hstep
      exact h
    · rename_i hinitialized
      cases hstep
      intro table htable
      unfold PoolPages.reset at htable
      dsimp only at htable
      rw [if_neg hinitialized] at htable
      cases htable
  | register kernel infos =>
    cases hstep
    exact h.register hkeeps
  | lookup t l =>
    unfold translationStep at hstep
    dsimp only at hstep
    split at hstep
    · cases hstep
    · rename_i table htable
      cases hstep
      intro table' htable'
      obtain rfl : table = table' := some.inj (htable.symm.trans htable')
      obtain ⟨hpages, hsub⟩ := h table htable
      refine ⟨hpages, fun t' => ?_⟩
      by_cases ht : t' = t
      · subst ht
        dsimp only
        rw [update_self]
        exact (hsub t').run hpages l
      · dsimp only
        rw [update_of_ne ht]
        exact hsub t'

def remappedKernel : Kernel := { sampleKernel with pagemap := fun addr => addr / 4096 + 524288 }

def sampleInfo : MemoryInfo := ⟨1073741824, 2097152, 2097152⟩

/-- A thread has looked up an address before its page is registered again with another frame: it
still gets the old physical address. -/
theorem translation_cache_stale :
    ∃ r table, Runs translationStep (fun _ _ => True) TranslationRun.new r ∧ r.pages.addrManager = some table ∧
      (getPhysAddr table defaultOrder 1073741824 (r.caches 1)).1 = 2147483648 ∧
      (getPhysAddr table defaultOrder 1073741824 table).1 = 3221225472 ∧ ¬ AnswersFromTable r := by
  obtain ⟨r, hruns, -, hgoal⟩ := exists_runs_of_reaches translationStep TranslationRun.new
    [.init sampleKernel sampleOption, .register sampleKernel [sampleInfo],
      .lookup 1 (.physAddr defaultOrder 1073741824), .register remappedKernel [sampleInfo]]
    (fun _ _ => true)
    (fun r => r.pages.addrManager.any fun table =>
      decide ((getPhysAddr table defaultOrder 1073741824 (r.caches 1)).1 = 2147483648 ∧
        (getPhysAddr table defaultOrder 1073741824 table).1 = 3221225472))
    (fun _ _ _ => trivial) (by decide +kernel)
  cases htable : r.pages.addrManager with
  | none =>
    rw [htable] at hgoal
    cases hgoal
  | some table =>
    rw [htable] at hgoal
    obtain ⟨hcached, hfresh⟩ := of_decide_eq_true hgoal
    refine ⟨r, table, hruns, htable, hcached, hfresh, ?_⟩
    intro hanswers
    have hsame := hanswers 1 (.physAddr defaultOrder 1073741824) table htable
    have hpaddr : (getPhysAddr table defaultOrder 1073741824 (r.caches 1)).1 =
        (getPhysAddr table defaultOrder 1073741824 table).1 := LookupAnswer.physAddr.inj hsame
    rw [hcached, hfresh] at hpaddr
    cases hpaddr

/-- In every run whose steps keep the caches up to date, every look-up answers from the table. -/
theorem translation_cache_answers (r : TranslationRun)
    (hruns : Runs translationStep KeepsTranslations TranslationRun.new r) : AnswersFromTable r := by
  have hcoherent : Coherent r :=
    hruns.invariant (P := Coherent) coherent_new fun _ _ _ h hkeeps hstep => h.step hkeeps hstep
  intro t l table htable
  obtain ⟨hpages, hsub⟩ := hcoherent table htable
  exact run_cache hpages (hsub t) l

lemma init_samplePool :
    ∃ pages table call, translationStep TranslationRun.new (.init sampleKernel sampleOption) =
        .ok { TranslationRun.new with pages := pages } ∧ pages.initialized = true ∧
      pages.addrManager = some table ∧ Entered sampleKernel .k2MB call table twoChunks.regions := by
  obtain ⟨pages, hinit, hregions⟩ := init_sampleKernel
  rcases init_entered mapsHugepages_sampleKernel rfl hinit with ⟨hfalse, -⟩ | ⟨-, hok, table, call, rs, htable, hrs, hentered⟩
  · cases hfalse
  obtain rfl : rs = twoChunks.regions := hrs.symm.trans hregions
  refine ⟨pages, table, call, ?_, hok, htable, hentered⟩
  unfold translationStep
  dsimp only
  rw [show TranslationRun.new.pages = PoolPages.new from rfl, hinit]

/-- A thread looks up an address, and other memory is registered. -/
theorem translation_cache_answers_after_register :
    ∃ r, Runs translationStep KeepsTranslations TranslationRun.new r ∧ r.pages.addrManager ≠ none ∧
      AnswersFromTable r := by
  obtain ⟨pages, table, call, hinitStep, hok, htable, hentered⟩ := init_samplePool
  have hstart : Runs translationStep KeepsTranslations TranslationRun.new TranslationRun.new := Relation.ReflTransGen.refl
  have hkeepsInit : KeepsTranslations TranslationRun.new (.init sampleKernel sampleOption) :=
    ⟨mapsHugepages_sampleKernel, Or.inr fun _ => rfl⟩
  have hinited := hstart.tail ⟨_, hkeepsInit, hinitStep⟩
  let l : Lookup := .physAddr defaultOrder 2097152
  let r : TranslationRun := ⟨pages, Function.update (fun _ => AddressMap.empty) 1 (l.run table AddressMap.empty).2⟩
  have hlookupStep : translationStep { TranslationRun.new with pages := pages } (.lookup 1 l) = .ok r := by
    unfold translationStep
    dsimp only
    rw [htable]
    rfl
  have hlooked := hinited.tail ⟨.lookup 1 l, trivial, hlookupStep⟩
  have hkeeps : KeepsTranslations r (.register sampleKernel [sampleInfo]) := by
    intro table' htable'
    obtain rfl : table = table' := some.inj (htable.symm.trans htable')
    refine ⟨?_, ?_⟩
    · intro q hq c hc
      -- the pages of the pool lie below the registered one
      have hq' : q.startAddr = 1073741824 := by
        obtain rfl := List.mem_singleton.mp hq
        rfl
      obtain ⟨region, hregion, -, hend⟩ := hentered.pages c hc
      obtain rfl := List.mem_singleton.mp hregion
      left
      right
      rw [hq']
      exact hend.trans (by decide)
    · intro q hq q' hq'
      left
      rw [List.mem_singleton.mp hq, List.mem_singleton.mp hq']
  have hregistered := hlooked.tail ⟨_, hkeeps, rfl⟩
  refine ⟨_, hregistered, ?_, translation_cache_answers _ hregistered⟩
  change (pages.register sampleKernel [sampleInfo]).2.addrManager ≠ none
  unfold PoolPages.register
  rw [hok, htable]
  exact some_ne_none _

end Vesal.Proofs
