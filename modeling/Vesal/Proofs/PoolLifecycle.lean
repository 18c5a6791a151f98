import Vesal.PoolLifecycle
import Vesal.Proofs.PoolTranslation

/-! # Initialising and resetting the pool -/

namespace Vesal.Proofs

open Library PoolPages List Bool ChunkPool

def UnmapsMapped : (mapped : List PoolRegion) → List HugepageOp → Prop
  | _, [] => True
  | mapped, op :: ops => (∀ region, op = .dealloc region → region ∈ mapped) ∧ UnmapsMapped (op.apply mapped) ops

/-- An `Init` that fails unmaps what it mapped. After one that succeeds the pool has the regions
that are mapped, and they are the ones of this call, unless the pool was initialised before; the
chunks lie in them and are counted. -/
structure InitHarmless (kernel : Kernel) (opt : PoolInitOption) (r : HugepageRun) (ok : Bool) (r' : HugepageRun) :
    Prop where
  failed : ok = false → mappedAfter [] (r.pages.initOps kernel opt) = []
  mapped : ok = true → r'.pages.regions = mappedAfter [] r'.ops
  fresh : ok = true → r.pages.initialized = false → r'.pages.regions = mappedAfter [] (r.pages.initOps kernel opt)
  inside : ok = true → ∀ a ∈ r'.pool.centralChunks, ∃ region ∈ r'.pages.regions,
    region.virtualAddr ≤ a ∧ a + kChunkSize ≤ region.virtualAddr + region.len
  counted : ok = true → r'.pool.chunkNum = r'.pool.totalChunkNum ∧
    r'.pool.totalChunkNum = (r'.pages.regions.map PoolRegion.len).sum / kChunkSize

def plannedRequests (hp : HugePageSize) : (fuel left : Nat) → (numa : List (Nat × Nat)) → List (Nat × Option Nat)
  | 0, _, _ => []
  | fuel + 1, left, numa =>
    if left = 0 then []
    else
      (nextPageNum hp left numa, numa.head?.map Prod.fst) ::
        plannedRequests hp fuel (left - nextPageNum hp left numa) (takeNuma (nextPageNum hp left numa) numa)

def requestsOfOption (opt : PoolInitOption) : List (Nat × Option Nat) :=
  plannedRequests opt.preallocPageSize (totalPageNum opt) (totalPageNum opt) (numaAllocPageNum opt)

def PagesAnswered (kernel : Kernel) (hp : HugePageSize) (call : Nat) (request : Nat × Option Nat) : Prop :=
  0 < request.1 ∧ ∃ addr, kernel.allocHugepageFn call (getHugePageSize hp) request.1 request.2 = some addr ∧
    ∀ i < request.1, kernel.physAddrOf (addr + i * getHugePageSize hp) ≠ 0

/-- The request after `n` answered ones gets pages, of which one has no physical address. -/
def PageMissing (kernel : Kernel) (hp : HugePageSize) (call n : Nat) (requests : List (Nat × Option Nat)) : Prop :=
  (∀ k < n, ∀ request, requests[k]? = some request → PagesAnswered kernel hp (call + k) request) ∧
    ∃ num node addr i, requests[n]? = some (num, node) ∧ i < num ∧
      kernel.allocHugepageFn (call + n) (getHugePageSize hp) num node = some addr ∧
      kernel.physAddrOf (addr + i * getHugePageSize hp) = 0

/-- The pool is initialised, or the option is refused; or no earlier call has left regions behind, the
operating system maps regions as it should, and the first request is not answered, all of them are, or
a page has no physical address. -/
def FailsCleanly (r : HugepageRun) : HugepageEvent → Prop
  | .init kernel opt => r.pages.initialized = true ∨ opt.validateInitOption = false ∨
      r.pages.regions = [] ∧ MapsHugepages kernel ∧
        ((∃ request, (requestsOfOption opt).head? = some request ∧ ¬ PagesAnswered kernel opt.preallocPageSize 0 request) ∨
          (∀ call request, (requestsOfOption opt)[call]? = some request →
            PagesAnswered kernel opt.preallocPageSize call request) ∨
          ∃ n, PageMissing kernel opt.preallocPageSize 0 n (requestsOfOption opt))
  | .reset => True

variable {kernel : Kernel} {hp : HugePageSize} {opt : PoolInitOption} {r r' : HugepageRun} {ops ops' : List HugepageOp}
  {mapped regions regions' : List PoolRegion} {numa : List (Nat × Nat)} {table table' : AddressMap} {ok : Bool}
  {call left : Nat}

variable {num : Nat} {pages : PoolPages}

/-- The calls unmap nothing but what is mapped, and behind them the regions of `after` are mapped. -/
structure Leaves (mapped : List PoolRegion) (ops : List HugepageOp) (after : List PoolRegion) : Prop where
  unmaps : UnmapsMapped mapped ops
  mapped : mappedAfter mapped ops = after

lemma Leaves.append (h : Leaves mapped ops regions) (h' : Leaves regions ops' regions') :
    Leaves mapped (ops ++ ops') regions' := by
  obtain ⟨hunmaps, rfl⟩ := h
  obtain ⟨hunmaps', hmapped⟩ := h'
  refine ⟨?_, foldl_append.trans hmapped⟩
  clear hmapped
  induction ops generalizing mapped with
  | nil => exact hunmaps'
  | cons op ops ih => exact ⟨hunmaps.1, ih hunmaps.2 hunmaps'⟩

lemma Leaves.alloc (hhp : hp ≠ .kUnknown) (hnum : num ≠ 0) {addr : Nat} {node : Option Nat}
    (h : Leaves (mapped ++ [⟨addr, getHugePageSize hp * num⟩]) ops regions) :
    Leaves mapped (.alloc (getHugePageSize hp) num node (some addr) :: ops) regions := by
  have hne : getHugePageSize hp * num ≠ 0 := Nat.mul_ne_zero (hugePageSize_pos hhp).ne' hnum
  have happly : HugepageOp.apply mapped (.alloc (getHugePageSize hp) num node (some addr)) =
      mapped ++ [⟨addr, getHugePageSize hp * num⟩] := if_neg hne
  rw [← happly] at h
  refine ⟨⟨?_, h.unmaps⟩, h.mapped⟩
  intro region heq
  cases heq

lemma leaves_deallocs (h : mapped.Perm regions) : Leaves mapped (regions.map .dealloc) [] := by
  induction regions generalizing mapped with
  | nil => exact ⟨trivial, h.eq_nil⟩
  | cons region regions ih =>
    have hrest : (HugepageOp.apply mapped (.dealloc region)).Perm regions := by
      have herase := h.erase region
      rw [erase_cons_head] at herase
      exact herase
    refine ⟨⟨?_, (ih hrest).unmaps⟩, (ih hrest).mapped⟩
    intro region' heq
    cases heq
    exact h.symm.subset mem_cons_self

lemma all_physAddr_iff {addr : Nat} :
    ((regionChunks kernel hp addr num).all fun c => c.physAddr ≠ 0) = true ↔
      ∀ i < num, kernel.physAddrOf (addr + i * getHugePageSize hp) ≠ 0 := by
  rw [all_eq_true]
  constructor
  · intro h i hi
    have hc := h _ (mem_map.mpr ⟨i, mem_range.mpr hi, rfl⟩)
    simpa using hc
  · intro h c hc
    obtain ⟨i, hi, rfl⟩ := mem_map.mp hc
    simpa using h i (mem_range.mp hi)

/-- A pass whose request is answered. -/
lemma preallocateLoop_pass (hhp : hp ≠ .kUnknown) (hleft : left ≠ 0) (fuel call : Nat) (table : AddressMap)
    (regions : List PoolRegion)
    (hanswered : PagesAnswered kernel hp call (nextPageNum hp left numa, numa.head?.map Prod.fst)) :
    ∃ region table', preallocateLoop kernel hp (fuel + 1) call left numa table regions =
        preallocateLoop kernel hp fuel (call + 1) (left - nextPageNum hp left numa)
          (takeNuma (nextPageNum hp left numa) numa) table' (regions ++ [region]) ∧
      ∀ after, Leaves (regions ++ [region]) (preallocateOps kernel hp fuel (call + 1) (left - nextPageNum hp left numa)
          (takeNuma (nextPageNum hp left numa) numa) (regions ++ [region])) after →
        Leaves regions (preallocateOps kernel hp (fuel + 1) call left numa regions) after := by
  obtain ⟨hnum, addr, haddr, hphys⟩ := hanswered
  have hne : nextPageNum hp left numa ≠ 0 := hnum.ne'
  refine ⟨⟨addr, getHugePageSize hp * nextPageNum hp left numa⟩,
    (regionChunks kernel hp addr (nextPageNum hp left numa)).foldl AddressMap.assign table, ?_, ?_⟩
  · rw [preallocateLoop, if_neg hleft]
    dsimp only
    rw [haddr]
    dsimp only
    rw [if_neg hne, all_physAddr_iff.mpr hphys]
    rfl
  · intro after h
    rw [preallocateOps, if_neg hleft]
    dsimp only
    rw [haddr]
    dsimp only
    rw [if_neg hne, all_physAddr_iff.mpr hphys]
    exact h.alloc hhp hne

lemma preallocateLoop_answered (hhp : hp ≠ .kUnknown) (fuel : Nat)
    (hanswered : ∀ k request, (plannedRequests hp fuel left numa)[k]? = some request →
      PagesAnswered kernel hp (call + k) request)
    (hloop : preallocateLoop kernel hp fuel call left numa table regions = some (ok, table', regions')) :
    ok = true ∧ Leaves regions (preallocateOps kernel hp fuel call left numa regions) regions' := by
  induction fuel generalizing call left numa table regions with
  | zero =>
    unfold preallocateLoop at hloop
    split at hloop
    · cases hloop
      exact ⟨rfl, trivial, rfl⟩
    · cases hloop
  | succ fuel ih =>
    by_cases hleft : left = 0
    · unfold preallocateLoop at hloop
      unfold preallocateOps
      rw [if_pos hleft] at hloop ⊢
      split at hloop
      · cases hloop
        exact ⟨rfl, trivial, rfl⟩
      · cases hloop
    · unfold plannedRequests at hanswered
      rw [if_neg hleft] at hanswered
      obtain ⟨region, table₁, heq, hleaves⟩ :=
        preallocateLoop_pass hhp hleft fuel call table regions (hanswered 0 _ rfl)
      rw [heq] at hloop
      obtain ⟨hok, hrest⟩ := ih (fun k request hk => by
        rw [Nat.add_assoc, Nat.add_comm 1 k]
        exact hanswered (k + 1) request hk) hloop
      exact ⟨hok, hleaves _ hrest⟩

/-- All that the call mapped is unmapped, with the regions from before. -/
lemma preallocateLoop_missing (hhp : hp ≠ .kUnknown) (fuel : Nat) {n : Nat}
    (hmissing : PageMissing kernel hp call n (plannedRequests hp fuel left numa))
    (hloop : preallocateLoop kernel hp fuel call left numa table regions = some (ok, table', regions')) :
    ok = false ∧ Leaves regions (preallocateOps kernel hp fuel call left numa regions) [] := by
  obtain ⟨hbefore, num, node, addr, i, hget, hi, halloc, hphys⟩ := hmissing
  induction fuel generalizing call left numa table regions n with
  | zero => cases hget
  | succ fuel ih =>
    unfold plannedRequests at hbefore hget
    by_cases hleft : left = 0
    · rw [if_pos hleft] at hget
      cases hget
    · rw [if_neg hleft] at hbefore hget
      cases n with
      | zero =>
        cases hget
        rw [Nat.add_zero] at halloc
        have hne : nextPageNum hp left numa ≠ 0 := by omega
        have hall : ((regionChunks kernel hp addr (nextPageNum hp left numa)).all fun c => c.physAddr ≠ 0) = false := by
          rw [← not_eq_true, all_physAddr_iff]
          exact fun hphys' => hphys' i hi hphys
        unfold preallocateLoop at hloop
        unfold preallocateOps
        rw [if_neg hleft] at hloop ⊢
        dsimp only at hloop ⊢
        rw [halloc] at hloop ⊢
        dsimp only at hloop ⊢
        rw [if_neg hne, hall] at hloop ⊢
        refine ⟨?_, (leaves_deallocs (perm_append_singleton _ regions)).alloc hhp hne⟩
        cases hloop
        rfl
      | succ n =>
        obtain ⟨region, table₁, heq, hleaves⟩ :=
          preallocateLoop_pass hhp hleft fuel call table regions (hbefore 0 (Nat.succ_pos n) _ rfl)
        have hshift : ∀ k, call + (k + 1) = call + 1 + k := fun k => by omega
        rw [heq] at hloop
        rw [hshift] at halloc
        obtain ⟨hok, hrest⟩ := ih hloop
          (fun k hk request hrequest => hshift k ▸ hbefore (k + 1) (Nat.succ_lt_succ hk) request hrequest) hget halloc
        exact ⟨hok, hleaves _ hrest⟩

lemma preallocateLoop_refused (hhp : hp ≠ .kUnknown) (fuel : Nat) {request : Nat × Option Nat}
    (hfirst : (plannedRequests hp fuel left numa).head? = some request) (hrefused : ¬ PagesAnswered kernel hp call request)
    (hloop : preallocateLoop kernel hp fuel call left numa table [] = some (ok, table', regions')) :
    ok = false ∧ Leaves [] (preallocateOps kernel hp fuel call left numa []) [] := by
  by_cases hmissing : PageMissing kernel hp call 0 (plannedRequests hp fuel left numa)
  · exact preallocateLoop_missing hhp fuel hmissing hloop
  · cases fuel with
    | zero => cases hfirst
    | succ fuel =>
      unfold preallocateLoop at hloop
      unfold plannedRequests at hfirst hmissing
      unfold preallocateOps
      by_cases hleft : left = 0
      · rw [if_pos hleft] at hfirst
        cases hfirst
      · rw [if_neg hleft] at hloop hfirst hmissing ⊢
        obtain rfl := Option.some.inj hfirst
        dsimp only at hloop ⊢
        cases halloc : kernel.allocHugepageFn call (getHugePageSize hp) (nextPageNum hp left numa)
            (numa.head?.map Prod.fst) with
        | none =>
          rw [halloc] at hloop
          cases hloop
          exact ⟨rfl, ⟨(fun _ heq => by cases heq), trivial⟩, rfl⟩
        | some addr =>
          rw [halloc] at hloop
          dsimp only at hloop ⊢
          by_cases hzero : nextPageNum hp left numa = 0
          · rw [if_pos hzero] at hloop ⊢
            cases hloop
            rw [hzero]
            exact ⟨rfl, ⟨(fun _ heq => by cases heq), trivial⟩, rfl⟩
          · refine absurd ⟨Nat.pos_of_ne_zero hzero, addr, halloc, fun i hi hphys => ?_⟩ hrefused
            exact hmissing ⟨fun k hk => absurd hk k.not_lt_zero, _, _, addr, i, rfl, hi, halloc, hphys⟩

lemma chunks_init (rs : PoolRegions) (hdvd : ∀ region ∈ rs.regions, kChunkSize ∣ region.len) :
    (∀ a ∈ (init rs).centralChunks, ∃ region ∈ rs.regions,
      region.virtualAddr ≤ a ∧ a + kChunkSize ≤ region.virtualAddr + region.len) ∧
    (init rs).chunkNum = (init rs).totalChunkNum ∧
    (init rs).totalChunkNum = (rs.regions.map PoolRegion.len).sum / kChunkSize := by
  have hinv := poolInv_init rs
  have hlist : (init rs).centralChunks = rs.chunks.reverse := hinv.centralChunks_eq
  have hnum : (init rs).totalChunkNum = rs.chunks.length := hinv.stored.totalChunkNum
  have hlength : ∀ regions : List PoolRegion, (∀ region ∈ regions, kChunkSize ∣ region.len) →
      (regions.flatMap PoolRegion.chunks).length = (regions.map PoolRegion.len).sum / kChunkSize := by
    intro regions
    induction regions with
    | nil => exact fun _ => rfl
    | cons region regions ih =>
      intro h
      have hrest := ih fun region' hregion' => h region' (mem_cons_of_mem _ hregion')
      rw [flatMap_cons, length_append, length_chunks, hrest, map_cons, sum_cons,
        Nat.add_div_of_dvd_right (h region mem_cons_self)]
  refine ⟨?_, rfl, hnum.trans (hlength rs.regions hdvd)⟩
  intro a ha
  rw [hlist, mem_reverse] at ha
  obtain ⟨region, hregion, hchunk⟩ := mem_flatMap.mp ha
  exact ⟨region, hregion, mem_region_chunks hchunk⟩

/-- What holds between the calls: the regions of the pool are the ones that are mapped, and before the
pool is initialised there are none. -/
structure PagesSettled (r : HugepageRun) : Prop where
  leaves : Leaves [] r.ops (if r.pages.initialized then r.pages.regions else [])
  fresh : r.pages.initialized = false → r.pool = empty
  made : r.pages.initialized = true → ∃ rs : PoolRegions, rs.regions = r.pages.regions ∧ r.pool = init rs ∧
    ∀ region ∈ rs.regions, kChunkSize ∣ region.len

lemma pagesSettled_new : PagesSettled HugepageRun.new where
  leaves := ⟨trivial, rfl⟩
  fresh _ := rfl
  made h := by cases h

lemma PagesSettled.reset (h : PagesSettled r) : PagesSettled r.reset := by
  unfold HugepageRun.reset
  cases hinit : r.pages.initialized with
  | false => exact h
  | true =>
    have hleaves := h.leaves
    have hpages : r.pages.reset = PoolPages.new := by
      unfold PoolPages.reset
      rw [hinit]
      rfl
    simp only [hinit, Bool.not_true, Bool.false_eq_true, if_false, if_true, hpages] at hleaves ⊢
    exact ⟨hleaves.append (leaves_deallocs (.refl _)), fun _ => rfl, fun hfalse => (Bool.noConfusion hfalse)⟩

lemma PagesSettled.harmless (h : PagesSettled r) (hinit : r.pages.initialized = true)
    (hfresh : r'.pages.initialized = false → r.pages.regions = mappedAfter [] (r'.pages.initOps kernel opt)) :
    InitHarmless kernel opt r' true r where
  failed hfalse := by cases hfalse
  mapped _ := by rw [h.leaves.mapped, hinit, if_pos rfl]
  fresh _ := hfresh
  inside _ := by
    obtain ⟨rs, hrs, hpool, hdvd⟩ := h.made hinit
    rw [hpool, ← hrs]
    exact (chunks_init rs hdvd).1
  counted _ := by
    obtain ⟨rs, hrs, hpool, hdvd⟩ := h.made hinit
    rw [hpool, ← hrs]
    exact (chunks_init rs hdvd).2

lemma init_loop {pages' : PoolPages} (hnew : pages.initialized = false) (hvalid : opt.validateInitOption = true)
    (hinit : pages.init kernel opt = some (ok, pages')) :
    opt.preallocPageSize ≠ .kUnknown ∧ pages'.initialized = ok ∧
      (∃ table, preallocateLoop kernel opt.preallocPageSize (totalPageNum opt) 0 (totalPageNum opt) (numaAllocPageNum opt)
        AddressMap.empty pages.regions = some (ok, table, pages'.regions)) ∧
      pages.initOps kernel opt = preallocateOps kernel opt.preallocPageSize (totalPageNum opt) 0 (totalPageNum opt)
        (numaAllocPageNum opt) pages.regions := by
  unfold PoolPages.init preallocate at hinit
  simp only [hnew, hvalid, Bool.false_eq_true, if_false, Bool.not_true] at hinit
  split at hinit
  · cases hinit
  · rename_i hhp
    split at hinit
    · cases hinit
    · rename_i ok table regions hloop
      cases hinit
      refine ⟨hhp, rfl, ⟨table, hloop⟩, ?_⟩
      unfold PoolPages.initOps
      simp only [hnew, hvalid, Bool.false_eq_true, if_false, Bool.not_true]

lemma PagesSettled.initialized (h : PagesSettled r) (hkernel : MapsHugepages kernel)
    (hnew : r.pages.initialized = false) (hnone : r.pages.regions = []) (hvalid : opt.validateInitOption = true)
    (hpages : r.pages.init kernel opt = some (ok, pages))
    (hanswered : ∀ call request, (requestsOfOption opt)[call]? = some request →
      PagesAnswered kernel opt.preallocPageSize call request) :
    ok = true ∧ PagesSettled ⟨pages, { pages.regions.foldl splitRegion r.pool with
        totalChunkNum := (pages.regions.foldl splitRegion r.pool).chunkNum },
      r.ops ++ r.pages.initOps kernel opt⟩ ∧ pages.regions = mappedAfter [] (r.pages.initOps kernel opt) := by
  have hempty := h.fresh hnew
  have hbefore := h.leaves
  obtain ⟨hhp, hok, ⟨table, hloop⟩, hops⟩ := init_loop hnew hvalid hpages
  rw [hnone] at hloop hops
  have hplanned : ∀ k request, (requestsOfOption opt)[k]? = some request →
      PagesAnswered kernel opt.preallocPageSize (0 + k) request := by
    intro k request hk
    rw [Nat.zero_add]
    exact hanswered k request hk
  obtain ⟨rfl, hleaves⟩ := preallocateLoop_answered hhp _ hplanned hloop
  rw [← hops] at hleaves
  rw [hnew] at hbefore
  refine ⟨rfl, ⟨?_, ?_, ?_⟩, hleaves.mapped.symm⟩
  · dsimp only
    rw [hok]
    exact hbefore.append hleaves
  · intro hfalse
    exact absurd (hok.symm.trans hfalse) (by simp)
  · intro _
    rcases init_entered hkernel hnew hpages with ⟨hfalse, -⟩ | ⟨-, -, _, _, rs, -, hrs, hentered⟩
    · cases hfalse
    · rw [hnone, nil_append] at hrs
      obtain ⟨rs', hrs'⟩ := hentered.exists_poolRegions hkernel
      refine ⟨rs', hrs'.trans hrs.symm, ?_, ?_⟩
      · dsimp only
        rw [hempty, hrs, ← hrs']
        rfl
      · intro region hregion
        obtain ⟨j, -, num, node, -, hlen⟩ := hentered.got region (hrs' ▸ hregion)
        obtain ⟨k, -, hk⟩ := exists_chunks_of_hugePage hhp
        rw [hlen, hk, Nat.mul_right_comm]
        exact Dvd.intro_left _ rfl

lemma PagesSettled.failed (h : PagesSettled r) (hnew : r.pages.initialized = false)
    (hfalse : pages.initialized = false) (hleaves : Leaves [] (r.pages.initOps kernel opt) []) :
    PagesSettled { r with pages := pages, ops := r.ops ++ r.pages.initOps kernel opt } ∧
      InitHarmless kernel opt r false { r with pages := pages, ops := r.ops ++ r.pages.initOps kernel opt } := by
  have hbefore := h.leaves
  rw [hnew] at hbefore
  refine ⟨⟨?_, fun _ => h.fresh hnew, ?_⟩, fun _ => hleaves.mapped, ?_, ?_, ?_, ?_⟩
  · dsimp only
    rw [hfalse]
    exact hbefore.append hleaves
  · intro htrue
    exact absurd (hfalse.symm.trans htrue) (by simp)
  all_goals
    intro htrue
    cases htrue

lemma PagesSettled.init (h : PagesSettled r) (hallowed : FailsCleanly r (.init kernel opt))
    (hstep : r.init kernel opt = .ok (ok, r')) : PagesSettled r' ∧ InitHarmless kernel opt r ok r' := by
  unfold HugepageRun.init at hstep
  cases hpages : r.pages.init kernel opt with
  | none =>
    rw [hpages] at hstep
    cases hstep
  | some result =>
    obtain ⟨ok', pages⟩ := result
    rw [hpages] at hstep
    dsimp only at hstep
    cases hnew : r.pages.initialized with
    | true =>
      rw [hnew, if_pos rfl] at hstep
      cases hstep
      obtain rfl : ok = true := by
        unfold PoolPages.init at hpages
        rw [hnew, if_pos rfl] at hpages
        cases hpages
        rfl
      refine ⟨h, h.harmless hnew ?_⟩
      intro hfalse
      rw [hnew] at hfalse
      cases hfalse
    | false =>
      rw [hnew, if_neg Bool.false_ne_true] at hstep
      cases hvalid : opt.validateInitOption with
      | false =>
        have hops : r.pages.initOps kernel opt = [] := by
          unfold PoolPages.initOps
          rw [hnew, hvalid]
          rfl
        unfold PoolPages.init at hpages
        rw [hnew, hvalid] at hpages
        cases hpages
        cases hstep
        exact h.failed hnew hnew (hops ▸ ⟨trivial, rfl⟩)
      | true =>
        obtain ⟨hhp, hok, ⟨table, hloop⟩, hops⟩ := init_loop hnew hvalid hpages
        rcases hallowed with hinit | hinvalid | ⟨hnone, hkernel, ⟨request, hfirst, hrefused⟩ | hanswered | ⟨n, hmissing⟩⟩
        · rw [hnew] at hinit
          cases hinit
        · rw [hvalid] at hinvalid
          cases hinvalid
        · rw [hnone] at hloop hops
          obtain ⟨rfl, hleaves⟩ := preallocateLoop_refused hhp _ hfirst hrefused hloop
          cases hstep
          exact h.failed hnew hok (hops ▸ hleaves)
        · obtain ⟨rfl, hsettled, hregions⟩ := h.initialized hkernel hnew hnone hvalid hpages hanswered
          simp only [Bool.not_true, Bool.false_eq_true, if_false] at hstep
          split at hstep
          · cases hstep
          · cases hstep
            exact ⟨hsettled, hsettled.harmless hok fun _ => hregions⟩
        · rw [hnone] at hloop hops
          obtain ⟨rfl, hleaves⟩ := preallocateLoop_missing hhp _ hmissing hloop
          cases hstep
          exact h.failed hnew hok (hops ▸ hleaves)

lemma PagesSettled.step (h : PagesSettled r) {ev : HugepageEvent} (hallowed : FailsCleanly r ev)
    (hstep : hugepageStep r ev = .ok r') : PagesSettled r' := by
  cases ev with
  | init kernel opt =>
    unfold hugepageStep at hstep
    dsimp only at hstep
    cases hinit : r.init kernel opt with
    | error fault =>
      rw [hinit] at hstep
      cases hstep
    | ok result =>
      obtain ⟨ok, r''⟩ := result
      rw [hinit] at hstep
      cases hstep
      exact (h.init hallowed hinit).1
  | reset =>
    cases hstep
    exact h.reset

/-- In a run in which every `Init` fails cleanly or not at all, no region is unmapped twice, and
every further `Init` of this kind is harmless. -/
theorem init_harmless_if_failing_cleanly (r : HugepageRun) (hruns : Runs hugepageStep FailsCleanly HugepageRun.new r) :
    UnmapsMapped [] r.ops ∧ ∀ kernel opt ok r', FailsCleanly r (.init kernel opt) →
      r.init kernel opt = .ok (ok, r') → InitHarmless kernel opt r ok r' := by
  have hsettled : PagesSettled r :=
    hruns.invariant (P := PagesSettled) pagesSettled_new fun _ _ _ h hallowed hstep => h.step hallowed hstep
  refine ⟨hsettled.leaves.unmaps, ?_⟩
  intro kernel opt ok r' hallowed hstep
  exact (hsettled.init hallowed hstep).2

lemma exists_of_any {ε α : Type} {x : Except ε α} {p : α → Bool} (h : x.toOption.any p = true) :
    ∃ a, x = .ok a ∧ p a = true := by
  cases x with
  | error fault => cases h
  | ok a => exact ⟨a, rfl, h⟩

/-- The pool of two chunks is initialised, reset and initialised again. -/
theorem init_harmless_after_reset :
    ∃ r r', Runs hugepageStep FailsCleanly HugepageRun.new r ∧ r.init sampleKernel sampleOption = .ok (true, r') ∧
      r'.ops.length = 3 ∧ UnmapsMapped [] r.ops ∧ InitHarmless sampleKernel sampleOption r true r' := by
  have hrequests : requestsOfOption sampleOption = [(2, none)] := by decide +kernel
  have hallowed : ∀ r : HugepageRun, r.pages.regions = [] → FailsCleanly r (.init sampleKernel sampleOption) := by
    intro r hnone
    refine .inr (.inr ⟨hnone, mapsHugepages_sampleKernel, .inr (.inl ?_)⟩)
    intro call request hrequest
    rw [hrequests] at hrequest
    obtain rfl : call = 0 := by
      have hlt := (List.getElem?_eq_some_iff.mp hrequest).1
      simpa using hlt
    cases hrequest
    refine ⟨by decide, 2097152, rfl, ?_⟩
    decide
  have hcomputed : (HugepageRun.new.init sampleKernel sampleOption).toOption.any (fun x =>
      decide (x.2.reset.pages.regions = []) &&
        (x.2.reset.init sampleKernel sampleOption).toOption.any fun y => y.1 && y.2.ops.length == 3) = true := by
    decide +kernel
  obtain ⟨⟨ok₁, r₁⟩, hfirst, hcomputed⟩ := exists_of_any hcomputed
  rw [and_eq_true, decide_eq_true_iff] at hcomputed
  obtain ⟨⟨ok₂, r₂⟩, hsecond, hlength⟩ := exists_of_any hcomputed.2
  rw [and_eq_true] at hlength
  obtain rfl : ok₂ = true := hlength.1
  have hruns : Runs hugepageStep FailsCleanly HugepageRun.new r₁.reset := by
    refine (Relation.ReflTransGen.single ⟨.init sampleKernel sampleOption, hallowed _ rfl, ?_⟩).tail ⟨.reset, trivial, rfl⟩
    change (HugepageRun.new.init sampleKernel sampleOption).map Prod.snd = .ok r₁
    rw [hfirst]
    rfl
  obtain ⟨hunmaps, hharmless⟩ := init_harmless_if_failing_cleanly r₁.reset hruns
  exact ⟨r₁.reset, r₂, hruns, hsecond, by simpa using hlength.2, hunmaps,
    hharmless _ _ _ _ (hallowed _ hcomputed.1) hsecond⟩

def pageByPage (n bad : Nat) : Kernel where
  allocHugepageFn call size num _ := if call < n ∧ size = 2097152 ∧ num = 1 then some ((call + 1) * 2097152) else none
  pagemap addr := if addr = bad then 0 else 1
  kpageflags _ := 0
  getpagesize := 4096

lemma mapsHugepages_pageByPage {n bad : Nat} (hn : n ≤ 2) : MapsHugepages (pageByPage n bad) := by
  have hone : ∀ {call size num node a}, (pageByPage n bad).allocHugepageFn call size num node = some a →
      call < n ∧ size = 2097152 ∧ num = 1 ∧ a = (call + 1) * 2097152 := by
    intro call size num node a h
    unfold pageByPage at h
    dsimp only at h
    split at h
    · rename_i hcall
      exact ⟨hcall.1, hcall.2.1, hcall.2.2, (Option.some.inj h).symm⟩
    · cases h
  refine ⟨?_, ?_, ?_, ?_⟩
  · intro call size num node a h
    obtain ⟨-, rfl, -, rfl⟩ := hone h
    exact Nat.dvd_mul_left _ _
  · intro call size num node a h
    obtain ⟨-, -, -, rfl⟩ := hone h
    omega
  · intro call size num node a h
    obtain ⟨hlt, rfl, rfl, rfl⟩ := hone h
    omega
  · intro call call' size size' num num' node node' a a' hlt h h'
    obtain ⟨-, rfl, rfl, rfl⟩ := hone h
    obtain ⟨-, rfl, rfl, rfl⟩ := hone h'
    left
    omega

def pagePerNode : PoolInitOption := ⟨⟨64, 1, 1⟩, true, .k2MB, 4, fun i => if i.val < 2 then 2 else 0⟩

/-- When there is no second page, the first one stays mapped. When the second page has no physical
address, both are unmapped but the first one stays in `regions_`; the next `Init` succeeds with
three chunks in two pages, and `Reset` unmaps the first page twice. -/
theorem init_failing_late_leaves_regions :
    (∀ n bad, n ≤ 2 → MapsHugepages (pageByPage n bad)) ∧
    (∃ r, HugepageRun.new.init (pageByPage 1 0) pagePerNode = .ok (false, r) ∧
      ¬ InitHarmless (pageByPage 1 0) pagePerNode HugepageRun.new false r) ∧
    ∃ r₁ r₂, HugepageRun.new.init (pageByPage 2 4194304) pagePerNode = .ok (false, r₁) ∧
      r₁.init (pageByPage 2 0) pagePerNode = .ok (true, r₂) ∧
      ¬ InitHarmless (pageByPage 2 0) pagePerNode r₁ true r₂ ∧ r₂.pool.chunkNum = 3 ∧ ¬ UnmapsMapped [] r₂.reset.ops := by
  have hleak : (HugepageRun.new.init (pageByPage 1 0) pagePerNode).toOption.any (fun x => !x.1) = true ∧
      mappedAfter [] (PoolPages.new.initOps (pageByPage 1 0) pagePerNode) ≠ [] := by decide +kernel
  have hstale : (HugepageRun.new.init (pageByPage 2 4194304) pagePerNode).toOption.any (fun x => !x.1 &&
      (x.2.init (pageByPage 2 0) pagePerNode).toOption.any fun y => y.1 && decide (y.2.pool.chunkNum = 3 ∧
        y.2.pages.regions ≠ mappedAfter [] y.2.ops ∧
        y.2.reset.ops = [.alloc 2097152 1 (some 0) (some 2097152), .alloc 2097152 1 (some 1) (some 4194304),
          .dealloc ⟨4194304, 2097152⟩, .dealloc ⟨2097152, 2097152⟩,
          .alloc 2097152 1 (some 0) (some 2097152), .alloc 2097152 1 (some 1) (some 4194304),
          .dealloc ⟨2097152, 2097152⟩, .dealloc ⟨2097152, 2097152⟩, .dealloc ⟨4194304, 2097152⟩])) = true := by
    decide +kernel
  refine ⟨fun n bad hn => mapsHugepages_pageByPage hn, ?_, ?_⟩
  · obtain ⟨⟨ok, r⟩, hinit, hok⟩ := exists_of_any hleak.1
    obtain rfl : ok = false := by simpa using hok
    exact ⟨r, hinit, fun h => hleak.2 (h.failed rfl)⟩
  · obtain ⟨⟨ok₁, r₁⟩, hfirst, hstale⟩ := exists_of_any hstale
    rw [and_eq_true] at hstale
    obtain rfl : ok₁ = false := by simpa using hstale.1
    obtain ⟨⟨ok₂, r₂⟩, hsecond, hstale⟩ := exists_of_any hstale.2
    rw [and_eq_true, decide_eq_true_iff] at hstale
    obtain ⟨hok, hnum, hregions, hops⟩ := hstale
    obtain rfl : ok₂ = true := hok
    refine ⟨r₁, r₂, hfirst, hsecond, fun h => hregions (h.mapped rfl), hnum, ?_⟩
    rw [hops]
    simp [UnmapsMapped, HugepageOp.apply]

end Vesal.Proofs
