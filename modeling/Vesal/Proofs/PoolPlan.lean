import Mathlib.Algebra.Order.Floor.Div
import Vesal.PoolLifecycle
import Vesal.Proofs.PoolTranslation

/-! # The pages that `Preallocate` asks for -/

namespace Vesal.Proofs

open PoolPages List

def pageRequest : HugepageOp → Option (Nat × Option Nat)
  | .alloc _ pageNum node _ => some (pageNum, node)
  | .dealloc _ => none

def requestsOf (ops : List HugepageOp) : List (Nat × Option Nat) := ops.filterMap pageRequest

def pagesFor (node : Option Nat) (ops : List HugepageOp) : Nat :=
  (((requestsOf ops).filter fun request => request.2 = node).map Prod.fst).sum

def pagesOfMb (hp : HugePageSize) (mb : Nat) : Nat := mb * 1024 * 1024 ⌈/⌉ getHugePageSize hp

/-- The requests are those of the option: to every node its pages, and unbound pages only when no
node is given. -/
structure Planned (opt : PoolInitOption) (ops : List HugepageOp) : Prop where
  nodes : ∀ i : Fin kMaxNodeNum, pagesFor (some i) ops = pagesOfMb opt.preallocPageSize (opt.preallocNumaMb i)
  others : ∀ node, kMaxNodeNum ≤ node → pagesFor (some node) ops = 0
  unbound : pagesFor none ops =
    if ∀ i, opt.preallocNumaMb i = 0 then pagesOfMb opt.preallocPageSize opt.preallocSizeMb else 0

/-- A page that was handed out for one of the requests has no physical address. -/
def UnknownPage (kernel : Kernel) (hp : HugePageSize) (ops : List HugepageOp) : Prop :=
  ∃ num node addr i, HugepageOp.alloc (getHugePageSize hp) num node (some addr) ∈ ops ∧ i < num ∧
    kernel.physAddrOf (addr + i * getHugePageSize hp) = 0

variable {kernel : Kernel} {hp : HugePageSize} {opt : PoolInitOption} {numa : List (Nat × Nat)}
  {ops : List HugepageOp} {left : Nat}

lemma roundUp_add_le {s : Nat} (hs : 0 < s) (x y : Nat) : (x + y + s - 1) / s ≤ (x + s - 1) / s + (y + s - 1) / s := by
  have hx := Nat.lt_div_mul_add (a := x + s - 1) hs
  have hy := Nat.lt_div_mul_add (a := y + s - 1) hs
  apply Nat.le_of_lt_succ
  rw [Nat.div_lt_iff_lt_mul hs, Nat.succ_mul, Nat.add_mul]
  omega

lemma pagesOfMb_eq (hp : HugePageSize) (mb : Nat) :
    pagesOfMb hp mb = (mb * 1024 * 1024 + getHugePageSize hp - 1) / getHugePageSize hp :=
  Nat.ceilDiv_eq_add_pred_div _ _

section

variable (hhp : hp ≠ .kUnknown)
include hhp

lemma pagesOfMb_add_le (m n : Nat) : pagesOfMb hp (m + n) ≤ pagesOfMb hp m + pagesOfMb hp n := by
  have hle := roundUp_add_le (hugePageSize_pos hhp) (m * 1024 * 1024) (n * 1024 * 1024)
  rw [← Nat.add_mul, ← Nat.add_mul] at hle
  rw [pagesOfMb_eq, pagesOfMb_eq, pagesOfMb_eq]
  exact hle

lemma pagesOfMb_zero : pagesOfMb hp 0 = 0 := by
  have hpos := hugePageSize_pos hhp
  exact Nat.div_eq_of_lt (by omega)

lemma pagesOfMb_pos {mb : Nat} (hmb : 0 < mb) : 0 < pagesOfMb hp mb := by
  have hpos := hugePageSize_pos hhp
  exact Nat.div_pos (by omega) hpos

variable {n num : Nat}

lemma pagesOfMb_sum_le (mb : Fin n → Nat) :
    pagesOfMb hp (∑ i, mb i) ≤ ∑ i, pagesOfMb hp (mb i) := by
  induction n with
  | zero => exact (pagesOfMb_zero hhp).le
  | succ n ih =>
    rw [Fin.sum_univ_succ, Fin.sum_univ_succ]
    exact (pagesOfMb_add_le hhp _ _).trans (Nat.add_le_add_left (ih _) _)

end

def nodePages (node : Nat) (numa : List (Nat × Nat)) : Nat := ((numa.filter fun x => x.1 = node).map Prod.snd).sum

lemma nodePages_cons (node k m : Nat) (numa : List (Nat × Nat)) :
    nodePages node ((k, m) :: numa) = (if k = node then m else 0) + nodePages node numa := by
  unfold nodePages
  by_cases hk : k = node
  · simp [hk]
  · simp [hk]

lemma pagesFor_cons (node node' : Option Nat) (size num : Nat) (answer : Option Nat) (ops : List HugepageOp) :
    pagesFor node (.alloc size num node' answer :: ops) = (if node' = node then num else 0) + pagesFor node ops := by
  unfold pagesFor requestsOf
  by_cases hnode : node' = node
  · simp [pageRequest, hnode]
  · simp [pageRequest, hnode]

section

variable (hpos : ∀ x ∈ numa, 0 < x.2)
include hpos

lemma takeNuma_spec (hn : ∀ k m rest, numa = (k, m) :: rest → n ≤ m) :
    (∀ x ∈ takeNuma n numa, 0 < x.2) ∧
      ((takeNuma n numa).map Prod.snd).sum + (if numa.head?.map Prod.fst = none then 0 else n) = (numa.map Prod.snd).sum ∧
      ∀ node, nodePages node (takeNuma n numa) + (if numa.head?.map Prod.fst = some node then n else 0) =
        nodePages node numa := by
  cases numa with
  | nil => exact ⟨hpos, rfl, fun _ => rfl⟩
  | cons x numa =>
    obtain ⟨k, m⟩ := x
    have hm := hn k m numa rfl
    simp only [takeNuma, head?_cons, Option.map_some, reduceCtorEq, if_false, Option.some.injEq]
    by_cases hzero : m - n = 0
    · rw [if_pos hzero]
      refine ⟨fun x hx => hpos x (mem_cons_of_mem _ hx), ?_, ?_⟩
      · rw [map_cons, sum_cons]
        omega
      · intro node
        rw [nodePages_cons]
        split
        · omega
        · omega
    · rw [if_neg hzero]
      refine ⟨?_, ?_, ?_⟩
      · intro x hx
        rcases mem_cons.mp hx with rfl | hx
        · exact Nat.pos_of_ne_zero hzero
        · exact hpos x (mem_cons_of_mem _ hx)
      · rw [map_cons, map_cons, sum_cons, sum_cons]
        omega
      · intro node
        rw [nodePages_cons, nodePages_cons]
        split
        · omega
        · omega

lemma sum_takeNuma_le (hn : ∀ k m rest, numa = (k, m) :: rest → n ≤ m) (hsum : (numa.map Prod.snd).sum ≤ left) :
    ((takeNuma n numa).map Prod.snd).sum ≤ left - n := by
  obtain ⟨-, hsum', -⟩ := takeNuma_spec hpos hn
  split at hsum'
  · rename_i hnone
    have hnil : numa = [] := by simpa using hnone
    subst hnil
    exact Nat.zero_le _
  · omega

lemma numa_eq_nil (hsum : (numa.map Prod.snd).sum ≤ 0) : numa = [] := by
  cases numa with
  | nil => rfl
  | cons x numa =>
    have hx := hpos x mem_cons_self
    rw [map_cons, sum_cons] at hsum
    omega

end

lemma nextPageNum_spec (hp : HugePageSize) (hpos : ∀ x ∈ numa, 0 < x.2) (hleft : left ≠ 0) :
    1 ≤ nextPageNum hp left numa ∧ nextPageNum hp left numa ≤ left ∧ nextPageNum hp left numa ≤ kChunkFetchOptions hp ∧
      ∀ k m rest, numa = (k, m) :: rest → nextPageNum hp left numa ≤ m := by
  have hfetch : 1 ≤ kChunkFetchOptions hp := by
    cases hp with
    | k2MB => decide
    | _ => exact le_rfl
  unfold nextPageNum
  cases numa with
  | nil =>
    dsimp only
    refine ⟨by omega, by omega, by omega, ?_⟩
    intro k m rest h
    cases h
  | cons x rest =>
    have hx := hpos x mem_cons_self
    dsimp only
    refine ⟨by omega, by omega, by omega, ?_⟩
    intro k m rest' h
    cases h
    omega

structure LoopPlan (kernel : Kernel) (hp : HugePageSize) (left : Nat) (numa : List (Nat × Nat)) (ok : Bool)
    (ops : List HugepageOp) : Prop where
  bounds : ∀ request ∈ requestsOf ops, 1 ≤ request.1 ∧ request.1 ≤ kChunkFetchOptions hp
  nodes : ok = true → ∀ node, pagesFor (some node) ops = nodePages node numa
  unbound : ok = true → pagesFor none ops + (numa.map Prod.snd).sum = left
  unknown : ok = false → UnknownPage kernel hp ops

lemma loopPlan_done : LoopPlan kernel hp 0 [] true [] where
  bounds request hrequest := by cases hrequest
  nodes _ _ := rfl
  unbound _ := rfl
  unknown h := by cases h

lemma exists_unknown {addr : Nat} {node : Option Nat}
    (h : ((regionChunks kernel hp addr num).all fun c => c.physAddr ≠ 0) = false) :
    UnknownPage kernel hp (.alloc (getHugePageSize hp) num node (some addr) :: ops) := by
  rw [all_eq_false] at h
  obtain ⟨c, hc, hzero⟩ := h
  obtain ⟨i, hi, rfl⟩ := mem_map.mp hc
  exact ⟨num, node, addr, i, mem_cons_self, mem_range.mp hi, by simpa using hzero⟩

lemma UnknownPage.cons (h : UnknownPage kernel hp ops) (op : HugepageOp) : UnknownPage kernel hp (op :: ops) := by
  obtain ⟨num, node, addr, i, hop, hpage⟩ := h
  exact ⟨num, node, addr, i, mem_cons_of_mem _ hop, hpage⟩

lemma requestsOf_deallocs (regions : List PoolRegion) : requestsOf (regions.map .dealloc) = [] := by
  unfold requestsOf
  induction regions with
  | nil => rfl
  | cons region regions ih =>
    exact ih

lemma loopPlan_unknown {node answer : Option Nat} (regions : List PoolRegion)
    (hnum : 1 ≤ num ∧ num ≤ kChunkFetchOptions hp)
    (hunknown : UnknownPage kernel hp (.alloc (getHugePageSize hp) num node answer :: regions.map .dealloc)) :
    LoopPlan kernel hp left numa false (.alloc (getHugePageSize hp) num node answer :: regions.map .dealloc) where
  bounds request hrequest := by
    unfold requestsOf at hrequest
    rcases mem_cons.mp hrequest with rfl | hrest
    · exact hnum
    · have hnil := requestsOf_deallocs regions
      unfold requestsOf at hnil
      rw [hnil] at hrest
      cases hrest
  nodes h := by cases h
  unbound h := by cases h
  unknown _ := hunknown

lemma LoopPlan.pass {answer : Option Nat} {ok : Bool} (hpos : ∀ x ∈ numa, 0 < x.2)
    (hn : ∀ k m rest, numa = (k, m) :: rest → num ≤ m) (hle : num ≤ left)
    (hnum : 1 ≤ num ∧ num ≤ kChunkFetchOptions hp) (h : LoopPlan kernel hp (left - num) (takeNuma num numa) ok ops) :
    LoopPlan kernel hp left numa ok (.alloc (getHugePageSize hp) num (numa.head?.map Prod.fst) answer :: ops) := by
  obtain ⟨-, hsum, hnodes⟩ := takeNuma_spec hpos hn
  refine ⟨?_, ?_, ?_, fun hok => (h.unknown hok).cons _⟩
  · intro request hrequest
    unfold requestsOf at hrequest
    rcases mem_cons.mp hrequest with rfl | hrest
    · exact hnum
    · exact h.bounds request hrest
  · intro hok node
    rw [pagesFor_cons, h.nodes hok node, ← hnodes node, Nat.add_comm]
  · intro hok
    have hunbound := h.unbound hok
    rw [pagesFor_cons, ← hsum]
    split
    · omega
    · omega

lemma preallocateLoop_plan (hp : HugePageSize)
    (halloc : ∀ call size num node, (kernel.allocHugepageFn call size num node).isSome)
    (fuel call : Nat) (table : AddressMap) (regions : List PoolRegion) (hfuel : left ≤ fuel)
    (hpos : ∀ x ∈ numa, 0 < x.2) (hsum : (numa.map Prod.snd).sum ≤ left) :
    ∃ ok table' regions', preallocateLoop kernel hp fuel call left numa table regions = some (ok, table', regions') ∧
      LoopPlan kernel hp left numa ok (preallocateOps kernel hp fuel call left numa regions) := by
  induction fuel generalizing call left numa table regions with
  | zero =>
    obtain rfl : left = 0 := by omega
    obtain rfl := numa_eq_nil hpos hsum
    exact ⟨true, table, regions, rfl, loopPlan_done⟩
  | succ fuel ih =>
    unfold preallocateLoop preallocateOps
    by_cases hleft : left = 0
    · subst hleft
      obtain rfl := numa_eq_nil hpos hsum
      exact ⟨true, table, regions, rfl, loopPlan_done⟩
    · rw [if_neg hleft, if_neg hleft]
      dsimp only
      obtain ⟨hone, hle, hfetch, hnode⟩ := nextPageNum_spec hp hpos hleft
      generalize nextPageNum hp left numa = num at hone hle hfetch hnode ⊢
      obtain ⟨addr, haddr⟩ := Option.isSome_iff_exists.mp
        (halloc call (getHugePageSize hp) num (numa.head?.map Prod.fst))
      rw [haddr]
      dsimp only
      rw [if_neg (show num ≠ 0 by omega), if_neg (show num ≠ 0 by omega)]
      obtain ⟨hpos', -, -⟩ := takeNuma_spec hpos hnode
      cases hphys : (regionChunks kernel hp addr num).all fun c => c.physAddr ≠ 0 with
      | false =>
        exact ⟨false, table, regions, rfl, loopPlan_unknown (⟨addr, _⟩ :: regions) ⟨hone, hfetch⟩
          (exists_unknown hphys)⟩
      | true =>
        have hrest := sum_takeNuma_le hpos hnode hsum
        obtain ⟨ok, table', regions', hloop, hplan⟩ := ih (call + 1)
          ((regionChunks kernel hp addr num).foldl AddressMap.assign table)
          (regions ++ [⟨addr, getHugePageSize hp * num⟩]) (by omega) hpos' hrest
        exact ⟨ok, table', regions', hloop, hplan.pass hpos hnode hle ⟨hone, hfetch⟩⟩

lemma preallocateLoop_fuel (kernel : Kernel) (hp : HugePageSize) (fuel call : Nat) (table : AddressMap)
    (regions : List PoolRegion) (hfuel : left ≤ fuel)
    (hpos : ∀ x ∈ numa, 0 < x.2) (hsum : (numa.map Prod.snd).sum ≤ left) :
    preallocateLoop kernel hp (fuel + 1) call left numa table regions =
        preallocateLoop kernel hp fuel call left numa table regions ∧
      preallocateOps kernel hp (fuel + 1) call left numa regions = preallocateOps kernel hp fuel call left numa regions := by
  induction fuel generalizing call left numa table regions with
  | zero =>
    obtain rfl : left = 0 := by omega
    exact ⟨rfl, rfl⟩
  | succ fuel ih =>
    by_cases hleft : left = 0
    · subst hleft
      exact ⟨rfl, rfl⟩
    · obtain ⟨hone, hle, -, hnode⟩ := nextPageNum_spec hp hpos hleft
      obtain ⟨hpos', hsum', -⟩ := takeNuma_spec hpos hnode
      have hrest := sum_takeNuma_le hpos hnode hsum
      have hnext : ∀ addr, _ := fun addr => ih (call + 1)
        ((regionChunks kernel hp addr (nextPageNum hp left numa)).foldl AddressMap.assign table)
        (regions ++ [⟨addr, getHugePageSize hp * nextPageNum hp left numa⟩]) (by omega) hpos' hrest
      rw [preallocateLoop, preallocateLoop.eq_def _ _ (fuel + 1), preallocateOps, preallocateOps.eq_def _ _ (fuel + 1)]
      simp only [hnext, and_self]

lemma validated_sum_eq (h : ∑ i, opt.preallocNumaMb i < 2 ^ 31) : opt.sum = ∑ i, opt.preallocNumaMb i := by
  have hfold : ∀ (l : List (Fin kMaxNodeNum)) (a : Int),
      l.foldl (fun acc i => Int.bmod (acc + opt.preallocNumaMb i) (2 ^ 32)) (a.bmod (2 ^ 32)) =
        (a + ((l.map opt.preallocNumaMb).sum : Nat)).bmod (2 ^ 32) := by
    intro l
    induction l with
    | nil => simp
    | cons i l ih =>
      intro a
      rw [foldl_cons, Int.bmod_add_bmod, ih, map_cons, sum_cons, Nat.cast_add, add_assoc]
  have hzero := hfold (List.finRange kMaxNodeNum) 0
  rw [Int.zero_bmod, zero_add, ← Fin.sum_univ_def] at hzero
  unfold PoolInitOption.sum
  dsimp only
  rw [hzero, Int.bmod_eq_of_le (by omega) (by omega)]
  omega

lemma numaAllocPageNum_eq (h : ∑ i, opt.preallocNumaMb i < 2 ^ 31) :
    numaAllocPageNum opt = (List.finRange kMaxNodeNum).filterMap fun i =>
      if 0 < opt.preallocNumaMb i then some (i.val, pagesOfMb opt.preallocPageSize (opt.preallocNumaMb i)) else none := by
  have hsize : getHugePageSize opt.preallocPageSize ≤ 2 ^ 30 := by
    cases opt.preallocPageSize with
    | _ => decide
  unfold numaAllocPageNum
  congr 1
  funext i
  have hle : opt.preallocNumaMb i ≤ ∑ i, opt.preallocNumaMb i :=
    Finset.single_le_sum (fun _ _ => Nat.zero_le _) (Finset.mem_univ i)
  rw [Nat.mod_eq_of_lt (by omega), pagesOfMb_eq]

section Nodes

variable (hhp : opt.preallocPageSize ≠ .kUnknown) (hnuma : ∑ i, opt.preallocNumaMb i < 2 ^ 31)

include hhp hnuma

lemma numaAllocPageNum_pos : ∀ x ∈ numaAllocPageNum opt, 0 < x.2 := by
  rw [numaAllocPageNum_eq hnuma]
  intro x hx
  obtain ⟨i, -, hi⟩ := mem_filterMap.mp hx
  split at hi
  · rename_i hpos
    cases hi
    exact pagesOfMb_pos hhp hpos
  · cases hi

-- A node with no memory to allocate is left out of the list and adds nothing to a sum over it.
lemma fold_numaAllocPageNum {F : List (Nat × Nat) → Nat} {g : Nat → Nat → Nat} (hnil : F [] = 0)
    (hcons : ∀ k m l, F ((k, m) :: l) = g k m + F l) (hzero : ∀ k, g k 0 = 0) :
    F (numaAllocPageNum opt) =
      ∑ i : Fin kMaxNodeNum, g i.val (pagesOfMb opt.preallocPageSize (opt.preallocNumaMb i)) := by
  rw [numaAllocPageNum_eq hnuma, Fin.sum_univ_def]
  generalize List.finRange kMaxNodeNum = l
  induction l with
  | nil => exact hnil
  | cons i l ih =>
    rw [filterMap_cons, map_cons, sum_cons]
    by_cases hi : 0 < opt.preallocNumaMb i
    · rw [if_pos hi]
      dsimp only
      rw [hcons, ih]
    · rw [if_neg hi]
      dsimp only
      rw [ih, Nat.eq_zero_of_not_pos hi, pagesOfMb_zero hhp, hzero, Nat.zero_add]

lemma sum_numaAllocPageNum :
    ((numaAllocPageNum opt).map Prod.snd).sum = ∑ i, pagesOfMb opt.preallocPageSize (opt.preallocNumaMb i) :=
  fold_numaAllocPageNum hhp hnuma (F := fun l => (l.map Prod.snd).sum) (g := fun _ m => m) rfl (fun _ _ _ => sum_cons)
    fun _ => rfl

lemma nodePages_numaAllocPageNum (node : Nat) :
    nodePages node (numaAllocPageNum opt) =
      ∑ i : Fin kMaxNodeNum, if i.val = node then pagesOfMb opt.preallocPageSize (opt.preallocNumaMb i) else 0 :=
  fold_numaAllocPageNum hhp hnuma (g := fun k m => if k = node then m else 0) rfl (nodePages_cons node)
    fun _ => ite_self 0

end Nodes

lemma totalPageNum_eq (hinit : opt.initMemPool = true) (hvalid : opt.validateInitOption = true)
    (hsize : opt.preallocSizeMb < 2 ^ 31) (hnuma : ∑ i, opt.preallocNumaMb i < 2 ^ 31) :
    opt.preallocPageSize ≠ .kUnknown ∧ totalPageNum opt = ((numaAllocPageNum opt).map Prod.snd).sum +
      if ∀ i, opt.preallocNumaMb i = 0 then pagesOfMb opt.preallocPageSize opt.preallocSizeMb else 0 := by
  have hpageSize : getHugePageSize opt.preallocPageSize ≤ 2 ^ 30 := by
    cases opt.preallocPageSize with
    | _ => decide
  unfold PoolInitOption.validateInitOption at hvalid
  rw [hinit, validated_sum_eq hnuma] at hvalid
  simp only [Bool.not_true, Bool.false_eq_true, if_false] at hvalid
  split at hvalid
  · cases hvalid
  rename_i hhp
  refine ⟨hhp, ?_⟩
  unfold totalPageNum
  rw [Nat.mod_eq_of_lt (by omega), ← pagesOfMb_eq, sum_numaAllocPageNum hhp hnuma]
  by_cases hnone : ∀ i, opt.preallocNumaMb i = 0
  · have hzero : ∑ i, pagesOfMb opt.preallocPageSize (opt.preallocNumaMb i) = 0 := by
      apply Finset.sum_eq_zero
      intro i _
      rw [hnone i, pagesOfMb_zero hhp]
    rw [if_pos hnone, hzero, Nat.zero_add, Nat.max_zero]
  · have hsum : ∑ i, opt.preallocNumaMb i = opt.preallocSizeMb := by
      by_contra hne
      have hpositive : ∑ i, opt.preallocNumaMb i ≠ 0 := by
        intro hzero
        apply hnone
        intro i
        exact Finset.sum_eq_zero_iff.mp hzero i (Finset.mem_univ i)
      simp [hne, hpositive] at hvalid
    rw [if_neg hnone, Nat.add_zero, ← hsum]
    exact Nat.max_eq_right (pagesOfMb_sum_le hhp opt.preallocNumaMb)

/-- `Preallocate` with an allocator that always succeeds ends, its checks hold, and unless a page that it
got has no physical address, its requests are those of the option. -/
theorem preallocate_plan (kernel : Kernel)
    (halloc : ∀ call size num node, (kernel.allocHugepageFn call size num node).isSome) (opt : PoolInitOption)
    (hinit : opt.initMemPool = true) (hvalid : opt.validateInitOption = true)
    (hsize : opt.preallocSizeMb < 2 ^ 31) (hnuma : ∑ i, opt.preallocNumaMb i < 2 ^ 31) (pages : PoolPages) :
    ∃ ok pages' ops, preallocate kernel opt pages = some (ok, pages') ∧
      (∀ fuel, totalPageNum opt ≤ fuel →
        (preallocateLoop kernel opt.preallocPageSize fuel 0 (totalPageNum opt) (numaAllocPageNum opt) AddressMap.empty
          pages.regions).map Prod.fst = some ok ∧
        preallocateOps kernel opt.preallocPageSize fuel 0 (totalPageNum opt) (numaAllocPageNum opt) pages.regions = ops) ∧
      (∀ request ∈ requestsOf ops, 1 ≤ request.1 ∧ request.1 ≤ if opt.preallocPageSize = .k2MB then 512 else 1) ∧
      (ok = true ∧ Planned opt ops ∨ ok = false ∧ UnknownPage kernel opt.preallocPageSize ops) := by
  obtain ⟨hhp, htotal⟩ := totalPageNum_eq hinit hvalid hsize hnuma
  have hpos := numaAllocPageNum_pos hhp hnuma
  have hsum : ((numaAllocPageNum opt).map Prod.snd).sum ≤ totalPageNum opt := by
    rw [htotal]
    exact Nat.le_add_right _ _
  obtain ⟨ok, table', regions', hloop, hplan⟩ := preallocateLoop_plan opt.preallocPageSize halloc
    (totalPageNum opt) 0 AddressMap.empty pages.regions le_rfl hpos hsum
  refine ⟨ok, ⟨ok, some table', regions'⟩, preallocateOps kernel opt.preallocPageSize (totalPageNum opt) 0
    (totalPageNum opt) (numaAllocPageNum opt) pages.regions, ?_, ?_, ?_, ?_⟩
  · unfold preallocate
    rw [if_neg hhp, hloop]
  · intro fuel hfuel
    induction fuel, hfuel using Nat.le_induction with
    | base => exact ⟨by rw [hloop]; rfl, rfl⟩
    | succ fuel hfuel ih =>
      obtain ⟨hsame, hops⟩ := preallocateLoop_fuel kernel opt.preallocPageSize fuel 0
        AddressMap.empty pages.regions hfuel hpos hsum
      rw [hsame, hops]
      exact ih
  · intro request hrequest
    obtain ⟨hone, hfetch⟩ := hplan.bounds request hrequest
    refine ⟨hone, hfetch.trans (le_of_eq ?_)⟩
    cases opt.preallocPageSize with
    | _ => rfl
  · cases ok with
    | false => exact Or.inr ⟨rfl, hplan.unknown rfl⟩
    | true =>
      refine Or.inl ⟨rfl, ?_, ?_, ?_⟩
      · intro i
        rw [hplan.nodes rfl, nodePages_numaAllocPageNum hhp hnuma]
        simp [Fin.val_inj]
      · intro node hnode
        rw [hplan.nodes rfl, nodePages_numaAllocPageNum hhp hnuma]
        apply Finset.sum_eq_zero
        intro i _
        rw [if_neg (by omega)]
      · have hunbound := hplan.unbound rfl
        omega

def plentyKernel : Kernel where
  allocHugepageFn call size _ _ := some ((call + 1) * (512 * size))
  pagemap addr := addr / 4096
  kpageflags _ := 0
  getpagesize := 4096

/-- Three megabytes on each of two nodes: two pages of 2 MB each, although the sum fits into three. -/
def twoNodes : PoolInitOption := ⟨⟨64, 1, 1⟩, true, .k2MB, 6, fun i => if i.val < 2 then 3 else 0⟩

theorem preallocate_plan_twoNodes :
    ∃ pages ops, preallocate plentyKernel twoNodes PoolPages.new = some (true, pages) ∧
      pagesFor (some 0) ops = 2 ∧ pagesFor (some 1) ops = 2 ∧ pagesFor none ops = 0 ∧ Planned twoNodes ops := by
  have halloc : ∀ call size num node, (plentyKernel.allocHugepageFn call size num node).isSome := fun _ _ _ _ => rfl
  have hok : (preallocate plentyKernel twoNodes PoolPages.new).map Prod.fst = some true := by decide +kernel
  have hsum : ∑ i, twoNodes.preallocNumaMb i = 6 := by
    change ∑ i : Fin kMaxNodeNum, (if i.val < 2 then 3 else 0) = 6
    rw [Fin.sum_univ_succ, Fin.sum_univ_succ]
    simp
  have hnuma : ∑ i, twoNodes.preallocNumaMb i < 2 ^ 31 := by
    rw [hsum]
    decide
  have hvalid : twoNodes.validateInitOption = true := by
    unfold PoolInitOption.validateInitOption
    rw [validated_sum_eq hnuma, hsum]
    rfl
  obtain ⟨ok, pages, ops, hpre, -, -, hplan⟩ := preallocate_plan plentyKernel halloc twoNodes rfl hvalid (by decide) hnuma
    PoolPages.new
  rcases hplan with ⟨rfl, hplan⟩ | ⟨rfl, -⟩
  · exact ⟨pages, ops, hpre, (hplan.nodes 0).trans (by decide), (hplan.nodes 1).trans (by decide),
      hplan.unbound.trans (by decide), hplan⟩
  · rw [hpre] at hok
    cases hok

end Vesal.Proofs
