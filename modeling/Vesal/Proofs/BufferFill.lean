import Mathlib.Data.List.ReduceOption
import Vesal.QatBuffer

/-! # Filling flat buffers one by one -/

namespace Vesal.Proofs

open Library List Function

def copiedBuffers (buf : QatBuf) (n : Nat) : List Nat :=
  (List.range n).filter (fun k => !buf.dmaAble k)

/-- The buffers of `buf` stand for the pieces `segs` of the memory of `pool₀`; `block k` is
the pool block of the copied buffer `k`. -/
structure SegmentsFilled (caller : List Extent) (pool₀ : PoolState) (segs : List Extent)
    (block : Nat → Extent) (buf : QatBuf) (pool : PoolState) : Prop where
  count : buf.numBuffers = segs.length
  within : ∀ seg ∈ segs, ∃ c ∈ caller, seg.Within c
  lens : ∀ k (h : k < segs.length), (buf.pBuffers k).dataLenInBytes = segs[k].len
  zeroCopy : ∀ k (h : k < segs.length), buf.dmaAble k = true → (buf.pBuffers k).pData = segs[k].start
  copied : ∀ k (h : k < segs.length), buf.dmaAble k = false →
    (block k).start = (buf.pBuffers k).pData ∧ segs[k].len ≤ (block k).len ∧ 0 < (block k).len ∧
      ∀ e ∈ pool₀.allocated ++ caller, (block k).Disjoint e
  apart : ∀ i j, i < j → j < segs.length → buf.dmaAble i = false → buf.dmaAble j = false →
    (block i).Disjoint (block j)
  allocated : pool.allocated = ((copiedBuffers buf segs.length).map block).reverse ++ pool₀.allocated
  content : ∀ k (h : k < segs.length), readBytes pool.mem (buf.pBuffers k).pData segs[k].len =
    readBytes pool₀.mem segs[k].start segs[k].len
  frame : ∀ a, (∀ k < segs.length, buf.dmaAble k = false →
    a < (block k).start ∨ (block k).start + (block k).len ≤ a) → pool.mem a = pool₀.mem a

lemma filled_nil (caller : List Extent) (pool : PoolState) (block : Nat → Extent) (buf : QatBuf) :
    SegmentsFilled caller pool [] block { buf with numBuffers := 0 } pool where
  count := rfl
  within := fun _ h => absurd h (by simp)
  lens := fun k h => absurd h (by simp)
  zeroCopy := fun k h => absurd h (by simp)
  copied := fun k h => absurd h (by simp)
  apart := fun i j _ h => absurd h (by simp)
  allocated := rfl
  content := fun k h => absurd h (by simp)
  frame := fun _ _ => rfl

variable {caller segs : List Extent} {pool₀ pool : PoolState} {block : Nat → Extent} {buf : QatBuf}

lemma SegmentsFilled.congr {buf' : QatBuf} (h : SegmentsFilled caller pool₀ segs block buf pool)
    (hn : buf'.numBuffers = buf.numBuffers) (hb : ∀ k < segs.length, buf'.pBuffers k = buf.pBuffers k)
    (hd : ∀ k < segs.length, buf'.dmaAble k = buf.dmaAble k) {answers : List (Option Extent)} :
    SegmentsFilled caller pool₀ segs block buf' { pool with answers := answers } where
  count := hn.trans h.count
  within := h.within
  lens := by
    intro k hk
    rw [hb k hk]
    exact h.lens k hk
  zeroCopy := by
    intro k hk
    rw [hb k hk, hd k hk]
    exact h.zeroCopy k hk
  copied := by
    intro k hk
    rw [hb k hk, hd k hk]
    exact h.copied k hk
  apart := by
    intro i j hij hj
    rw [hd i (by omega), hd j hj]
    exact h.apart i j hij hj
  allocated := by
    have hcopied : copiedBuffers buf' segs.length = copiedBuffers buf segs.length := by
      apply filter_congr
      intro k hk
      rw [hd k (mem_range.mp hk)]
    rw [hcopied]
    exact h.allocated
  content := by
    intro k hk
    rw [hb k hk]
    exact h.content k hk
  frame := by
    intro a ha
    apply h.frame
    intro k hk
    rw [← hd k hk]
    exact ha k hk

lemma SegmentsFilled.caller_mem (h : SegmentsFilled caller pool₀ segs block buf pool) {c e : Extent}
    (hc : c ∈ caller) (he : e.Within c) :
    readBytes pool.mem e.start e.len = readBytes pool₀.mem e.start e.len := by
  apply readBytes_congr
  intro a hlo hhi
  apply h.frame
  intro k hk hd
  obtain ⟨-, -, -, hdis⟩ := h.copied k hk hd
  have hkc := hdis c (mem_append_right _ hc)
  unfold Extent.Disjoint at hkc
  unfold Extent.Within at he
  omega

lemma copiedBuffers_succ (buf : QatBuf) (n : Nat) :
    copiedBuffers buf (n + 1) = copiedBuffers buf n ++ (if buf.dmaAble n then [] else [n]) := by
  unfold copiedBuffers
  rw [range_succ, filter_append]
  cases h : buf.dmaAble n <;> simp [h]

lemma getElem_concat {α : Type} (xs : List α) (x : α) (k : Nat) (h : k < (xs ++ [x]).length)
    (hne : k ≠ xs.length) : ∃ hk : k < xs.length, (xs ++ [x])[k] = xs[k] := by
  have hk : k < xs.length := by
    rw [length_append, length_singleton] at h
    omega
  exact ⟨hk, getElem_append_left hk⟩

structure Extends (caller : List Extent) (pool₀ : PoolState) (n : Nat) (block block' : Nat → Extent)
    (buf buf' : QatBuf) (pool pool' : PoolState) (seg : Extent) : Prop where
  count : buf'.numBuffers = n + 1
  old : ∀ k < n, buf'.pBuffers k = buf.pBuffers k ∧ buf'.dmaAble k = buf.dmaAble k ∧ block' k = block k
  within : ∃ c ∈ caller, seg.Within c
  len : (buf'.pBuffers n).dataLenInBytes = seg.len
  zeroCopy : buf'.dmaAble n = true → (buf'.pBuffers n).pData = seg.start
  copied : buf'.dmaAble n = false → (block' n).start = (buf'.pBuffers n).pData ∧
    seg.len ≤ (block' n).len ∧ 0 < (block' n).len ∧
      ∀ e ∈ pool.allocated ++ caller, (block' n).Disjoint e
  allocated : pool'.allocated = (if buf'.dmaAble n then [] else [block' n]) ++ pool.allocated
  frame : ∀ a, (buf'.dmaAble n = false → a < (block' n).start ∨ (block' n).start + (block' n).len ≤ a) →
    pool'.mem a = pool.mem a
  content : readBytes pool'.mem (buf'.pBuffers n).pData seg.len = readBytes pool₀.mem seg.start seg.len

section

variable {caller : List Extent} {pool₀ pool pool' : PoolState} {segs : List Extent}
  {block block' : Nat → Extent} {buf buf' : QatBuf} {seg : Extent}

lemma mem_allocated (h : SegmentsFilled caller pool₀ segs block buf pool) {k : Nat} (hk : k < segs.length)
    (hd : buf.dmaAble k = false) : block k ∈ pool.allocated := by
  rw [h.allocated]
  apply mem_append_left
  rw [mem_reverse]
  apply mem_map_of_mem
  rw [copiedBuffers, mem_filter, mem_range]
  exact ⟨hk, by simp [hd]⟩

lemma Extends.old_content (h : SegmentsFilled caller pool₀ segs block buf pool)
    (hx : Extends caller pool₀ segs.length block block' buf buf' pool pool' seg) (k : Nat)
    (hk : k < segs.length) :
    readBytes pool'.mem (buf.pBuffers k).pData segs[k].len =
      readBytes pool.mem (buf.pBuffers k).pData segs[k].len := by
  apply readBytes_congr
  intro a hlo hhi
  apply hx.frame
  intro hnew
  obtain ⟨-, -, -, hdis⟩ := hx.copied hnew
  cases hd : buf.dmaAble k with
  | true =>
    obtain ⟨c, hc, hw⟩ := h.within _ (getElem_mem hk)
    have hcb := hdis c (mem_append_right _ hc)
    rw [h.zeroCopy k hk hd] at hlo hhi
    unfold Extent.Disjoint at hcb
    unfold Extent.Within at hw
    omega
  | false =>
    obtain ⟨hstart, hle, -, -⟩ := h.copied k hk hd
    have hkb := hdis _ (mem_append_left _ (mem_allocated h hk hd))
    unfold Extent.Disjoint at hkb
    omega

lemma Extends.copiedBuffers_eq
    (hx : Extends caller pool₀ segs.length block block' buf buf' pool pool' seg) :
    (copiedBuffers buf' segs.length).map block' = (copiedBuffers buf segs.length).map block := by
  have hcopied : copiedBuffers buf' segs.length = copiedBuffers buf segs.length := by
    apply filter_congr
    intro k hk
    rw [(hx.old k (mem_range.mp hk)).2.1]
  rw [hcopied]
  apply map_congr_left
  intro k hk
  have hlt := (mem_filter.mp hk).1
  exact (hx.old k (mem_range.mp hlt)).2.2

theorem SegmentsFilled.extend (h : SegmentsFilled caller pool₀ segs block buf pool)
    (hx : Extends caller pool₀ segs.length block block' buf buf' pool pool' seg) :
    SegmentsFilled caller pool₀ (segs ++ [seg]) block' buf' pool' := by
  have hlen : (segs ++ [seg]).length = segs.length + 1 := by simp
  constructor
  · rw [hlen]
    exact hx.count
  · exact forall_mem_append.mpr ⟨h.within, forall_mem_singleton.mpr hx.within⟩
  · intro k hk
    by_cases he : k = segs.length
    · subst he
      simp [hx.len]
    · obtain ⟨hk', hget⟩ := getElem_concat segs seg k hk he
      rw [hget, (hx.old k hk').1]
      exact h.lens k hk'
  · intro k hk hd
    by_cases he : k = segs.length
    · subst he
      simp [hx.zeroCopy hd]
    · obtain ⟨hk', hget⟩ := getElem_concat segs seg k hk he
      rw [(hx.old k hk').2.1] at hd
      rw [hget, (hx.old k hk').1]
      exact h.zeroCopy k hk' hd
  · intro k hk hd
    by_cases he : k = segs.length
    · subst he
      obtain ⟨hstart, hle, hpos, hdis⟩ := hx.copied hd
      refine ⟨hstart, by simpa using hle, hpos, ?_⟩
      intro e hmem
      apply hdis
      rw [h.allocated, append_assoc]
      exact mem_append_right _ hmem
    · obtain ⟨hk', hget⟩ := getElem_concat segs seg k hk he
      rw [(hx.old k hk').2.1] at hd
      rw [hget, (hx.old k hk').1, (hx.old k hk').2.2]
      exact h.copied k hk' hd
  · intro i j hij hj hdi hdj
    have hi : i < segs.length := by omega
    rw [(hx.old i hi).2.1] at hdi
    rw [(hx.old i hi).2.2]
    by_cases he : j = segs.length
    · subst he
      obtain ⟨-, -, -, hdis⟩ := hx.copied hdj
      exact (hdis _ (mem_append_left _ (mem_allocated h hi hdi))).symm
    · have hj' : j < segs.length := by omega
      rw [(hx.old j hj').2.1] at hdj
      rw [(hx.old j hj').2.2]
      exact h.apart i j hij hj' hdi hdj
  · rw [hlen, copiedBuffers_succ, map_append, reverse_append, hx.copiedBuffers_eq,
      hx.allocated, h.allocated, append_assoc]
    cases buf'.dmaAble segs.length <;> rfl
  · intro k hk
    by_cases he : k = segs.length
    · subst he
      simp only [getElem_concat_length]
      exact hx.content
    · obtain ⟨hk', hget⟩ := getElem_concat segs seg k hk he
      rw [hget, (hx.old k hk').1, hx.old_content h k hk']
      exact h.content k hk'
  · intro a ha
    rw [hx.frame a (fun hd => ha segs.length (by omega) hd)]
    apply h.frame
    intro k hk hd
    rw [← (hx.old k hk).2.2]
    exact ha k (by omega) ((hx.old k hk).2.1.trans hd)

end

lemma allocate_cases (pool : PoolState) (caller : List Extent) (size : Nat) :
    (∃ answers, pool.allocate caller size = (none, { pool with answers := answers })) ∨
    ∃ block answers, pool.Fresh caller size block ∧ pool.allocate caller size =
      (some block, { pool with allocated := block :: pool.allocated, answers := answers }) := by
  unfold PoolState.allocate
  cases hans : pool.answers with
  | nil => exact .inl ⟨pool.answers, rfl⟩
  | cons answer answers =>
    cases answer with
    | none => exact .inl ⟨answers, rfl⟩
    | some block =>
      by_cases hfresh : pool.Fresh caller size block
      · exact .inr ⟨block, answers, hfresh, by simp [hfresh]⟩
      · exact .inl ⟨answers, by simp [hfresh]⟩

def setBuffer (buf : QatBuf) (index pData len : Nat) (dmaAble : Bool) : QatBuf :=
  { buf with
    pBuffers := Function.update buf.pBuffers index ⟨pData, len⟩
    dmaAble := Function.update buf.dmaAble index dmaAble }

variable (dev : DmaUnit)

lemma fillOneBuffer_cases (caller : List Extent) (addr len : Nat) (copy : Bool)
    (index : Nat) (buf : QatBuf) (pool : PoolState) :
    fillOneBuffer dev caller addr len copy index buf pool =
      (true, setBuffer buf index addr len true, pool) ∨
    (dev.svmEnabled = false ∧ ∃ answers, fillOneBuffer dev caller addr len copy index buf pool =
      (false, setBuffer buf index 0 len false, { pool with answers := answers })) ∨
    (dev.svmEnabled = false ∧ ∃ block answers, pool.Fresh caller len block ∧
      fillOneBuffer dev caller addr len copy index buf pool =
        (true, setBuffer buf index block.start len false,
          { pool with
            mem := if copy then writeBytes pool.mem block.start (readBytes pool.mem addr len) else pool.mem
            allocated := block :: pool.allocated
            answers := answers })) := by
  unfold fillOneBuffer
  cases hdma : (dev.svmEnabled || dev.lookUpAddrAcrossBound addr len == 1) with
  | true => exact .inl rfl
  | false =>
    rw [Bool.or_eq_false_iff] at hdma
    rcases allocate_cases pool caller len with ⟨answers, hal⟩ | ⟨block, answers, hfresh, hal⟩
    · refine .inr (.inl ⟨hdma.1, answers, ?_⟩)
      simp only [hal, Bool.false_eq_true, if_false]
      rfl
    · refine .inr (.inr ⟨hdma.1, block, answers, hfresh, ?_⟩)
      simp only [hal, Bool.false_eq_true, if_false]
      cases copy <;> rfl

/-- `FillOneBuffer` adds one piece to a filled buffer, or fails without taking anything
from the pool. -/
theorem fillOneBuffer_filled (h : SegmentsFilled caller pool₀ segs block buf pool) (dev : DmaUnit) (seg : Extent)
    (hseg : ∃ c ∈ caller, seg.Within c) :
    (∃ buf' pool' block', fillOneBuffer dev caller seg.start seg.len true buf.numBuffers buf pool =
        (true, buf', pool') ∧
      SegmentsFilled caller pool₀ (segs ++ [seg]) block' { buf' with numBuffers := buf.numBuffers + 1 } pool') ∨
    (dev.svmEnabled = false ∧ ∃ buf' pool',
      fillOneBuffer dev caller seg.start seg.len true buf.numBuffers buf pool = (false, buf', pool') ∧
        SegmentsFilled caller pool₀ segs block buf' pool') := by
  have hold : ∀ pData dma k, k < segs.length →
      (setBuffer buf segs.length pData seg.len dma).pBuffers k = buf.pBuffers k ∧
        (setBuffer buf segs.length pData seg.len dma).dmaAble k = buf.dmaAble k := by
    intro pData dma k hk
    have hne : k ≠ segs.length := by omega
    exact ⟨update_of_ne hne _ _, update_of_ne hne _ _⟩
  have hnew : ∀ pData dma,
      (setBuffer buf segs.length pData seg.len dma).pBuffers segs.length = ⟨pData, seg.len⟩ ∧
        (setBuffer buf segs.length pData seg.len dma).dmaAble segs.length = dma := by
    intro pData dma
    exact ⟨update_self _ _ _, update_self _ _ _⟩
  obtain ⟨c, hc, hw⟩ := hseg
  rw [h.count]
  rcases fillOneBuffer_cases dev caller seg.start seg.len true segs.length buf pool with
    hfill | ⟨hsvm, answers, hfill⟩ | ⟨hsvm, b, answers, hfresh, hfill⟩
  · refine .inl ⟨_, _, block, hfill, h.extend ?_⟩
    obtain ⟨hbuf, hdma⟩ := hnew seg.start true
    constructor
    · rfl
    · intro k hk
      exact ⟨(hold seg.start true k hk).1, (hold seg.start true k hk).2, rfl⟩
    · exact ⟨c, hc, hw⟩
    · simp only [hbuf]
    · intro _
      simp only [hbuf]
    · intro hd
      simp only [hdma] at hd
      cases hd
    · simp only [hdma]
      rfl
    · intro a _
      rfl
    · simp only [hbuf]
      exact h.caller_mem hc hw
  · refine .inr ⟨hsvm, _, _, hfill, ?_⟩
    apply h.congr
    · rfl
    · intro k hk
      exact (hold 0 false k hk).1
    · intro k hk
      exact (hold 0 false k hk).2
  · refine .inl ⟨_, _, Function.update block segs.length b, hfill, h.extend ?_⟩
    obtain ⟨hbuf, hdma⟩ := hnew b.start false
    obtain ⟨-, hpos, hsize, hdis⟩ := hfresh
    constructor
    · rfl
    · intro k hk
      have hne : k ≠ segs.length := by omega
      exact ⟨(hold b.start false k hk).1, (hold b.start false k hk).2, update_of_ne hne _ _⟩
    · exact ⟨c, hc, hw⟩
    · simp only [hbuf]
    · intro hd
      simp only [hdma] at hd
      cases hd
    · intro _
      simp only [hbuf, update_self]
      exact ⟨trivial, hsize, hpos, hdis⟩
    · simp only [hdma, update_self]
      rfl
    · intro a ha
      simp only [hdma, update_self, forall_const] at ha
      simp only [if_true]
      apply writeBytes_outside
      rw [readBytes_length]
      omega
    · have hread := readBytes_writeBytes pool.mem b.start (readBytes pool.mem seg.start seg.len)
      rw [readBytes_length] at hread
      simp only [hbuf, if_true]
      rw [hread]
      exact h.caller_mem hc hw

lemma freeDataIfNecessary_numBuffers (buf : QatBuf) (pool : PoolState) :
    (freeDataIfNecessary dev buf pool).1.numBuffers = 0 := by
  unfold freeDataIfNecessary
  split <;> rfl

lemma freeDataIfNecessary_mem (buf : QatBuf) (pool : PoolState) :
    (freeDataIfNecessary dev buf pool).2.mem = pool.mem := by
  have hloop : ∀ ks s, (List.foldl freeOneBuffer s ks).2.mem = s.2.mem := by
    intro ks
    induction ks with
    | nil =>
      intro s
      rfl
    | cons k ks ih =>
      intro s
      rw [foldl_cons, ih]
      unfold freeOneBuffer
      dsimp only
      split
      · rfl
      · rfl
  unfold freeDataIfNecessary
  split
  · rfl
  · exact hloop (range buf.numBuffers) (buf, pool)

def releaseAll (ptrs : List Nat) (blocks : List Extent) : List Extent :=
  ptrs.foldl (fun blocks ptr => blocks.eraseP fun e => e.start == ptr) blocks

def copiedPtrs (buf : QatBuf) (n : Nat) : List Nat := (copiedBuffers buf n).map fun k => (buf.pBuffers k).pData

lemma freeOneBuffer_foldl (ks : List Nat) (hks : ks.Nodup) (buf : QatBuf) (pool : PoolState) :
    (ks.foldl freeOneBuffer (buf, pool)).2.allocated =
      releaseAll ((ks.filter (fun k => !buf.dmaAble k)).map (fun k => (buf.pBuffers k).pData)) pool.allocated := by
  unfold releaseAll
  induction ks generalizing buf pool with
  | nil => rfl
  | cons k ks ih =>
    rw [nodup_cons] at hks
    rw [foldl_cons]
    have hmap : ((ks.filter (fun j => !buf.dmaAble j)).map fun j =>
        (Function.update buf.pBuffers k ⟨0, 0⟩ j).pData) =
        (ks.filter (fun j => !buf.dmaAble j)).map fun j => (buf.pBuffers j).pData := by
      apply map_congr_left
      intro j hj
      have hne : j ≠ k := by
        intro he
        rw [he] at hj
        exact hks.1 (mem_filter.mp hj).1
      rw [update_of_ne hne]
    have hstep := ih hks.2 (freeOneBuffer (buf, pool) k).1 (freeOneBuffer (buf, pool) k).2
    simp only [freeOneBuffer, hmap] at hstep
    simp only [freeOneBuffer]
    rw [hstep]
    cases hd : buf.dmaAble k
    · simp [hd, PoolState.deallocate]
    · simp [hd]

lemma freeDataIfNecessary_allocated {dev : DmaUnit} (hsvm : dev.svmEnabled = false) (buf : QatBuf) (pool : PoolState) :
    (freeDataIfNecessary dev buf pool).2.allocated = releaseAll (copiedPtrs buf buf.numBuffers) pool.allocated := by
  unfold freeDataIfNecessary
  rw [hsvm, if_neg Bool.false_ne_true]
  exact freeOneBuffer_foldl (range buf.numBuffers) nodup_range buf pool

lemma erase_blocks (blocks old : List Extent) (hpos : ∀ e ∈ blocks, 0 < e.len)
    (hapart : blocks.Pairwise Extent.Disjoint) :
    releaseAll (blocks.map Extent.start) (blocks.reverse ++ old) = old := by
  induction blocks with
  | nil => rfl
  | cons b blocks ih =>
    rw [pairwise_cons] at hapart
    have hother : ∀ e ∈ blocks.reverse, ¬(e.start == b.start) = true := by
      intro e he
      rw [mem_reverse] at he
      have hb := hpos b mem_cons_self
      have he' := hpos e (mem_cons_of_mem _ he)
      have hdis := hapart.1 e he
      unfold Extent.Disjoint at hdis
      rw [beq_iff_eq]
      omega
    unfold releaseAll
    rw [map_cons, foldl_cons, reverse_cons, append_assoc, eraseP_append_right _ hother]
    simp only [singleton_append, eraseP_cons, beq_self_eq_true, cond_true]
    exact ih (fun e he => hpos e (mem_cons_of_mem _ he)) hapart.2

lemma pairwise_copied (h : SegmentsFilled caller pool₀ segs block buf pool) :
    ((copiedBuffers buf segs.length).map block).Pairwise Extent.Disjoint := by
  rw [pairwise_map, copiedBuffers]
  have hrange : (range segs.length).Pairwise (· < ·) := pairwise_lt_range
  apply Pairwise.imp_of_mem _ (hrange.filter _)
  intro i j hi hj hij
  rw [mem_filter, mem_range] at hi hj
  exact h.apart i j hij hj.1 (by simpa using hi.2) (by simpa using hj.2)

theorem SegmentsFilled.free (h : SegmentsFilled caller pool₀ segs block buf pool) (dev : DmaUnit)
    (hsvm : dev.svmEnabled = false) :
    (freeDataIfNecessary dev buf pool).2.allocated = pool₀.allocated := by
  have hptrs : copiedPtrs buf buf.numBuffers = ((copiedBuffers buf segs.length).map block).map Extent.start := by
    rw [copiedPtrs, h.count, map_map]
    apply map_congr_left
    intro k hk
    rw [copiedBuffers, mem_filter, mem_range] at hk
    exact (h.copied k hk.1 (by simpa using hk.2)).1.symm
  have hpos : ∀ e ∈ (copiedBuffers buf segs.length).map block, 0 < e.len := by
    intro e he
    obtain ⟨k, hk, rfl⟩ := mem_map.mp he
    rw [copiedBuffers, mem_filter, mem_range] at hk
    exact (h.copied k hk.1 (by simpa using hk.2)).2.2.1
  rw [freeDataIfNecessary_allocated hsvm, hptrs, h.allocated, erase_blocks _ _ hpos (pairwise_copied h)]

def poolBlocks (pool : PoolState) : List Extent := pool.answers.reduceOption ++ pool.allocated

lemma poolBlocks_allocate (pool : PoolState) (caller : List Extent) (size : Nat) :
    poolBlocks (pool.allocate caller size).2 ⊆ poolBlocks pool := by
  unfold PoolState.allocate
  split
  · exact Subset.refl _
  · rename_i answers hanswers
    unfold poolBlocks
    rw [hanswers]
    exact Subset.refl _
  · rename_i block answers hanswers
    intro e he
    unfold poolBlocks at he ⊢
    rw [hanswers, reduceOption_cons_of_some, cons_append, mem_cons, mem_append]
    split at he
    · rw [mem_append, mem_cons] at he
      tauto
    · exact Or.inr (mem_append.mp he)

lemma poolBlocks_fillOneBuffer (caller : List Extent) (addr len : Nat) (copy : Bool)
    (index : Nat) (buf : QatBuf) (pool : PoolState) :
    poolBlocks (fillOneBuffer dev caller addr len copy index buf pool).2.2 ⊆ poolBlocks pool := by
  have halloc := poolBlocks_allocate pool caller len
  unfold fillOneBuffer
  dsimp only
  split
  · exact Subset.refl _
  · rcases hanswer : pool.allocate caller len with ⟨answer, pool'⟩
    rw [hanswer] at halloc
    cases answer with
    | none => exact halloc
    | some block =>
      cases copy with
      | true => exact halloc
      | false => exact halloc

lemma poolBlocks_deallocate (pool : PoolState) (ptr : Nat) : poolBlocks (pool.deallocate ptr) ⊆ poolBlocks pool := by
  intro e he
  unfold poolBlocks PoolState.deallocate at *
  rcases mem_append.mp he with he | he
  · exact mem_append_left _ he
  · exact mem_append_right _ (mem_of_mem_eraseP he)

lemma poolBlocks_freeDataIfNecessary (buf : QatBuf) (pool : PoolState) :
    poolBlocks (freeDataIfNecessary dev buf pool).2 ⊆ poolBlocks pool := by
  have hloop : ∀ (ks : List Nat) (s : QatBuf × PoolState),
      poolBlocks (ks.foldl freeOneBuffer s).2 ⊆ poolBlocks s.2 := by
    intro ks
    induction ks with
    | nil =>
      intro s
      exact Subset.refl _
    | cons k ks ih =>
      intro s
      rw [foldl_cons]
      apply Subset.trans (ih _)
      unfold freeOneBuffer
      dsimp only
      split
      · exact Subset.refl _
      · exact poolBlocks_deallocate _ _
  unfold freeDataIfNecessary
  split
  · exact Subset.refl _
  · exact hloop _ (buf, pool)

end Vesal.Proofs
