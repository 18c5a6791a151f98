import Vesal.Proofs.AddressLookup

/-! # The translation of a range -/

namespace Vesal.Proofs

open Library AddressManager List Function

def writeAll (f : Nat → Nat) : Nat → List Nat → Nat → Nat
  | _, [] => f
  | i, x :: xs => writeAll (Function.update f i x) (i + 1) xs

def pieceAddrs : Nat → List (PhysChunk × Nat) → List Nat
  | _, [] => []
  | v, (c, n) :: pieces => physAddrAt c v :: pieceAddrs (v + n) pieces

def PageCuts (table : AddressMap) : Nat → Nat → List (PhysChunk × Nat) → Prop :=
  Cuts PhysChunk.startAddr pageEnd (pagesOf table)

def PagesCover (table : AddressMap) : Nat → Nat → Prop := Covers PhysChunk.startAddr pageEnd (pagesOf table)

def pagesTouched (table : AddressMap) : Nat → Nat → Set PhysChunk :=
  touched PhysChunk.startAddr pageEnd (pagesOf table)

variable {table cache : AddressMap} {order : List AlignType} {c : PhysChunk} {v len n ret curr left maxNum : Nat}
  {paddrs sizes : Nat → Nat} {pieces : List (PhysChunk × Nat)}

variable {i k : Nat}

variable {f : Nat → Nat}

lemma writeAll_of_lt {j : Nat} (xs : List Nat) (h : j < i) : writeAll f i xs j = f j := by
  induction xs generalizing f i with
  | nil => rfl
  | cons x xs ih =>
    change writeAll (Function.update f i x) (i + 1) xs j = f j
    rw [ih (by omega)]
    exact update_of_ne (by omega) _ _

lemma writeAll_get {x : Nat} {xs : List Nat} (h : xs[k]? = some x) :
    writeAll f i xs (i + k) = x := by
  induction xs generalizing f i k with
  | nil => simp at h
  | cons y ys ih =>
    cases k with
    | zero =>
      simp only [getElem?_cons_zero, Option.some.injEq] at h
      change writeAll (Function.update f i y) (i + 1) ys i = x
      rw [writeAll_of_lt ys (Nat.lt_succ_self i), update_self]
      exact h
    | succ k =>
      have hrest := ih (f := Function.update f i y) (i := i + 1) h
      rw [show i + (k + 1) = i + 1 + k by omega]
      exact hrest

lemma sum_writeAll (f : Nat → Nat) (xs : List Nat) (h : k ≤ xs.length) :
    ∑ i ∈ Finset.range k, writeAll f 0 xs i = (xs.take k).sum := by
  induction k with
  | zero => rfl
  | succ k ih =>
    have hget : xs[k]? = some (xs[k]) := getElem?_eq_getElem (by omega)
    have hwritten : writeAll f 0 xs k = xs[k] := by
      have hk := writeAll_get (f := f) (i := 0) hget
      rw [Nat.zero_add] at hk
      exact hk
    rw [Finset.sum_range_succ, ih (by omega), hwritten, take_add_one, hget, sum_append]
    simp

lemma pieceAddrs_get {m : Nat} (h : pieces[i]? = some (c, m)) :
    (pieceAddrs v pieces)[i]? = some (physAddrAt c (v + ((pieces.take i).map Prod.snd).sum)) := by
  induction pieces generalizing v i with
  | nil => simp at h
  | cons piece pieces ih =>
    cases i with
    | zero =>
      simp only [getElem?_cons_zero, Option.some.injEq] at h
      subst h
      rfl
    | succ i =>
      simp only [take_succ_cons, map_cons, sum_cons]
      rw [← Nat.add_assoc]
      exact ih h

lemma physAddrAt_eq (h : HasAddr c v) (hv : v < 2 ^ 64) :
    physAddrAt c v = (c.physAddr + (v - c.startAddr)) % 2 ^ 64 := by
  have hle := h.1
  have hdiff : (v + 2 ^ 64 - c.startAddr) % 2 ^ 64 = v - c.startAddr := by omega
  unfold physAddrAt
  rw [hdiff]

lemma boundLoop_done (n : Nat) : boundLoop table order n ret curr 0 paddrs sizes cache = ⟨ret, paddrs, sizes, cache⟩ := by
  cases n with
  | zero => rfl
  | succ n => rfl

lemma boundLoop_found (h : PageTable table) (horder : order.Perm pageTypes) (hsub : SubMap cache table)
    (hc : c ∈ pagesOf table) (haddr : HasAddr c curr) (hleft : 0 < left) (hcurr : curr < 2 ^ 64) :
    boundLoop table order (n + 1) ret curr left paddrs sizes cache =
      if (curr + left) % 2 ^ 64 ≤ pageEnd c % 2 ^ 64 then
        ⟨ret + 1, Function.update paddrs ret (physAddrAt c curr), Function.update sizes ret left, cache.assign c⟩
      else
        boundLoop table order n (ret + 1) ((curr + (pageEnd c % 2 ^ 64 + 2 ^ 64 - curr) % 2 ^ 64) % 2 ^ 64)
          ((left + 2 ^ 64 - (pageEnd c % 2 ^ 64 + 2 ^ 64 - curr) % 2 ^ 64) % 2 ^ 64)
          (Function.update paddrs ret (physAddrAt c curr))
          (Function.update sizes ret ((pageEnd c % 2 ^ 64 + 2 ^ 64 - curr) % 2 ^ 64)) (cache.assign c) := by
  have hfound := lookUpChunk_found h hsub hcurr hc haddr (mem_of_perm_pageTypes horder h hc)
  rw [AddressManager.boundLoop, if_neg (by omega), hfound]
  dsimp only
  rw [boundLoop_done]
  rfl

lemma boundLoop_missing (h : PageTable table) (hsub : SubMap cache table)
    (hnone : ∀ c ∈ pagesOf table, ¬ HasAddr c curr) (hleft : 0 < left) (hcurr : curr < 2 ^ 64) :
    boundLoop table order (n + 1) ret curr left paddrs sizes cache = ⟨0, paddrs, sizes, cache⟩ := by
  have hmissing : lookUpChunk table order curr cache = none :=
    lookUpChunk_none h hsub hcurr fun c hc haddr => absurd haddr (hnone c hc)
  rw [AddressManager.boundLoop, if_neg (by omega), hmissing]

lemma boundLoop_pass (h : PageTable table) (horder : order.Perm pageTypes) (hsub : SubMap cache table)
    (hc : c ∈ pagesOf table) (haddr : HasAddr c curr) (hleft : 0 < left) (hend : curr + left < 2 ^ 64)
    (htop : pageEnd c < 2 ^ 64) :
    boundLoop table order (n + 1) ret curr left paddrs sizes cache =
      boundLoop table order n (ret + 1) (curr + min left (pageEnd c - curr)) (left - min left (pageEnd c - curr))
        (Function.update paddrs ret (physAddrAt c curr)) (Function.update sizes ret (min left (pageEnd c - curr)))
        (cache.assign c) := by
  have hlt := haddr.2
  rw [boundLoop_found h horder hsub hc haddr hleft (by omega), Nat.mod_eq_of_lt hend, Nat.mod_eq_of_lt htop]
  split
  · rename_i hinside
    rw [Nat.min_eq_left (by omega), Nat.sub_self, boundLoop_done]
  · rename_i hacross
    have hcovered : (pageEnd c + 2 ^ 64 - curr) % 2 ^ 64 = pageEnd c - curr := by omega
    have hcursor : (curr + (pageEnd c - curr)) % 2 ^ 64 = curr + (pageEnd c - curr) := by omega
    have hrest : (left + 2 ^ 64 - (pageEnd c - curr)) % 2 ^ 64 = left - (pageEnd c - curr) := by omega
    rw [hcovered, hcursor, hrest, Nat.min_eq_right (by omega)]

lemma boundLoop_ret (n : Nat) : ∀ {ret curr left paddrs sizes cache},
    (boundLoop table order n ret curr left paddrs sizes cache).ret = 0 ∨
      ret ≤ (boundLoop table order n ret curr left paddrs sizes cache).ret ∧
        (0 < left → ret < (boundLoop table order n ret curr left paddrs sizes cache).ret) := by
  induction n with
  | zero =>
    intro ret curr left paddrs sizes cache
    unfold AddressManager.boundLoop
    by_cases hleft : 0 < left
    · left
      simp [hleft]
    · right
      simp [hleft]
  | succ n ih =>
    intro ret curr left paddrs sizes cache
    unfold AddressManager.boundLoop
    split
    · right
      rename_i hzero
      exact ⟨le_rfl, fun hleft => absurd hzero (by omega)⟩
    · split
      · exact Or.inl rfl
      · dsimp only
        split
        all_goals
          apply Or.imp_right _ ih
          intro hret
          exact ⟨Nat.le_of_succ_le hret.1, fun _ => hret.1⟩

lemma boundLoop_frame (n : Nat) : ∀ {ret curr left paddrs sizes cache} (i : Nat), ret + n ≤ i →
    (boundLoop table order n ret curr left paddrs sizes cache).paddrs i = paddrs i ∧
      (boundLoop table order n ret curr left paddrs sizes cache).paddrSizes i = sizes i := by
  induction n with
  | zero =>
    intro ret curr left paddrs sizes cache i hi
    exact ⟨rfl, rfl⟩
  | succ n ih =>
    intro ret curr left paddrs sizes cache i hi
    have hne : i ≠ ret := by omega
    have hle : ret + 1 + n ≤ i := by omega
    unfold AddressManager.boundLoop
    split
    · exact ⟨rfl, rfl⟩
    · split
      · exact ⟨rfl, rfl⟩
      · dsimp only
        split
        all_goals
          rw [(ih i hle).1, (ih i hle).2, update_of_ne hne, update_of_ne hne]
          exact ⟨rfl, rfl⟩

section

variable (h : PageTable table)
include h

section

variable (horder : order.Perm pageTypes)
include horder

lemma boundLoop_cuts (hcuts : PageCuts table curr left pieces) (hend : curr + left < 2 ^ 64)
    (htop : ∀ c ∈ pagesOf table, pageEnd c = 2 ^ 64 → curr + left ≤ c.startAddr) :
    ∀ {n ret paddrs sizes cache}, SubMap cache table → pieces.length ≤ n →
      boundLoop table order n ret curr left paddrs sizes cache =
        ⟨ret + pieces.length, writeAll paddrs ret (pieceAddrs curr pieces),
          writeAll sizes ret (pieces.map Prod.snd), pieces.foldl (fun m piece => m.assign piece.1) cache⟩ := by
  induction hcuts with
  | nil curr =>
    intro n ret paddrs sizes cache hsub hn
    exact boundLoop_done n
  | @cons curr left c pieces hc hlo hhi hleft hrest ih =>
    intro n ret paddrs sizes cache hsub hn
    obtain ⟨n, rfl⟩ := Nat.exists_eq_succ_of_ne_zero (show n ≠ 0 by simp at hn; omega)
    have hpage : pageEnd c < 2 ^ 64 := by
      apply lt_of_le_of_ne (h.pageEnd_le hc)
      intro heq
      have hstart := htop c hc heq
      omega
    have hsum : curr + min left (pageEnd c - curr) + (left - min left (pageEnd c - curr)) = curr + left := by omega
    rw [boundLoop_pass h horder hsub hc ⟨hlo, hhi⟩ hleft hend hpage,
      ih (by omega) (by rw [hsum]; exact htop) (hsub.assign hc) (by simp at hn; omega)]
    rw [length_cons, Nat.add_assoc, Nat.add_comm 1]
    rfl

lemma boundLoop_short (hcuts : PageCuts table curr left pieces) (hend : curr + left < 2 ^ 64) :
    ∀ {n ret paddrs sizes cache}, SubMap cache table → n < pieces.length →
      (boundLoop table order n ret curr left paddrs sizes cache).ret = 0 := by
  induction hcuts with
  | nil curr =>
    intro n ret paddrs sizes cache hsub hn
    simp at hn
  | @cons curr left c pieces hc hlo hhi hleft hrest ih =>
    intro n ret paddrs sizes cache hsub hn
    cases n with
    | zero => exact if_pos hleft
    | succ n =>
      have hn' : n < pieces.length := by simpa using hn
      -- this piece is not the last one
      have hnext : 0 < left - min left (pageEnd c - curr) := by
        apply Nat.pos_of_ne_zero
        intro hzero
        rw [hzero] at hrest
        cases hrest with
        | nil => simp at hn'
        | cons _ _ _ hpos => omega
      rw [boundLoop_pass h horder hsub hc ⟨hlo, hhi⟩ hleft hend (by omega)]
      exact ih (by omega) (hsub.assign hc) hn'

lemma boundLoop_uncovered (n : Nat) :
    ∀ {ret curr left paddrs sizes cache}, SubMap cache table → curr + left < 2 ^ 64 → ¬ PagesCover table curr left →
      (boundLoop table order n ret curr left paddrs sizes cache).ret = 0 := by
  induction n with
  | zero =>
    intro ret curr left paddrs sizes cache hsub hend hcover
    apply if_pos
    apply Nat.pos_of_ne_zero
    rintro rfl
    exact hcover (covers_zero curr)
  | succ n ih =>
    intro ret curr left paddrs sizes cache hsub hend hcover
    have hleft : 0 < left := by
      apply Nat.pos_of_ne_zero
      rintro rfl
      exact hcover (covers_zero curr)
    by_cases hpage : ∃ c ∈ pagesOf table, HasAddr c curr
    · obtain ⟨c, hc, haddr⟩ := hpage
      have hlt := haddr.2
      have hinside : curr + min left (pageEnd c - curr) ≤ pageEnd c := by omega
      have hrest : ¬ PagesCover table (curr + min left (pageEnd c - curr)) (left - min left (pageEnd c - curr)) := by
        intro hrest
        apply hcover
        exact (covers_iff hc haddr.1 hinside (Nat.min_le_left _ _)).mpr hrest
      have hacross : pageEnd c < curr + left := by
        by_contra hle
        apply hrest
        have hzero : left - min left (pageEnd c - curr) = 0 := by omega
        rw [hzero]
        exact covers_zero _
      rw [boundLoop_pass h horder hsub hc haddr hleft hend (by omega)]
      exact ih (hsub.assign hc) (by omega) hrest
    · rw [boundLoop_missing h hsub (fun c hc haddr => hpage ⟨c, hc, haddr⟩) hleft (by omega)]

lemma boundLoop_top (hcuts : PageCuts table curr left pieces) (hleft : 0 < left) (hend : curr + left < 2 ^ 64)
    {top : PhysChunk} (htop : top ∈ pagesOf table) (hstart : top.startAddr < curr + left)
    (hlast : pageEnd top = 2 ^ 64) :
    ∀ {n ret paddrs sizes cache}, SubMap cache table → pieces.length ≤ n →
      (boundLoop table order n ret curr left paddrs sizes cache).ret = 0 ∨
        ret + pieces.length < (boundLoop table order n ret curr left paddrs sizes cache).ret := by
  induction hcuts with
  | nil curr => exact absurd hleft (lt_irrefl 0)
  | @cons curr left c pieces hc hlo hhi hpos hrest ih =>
    intro n ret paddrs sizes cache hsub hn
    obtain ⟨n, rfl⟩ := Nat.exists_eq_succ_of_ne_zero (show n ≠ 0 by simp at hn; omega)
    have hn' : pieces.length ≤ n := by simpa using hn
    by_cases hpage : pageEnd c < 2 ^ 64
    · -- the last page is behind this one
      have hnext : pageEnd c ≤ top.startAddr := by
        have hne : c ≠ top := by
          rintro rfl
          omega
        have hsides := h.apart c hc top htop hne
        have hsize := h.size_pos htop
        unfold pageEnd at hlast hsides
        rcases hsides with hle | hle
        · exact hle
        · unfold pageEnd at hhi hpage
          omega
      rw [boundLoop_pass h horder hsub hc ⟨hlo, hhi⟩ hleft hend hpage]
      apply Or.imp_right _ (ih (by omega) (by omega) (by omega) (hsub.assign hc) hn')
      rw [length_cons]
      omega
    · have hpage' : pageEnd c = 2 ^ 64 := le_antisymm (h.pageEnd_le hc) (Nat.le_of_not_lt hpage)
      have hpieces : pieces.length = 0 := by
        have hzero : left - min left (pageEnd c - curr) = 0 := by omega
        rw [hzero] at hrest
        cases hrest with
        | nil => rfl
        | cons _ _ _ hpos => exact absurd hpos (lt_irrefl 0)
      rw [boundLoop_found h horder hsub hc ⟨hlo, hhi⟩ hleft (by omega), hpage', Nat.mod_eq_of_lt hend, Nat.mod_self,
        if_neg (by omega), length_cons, hpieces]
      have hcurr : 0 < curr := by
        obtain ⟨k, hk, hsize⟩ := exists_pageSize (h.type _ c hc)
        have hlt : 2 ^ k < 2 ^ 64 := Nat.pow_lt_pow_right (by decide) (by omega)
        unfold pageEnd PhysChunk.getChunkSize at hpage'
        omega
      have hagain : 0 < (left + 2 ^ 64 - (0 + 2 ^ 64 - curr) % 2 ^ 64) % 2 ^ 64 := by omega
      apply Or.imp_right _ (boundLoop_ret n)
      intro hret
      exact hret.2 hagain

end

end

def segmentStart (v : Nat) (b : Bound) (i : Nat) : Nat := v + ∑ j ∈ Finset.range i, b.paddrSizes j

/-- `GetPhysAddrBound` of the range from `v` on, for arrays with any values. Sums of addresses are
those of 64 bits. -/
structure BoundExact (table : AddressMap) (v len maxNum : Nat) (paddrs sizes : Nat → Nat) (b : Bound) : Prop where
  positive : 0 < b.ret ↔ PagesCover table v len ∧ (pagesTouched table v len).ncard ≤ maxNum
  num : 0 < b.ret → b.ret = (pagesTouched table v len).ncard
  sum : 0 < b.ret → ∑ i ∈ Finset.range b.ret, b.paddrSizes i = len
  segment : 0 < b.ret → ∀ i < b.ret, ∃ c ∈ pagesOf table, c.startAddr ≤ segmentStart v b i ∧
    segmentStart v b i + b.paddrSizes i ≤ pageEnd c ∧
    b.paddrs i = (c.physAddr + (segmentStart v b i - c.startAddr)) % 2 ^ 64
  unwritten : ∀ i, maxNum ≤ i → b.paddrs i = paddrs i ∧ b.paddrSizes i = sizes i

structure AddrExact (table : AddressMap) (v paddr : Nat) : Prop where
  found : ∀ c ∈ pagesOf table, HasAddr c v → paddr = (c.physAddr + (v - c.startAddr)) % 2 ^ 64
  missing : (∀ c ∈ pagesOf table, ¬ HasAddr c v) → paddr = 0

structure TranslatesExactly (table : AddressMap) (order : List AlignType) (v len maxNum : Nat)
    (paddrs sizes : Nat → Nat) (cache : AddressMap) : Prop where
  bound : BoundExact table v len maxNum paddrs sizes (getPhysAddrBound table order v len paddrs sizes maxNum cache)
  addr : AddrExact table v (getPhysAddr table order v cache).1
  order : ∀ order' : List AlignType, order'.Perm pageTypes →
    getPhysAddrBound table order' v len paddrs sizes maxNum cache =
      getPhysAddrBound table order v len paddrs sizes maxNum cache ∧
    getPhysAddr table order' v cache = getPhysAddr table order v cache

/-- The loop computes the end of the address space: as the end of a range that is in more than the
page of its first address, or as the end of the page that has the last address of a range. -/
def OverflowsAtTop (table : AddressMap) (v len maxNum : Nat) : Prop :=
  v + len = 2 ^ 64 ∧ 0 < maxNum ∧ (∃ c ∈ pagesOf table, HasAddr c v ∧ pageEnd c < 2 ^ 64) ∨
    v + len < 2 ^ 64 ∧ PagesCover table v len ∧ (pagesTouched table v len).ncard ≤ maxNum ∧
      ∃ c ∈ pagesOf table, c.startAddr < v + len ∧ pageEnd c = 2 ^ 64

lemma addrExact (h : PageTable table) (horder : order.Perm pageTypes) (hsub : SubMap cache table) (hv : v < 2 ^ 64) :
    AddrExact table v (getPhysAddr table order v cache).1 where
  found c hc haddr := by
    have hfound := lookUpChunk_found h hsub hv hc haddr (mem_of_perm_pageTypes horder h hc)
    unfold getPhysAddr
    rw [hfound]
    exact physAddrAt_eq haddr hv
  missing hnone := by
    have hmissing : lookUpChunk table order v cache = none :=
      lookUpChunk_none h hsub hv fun c hc haddr => absurd haddr (hnone c hc)
    unfold getPhysAddr
    rw [hmissing]

lemma boundExact_zero (hret : (getPhysAddrBound table order v len paddrs sizes maxNum cache).ret = 0)
    (hnot : ¬ (PagesCover table v len ∧ (pagesTouched table v len).ncard ≤ maxNum)) :
    BoundExact table v len maxNum paddrs sizes (getPhysAddrBound table order v len paddrs sizes maxNum cache) where
  positive := by
    rw [hret]
    exact ⟨fun hpos => absurd hpos (lt_irrefl 0), fun hcover => absurd hcover hnot⟩
  num hpos := by
    rw [hret] at hpos
    exact absurd hpos (lt_irrefl 0)
  sum hpos := by
    rw [hret] at hpos
    exact absurd hpos (lt_irrefl 0)
  segment hpos := by
    rw [hret] at hpos
    exact absurd hpos (lt_irrefl 0)
  unwritten i hi := boundLoop_frame maxNum i (by omega)

lemma sum_pieces (f : Nat → Nat) (hk : k ≤ pieces.length) :
    ∑ j ∈ Finset.range k, writeAll f 0 (pieces.map Prod.snd) j = ((pieces.take k).map Prod.snd).sum := by
  rw [sum_writeAll f _ (by rw [length_map]; exact hk), map_take]

lemma boundExact_cuts (h : PageTable table) (hcuts : PageCuts table v len pieces) (hlen : 0 < len)
    (hend : v + len ≤ 2 ^ 64) (hn : pieces.length ≤ maxNum) {cache' : AddressMap}
    (hbound : getPhysAddrBound table order v len paddrs sizes maxNum cache =
      ⟨0 + pieces.length, writeAll paddrs 0 (pieceAddrs v pieces), writeAll sizes 0 (pieces.map Prod.snd), cache'⟩) :
    BoundExact table v len maxNum paddrs sizes (getPhysAddrBound table order v len paddrs sizes maxNum cache) := by
  have hframe : ∀ i, maxNum ≤ i →
      (getPhysAddrBound table order v len paddrs sizes maxNum cache).paddrs i = paddrs i ∧
        (getPhysAddrBound table order v len paddrs sizes maxNum cache).paddrSizes i = sizes i :=
    fun i hi => boundLoop_frame maxNum i (by omega)
  have hcard : (pagesTouched table v len).ncard = pieces.length := (hcuts.touched h.apart).2
  have hpos : 0 < pieces.length := by
    cases hcuts with
    | nil => exact absurd hlen (lt_irrefl 0)
    | cons => exact Nat.succ_pos _
  rw [hbound] at hframe ⊢
  refine ⟨?_, ?_, ?_, ?_, hframe⟩
  · rw [hcard]
    simp only [Nat.zero_add]
    exact ⟨fun _ => ⟨hcuts.covers, hn⟩, fun _ => hpos⟩
  · intro _
    rw [hcard]
    exact Nat.zero_add _
  · intro _
    change ∑ i ∈ Finset.range (0 + pieces.length), writeAll sizes 0 (pieces.map Prod.snd) i = len
    rw [Nat.zero_add, sum_pieces sizes le_rfl, take_length]
    exact hcuts.sum
  · intro _ i hi
    simp only [Nat.zero_add] at hi
    obtain ⟨⟨c, m⟩, hget⟩ : ∃ piece, pieces[i]? = some piece := ⟨_, getElem?_eq_getElem hi⟩
    obtain ⟨hc, hm, hlo, hhi⟩ := hcuts.piece hget
    have hstart : ∑ j ∈ Finset.range i, writeAll sizes 0 (pieces.map Prod.snd) j =
        ((pieces.take i).map Prod.snd).sum := sum_pieces sizes (by omega)
    have hsize : writeAll sizes 0 (pieces.map Prod.snd) i = m := by
      have hmap : (pieces.map Prod.snd)[i]? = some m := by rw [getElem?_map, hget]; rfl
      have hwritten := writeAll_get (f := sizes) (i := 0) hmap
      rw [Nat.zero_add] at hwritten
      exact hwritten
    have hpaddr := writeAll_get (f := paddrs) (i := 0) (pieceAddrs_get (v := v) hget)
    rw [Nat.zero_add] at hpaddr
    have hlt : v + ((pieces.take i).map Prod.snd).sum < pageEnd c := by omega
    refine ⟨c, hc, ?_, ?_, ?_⟩
    · unfold segmentStart
      dsimp only
      rw [hstart]
      exact hlo
    · unfold segmentStart
      dsimp only
      rw [hstart, hsize]
      exact hhi
    · unfold segmentStart
      dsimp only
      rw [hstart, hpaddr]
      exact physAddrAt_eq ⟨hlo, hlt⟩ (lt_of_lt_of_le hlt (h.pageEnd_le hc))

lemma bound_at_end (h : PageTable table) (horder : order.Perm pageTypes) (hsub : SubMap cache table)
    (hc : c ∈ pagesOf table) (haddr : HasAddr c v) (hlen : 0 < len) (hend : v + len = 2 ^ 64) (hnum : 0 < maxNum) :
    getPhysAddrBound table order v len paddrs sizes maxNum cache =
      ⟨1, Function.update paddrs 0 (physAddrAt c v), Function.update sizes 0 len, cache.assign c⟩ := by
  obtain ⟨n, rfl⟩ := Nat.exists_eq_succ_of_ne_zero hnum.ne'
  unfold getPhysAddrBound
  rw [boundLoop_found h horder hsub hc haddr hlen (by omega), hend, Nat.mod_self, if_pos (Nat.zero_le _)]

lemma not_covers_of_missing (hlen : 0 < len) (hnone : ∀ c ∈ pagesOf table, ¬ HasAddr c v) : ¬ PagesCover table v len := by
  intro hcover
  obtain ⟨c, hc, haddr⟩ := hcover v le_rfl (by omega)
  exact hnone c hc haddr

section

variable (h : PageTable table)
include h

lemma touched_pos (hlen : 0 < len) (hcover : PagesCover table v len) :
    0 < (pagesTouched table v len).ncard := by
  obtain ⟨pieces, hcuts⟩ := exists_cuts_of_covers hcover
  have hcard : (pagesTouched table v len).ncard = pieces.length := (hcuts.touched h.apart).2
  rw [hcard]
  cases hcuts with
  | nil => exact absurd hlen (lt_irrefl 0)
  | cons => exact Nat.succ_pos _

lemma boundExact_at_end (horder : order.Perm pageTypes) (hsub : SubMap cache table) (hlen : 0 < len)
    (hend : v + len = 2 ^ 64) (hover : ¬ OverflowsAtTop table v len maxNum) :
    BoundExact table v len maxNum paddrs sizes (getPhysAddrBound table order v len paddrs sizes maxNum cache) := by
  rcases Nat.eq_zero_or_pos maxNum with rfl | hnum
  · apply boundExact_zero
    · exact if_pos hlen
    · rintro ⟨hcover, hle⟩
      have hpos := touched_pos h hlen hcover
      omega
  · by_cases hpage : ∃ c ∈ pagesOf table, HasAddr c v
    · obtain ⟨c, hc, haddr⟩ := hpage
      have hlast : pageEnd c = 2 ^ 64 := by
        apply le_antisymm (h.pageEnd_le hc)
        apply Nat.le_of_not_lt
        intro hlt
        exact hover (Or.inl ⟨hend, hnum, c, hc, haddr, hlt⟩)
      have hcuts : PageCuts table v len [(c, len)] := Cuts.single hc haddr.1 (by omega) hlen
      exact boundExact_cuts h hcuts hlen hend.le hnum (bound_at_end h horder hsub hc haddr hlen hend hnum)
    · have hnone : ∀ c ∈ pagesOf table, ¬ HasAddr c v := fun c hc haddr => hpage ⟨c, hc, haddr⟩
      obtain ⟨n, rfl⟩ := Nat.exists_eq_succ_of_ne_zero hnum.ne'
      apply boundExact_zero
      · unfold getPhysAddrBound
        rw [boundLoop_missing h hsub hnone hlen (by omega)]
      · rintro ⟨hcover, -⟩
        exact not_covers_of_missing hlen hnone hcover

lemma boundExact_below_end (horder : order.Perm pageTypes) (hsub : SubMap cache table) (hlen : 0 < len)
    (hend : v + len < 2 ^ 64) (hover : ¬ OverflowsAtTop table v len maxNum) :
    BoundExact table v len maxNum paddrs sizes (getPhysAddrBound table order v len paddrs sizes maxNum cache) := by
  by_cases hcover : PagesCover table v len
  · obtain ⟨pieces, hcuts⟩ := exists_cuts_of_covers hcover
    have hcard : (pagesTouched table v len).ncard = pieces.length := (hcuts.touched h.apart).2
    by_cases hn : pieces.length ≤ maxNum
    · have htop : ∀ c ∈ pagesOf table, pageEnd c = 2 ^ 64 → v + len ≤ c.startAddr := by
        intro c hc hlast
        by_contra hlt
        exact hover (Or.inr ⟨hend, hcover, hcard.trans_le hn, c, hc, by omega, hlast⟩)
      exact boundExact_cuts h hcuts hlen hend.le hn (boundLoop_cuts h horder hcuts hend htop hsub hn)
    · apply boundExact_zero
      · exact boundLoop_short h horder hcuts hend hsub (by omega)
      · rintro ⟨-, hle⟩
        omega
  · apply boundExact_zero
    · exact boundLoop_uncovered h horder maxNum hsub hend hcover
    · exact fun hboth => hcover hboth.1

lemma not_boundExact (horder : order.Perm pageTypes) (hsub : SubMap cache table) (hlen : 0 < len)
    (hover : OverflowsAtTop table v len maxNum) :
    ¬ BoundExact table v len maxNum paddrs sizes (getPhysAddrBound table order v len paddrs sizes maxNum cache) := by
  intro hexact
  rcases hover with ⟨hend, hnum, c, hc, haddr, hlt⟩ | ⟨hend, hcover, hle, c, hc, hstart, hlast⟩
  · -- the page of the first address does not have the whole range
    rw [bound_at_end h horder hsub hc haddr hlen hend hnum] at hexact
    obtain ⟨c', hc', hlo, hhi, -⟩ := hexact.segment Nat.one_pos 0 Nat.one_pos
    simp only [segmentStart, Finset.range_zero, Finset.sum_empty, Nat.add_zero, update_self] at hlo hhi
    have heq : c' = c := h.eq_of_hasAddr hc' hc ⟨hlo, by omega⟩ haddr
    rw [heq] at hhi
    omega
  · obtain ⟨pieces, hcuts⟩ := exists_cuts_of_covers hcover
    have hcard : (pagesTouched table v len).ncard = pieces.length := (hcuts.touched h.apart).2
    have hpos := hexact.positive.mpr ⟨hcover, hle⟩
    have hret := hexact.num hpos
    have hwrong : (getPhysAddrBound table order v len paddrs sizes maxNum cache).ret = 0 ∨
        0 + pieces.length < (getPhysAddrBound table order v len paddrs sizes maxNum cache).ret :=
      boundLoop_top h horder hcuts hlen hend hc hstart hlast hsub (hcard ▸ hle)
    omega

end

def hugePage : PhysChunk := ⟨0x200000, 0x40000000, .kPage2Mb⟩

/-- A range from inside the only page of the table to the end of the address space: one segment is
returned for it, which leaves the page. -/
theorem range_to_end_translated :
    PageTable (AddressMap.empty.assign hugePage) ∧
      (getPhysAddrBound (AddressMap.empty.assign hugePage) defaultOrder 0x300000 (2 ^ 64 - 0x300000) (fun _ => 0)
        (fun _ => 0) 1 AddressMap.empty).ret = 1 ∧
      ¬ PagesCover (AddressMap.empty.assign hugePage) 0x300000 (2 ^ 64 - 0x300000) ∧
      ¬ TranslatesExactly (AddressMap.empty.assign hugePage) defaultOrder 0x300000 (2 ^ 64 - 0x300000) 1 (fun _ => 0)
        (fun _ => 0) AddressMap.empty := by
  have htable : PageTable (AddressMap.empty.assign hugePage) :=
    pageTable_empty.assign (by decide) (by decide) (by decide) fun c hc => by cases hc
  have hmem : hugePage ∈ pagesOf (AddressMap.empty.assign hugePage) := Function.update_self _ _ _
  refine ⟨htable, by decide, ?_, ?_⟩
  · intro hcover
    obtain ⟨c, hc, -, hend⟩ := hcover 0x400000 (by decide) (by decide)
    rcases assign_eq_some hc with ⟨-, rfl⟩ | ⟨-, hold⟩
    · exact absurd hend (by decide)
    · cases hold
  · intro hexact
    refine not_boundExact htable (by decide) (subMap_empty _) (by decide) (Or.inl ?_) hexact.bound
    exact ⟨by decide, Nat.one_pos, hugePage, hmem, ⟨by decide, by decide⟩, by decide⟩

/-- A range is translated exactly unless the loop computes the end of the address space. -/
theorem address_range_exact_iff (table : AddressMap) (h : PageTable table) (cache : AddressMap)
    (hsub : SubMap cache table) (order : List AlignType) (horder : order.Perm pageTypes) (v len maxNum : Nat)
    (hlen : 1 ≤ len) (hwrap : v + len ≤ 2 ^ 64) (paddrs sizes : Nat → Nat) :
    TranslatesExactly table order v len maxNum paddrs sizes cache ↔ ¬ OverflowsAtTop table v len maxNum := by
  have hv : v < 2 ^ 64 := by omega
  constructor
  · intro hexact hover
    exact not_boundExact h horder hsub hlen hover hexact.bound
  · intro hover
    refine ⟨?_, addrExact h horder hsub hv, ?_⟩
    · rcases Nat.lt_or_eq_of_le hwrap with hend | hend
      · exact boundExact_below_end h horder hsub hlen hend hover
      · exact boundExact_at_end h horder hsub hlen hend hover
    · intro order' horder'
      refine ⟨boundLoop_order horder horder' h maxNum hsub hv, ?_⟩
      unfold getPhysAddr
      rw [lookUpChunk_order horder horder' h hsub hv]

def twoPages : AddressMap :=
  (AddressMap.empty.assign ⟨2097152, 1073741824, .kPage2Mb⟩).assign ⟨4194304, 8192, .kPage4kb⟩

/-- A range over the border of the two pages. -/
theorem address_range_exact_two_pages :
    TranslatesExactly twoPages defaultOrder 4194300 8 2 (fun _ => 0) (fun _ => 0) AddressMap.empty := by
  have hfirst : PageTable (AddressMap.empty.assign ⟨2097152, 1073741824, .kPage2Mb⟩) :=
    pageTable_empty.assign (by decide) (by decide) (by decide) fun c hc => by cases hc
  have htable : PageTable twoPages := by
    apply hfirst.assign (by decide) (by decide) (by decide)
    intro c hc _
    rcases assign_eq_some hc with ⟨-, rfl⟩ | ⟨-, hold⟩
    · exact Or.inr (by decide)
    · cases hold
  rw [address_range_exact_iff twoPages htable _ (subMap_empty _) defaultOrder (by decide) 4194300 8 2 (by decide)
    (by norm_num)]
  -- both pages end far below
  rintro (⟨hend, -⟩ | ⟨-, -, -, c, hc, -, hlast⟩)
  · exact absurd hend (by decide)
  · rcases assign_eq_some hc with ⟨-, rfl⟩ | ⟨-, hold⟩
    · exact absurd hlast (by decide)
    · rcases assign_eq_some hold with ⟨-, rfl⟩ | ⟨-, hold⟩
      · exact absurd hlast (by decide)
      · cases hold

end Vesal.Proofs
