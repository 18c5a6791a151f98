import Vesal.AddressManager
import Vesal.Library.RangeCover

/-! # What a look-up of an address finds -/

namespace Vesal.Proofs

open Library AddressManager List Function

def pageTypes : List AlignType := [.kPage4kb, .kPage2Mb, .kPage512Mb, .kPage1Gb]

def pageEnd (c : PhysChunk) : Nat := c.startAddr + c.getChunkSize

def pagesOf (table : AddressMap) : Set PhysChunk := {c | table c.startAddr = some c}

def HasAddr (c : PhysChunk) (v : Nat) : Prop := c.startAddr ≤ v ∧ v < pageEnd c

/-- The entries are pages of 64-bit addresses, each aligned to its own size, and no two of them
share an address. -/
structure PageTable (table : AddressMap) : Prop where
  key : ∀ a c, table a = some c → c.startAddr = a
  type : ∀ a c, table a = some c → c.alignType ∈ pageTypes
  aligned : ∀ a c, table a = some c → c.getChunkSize ∣ c.startAddr
  addr_lt : ∀ a c, table a = some c → c.startAddr < 2 ^ 64
  apart : Apart PhysChunk.startAddr pageEnd (pagesOf table)

def SubMap (cache table : AddressMap) : Prop := ∀ a c, cache a = some c → table a = some c

variable {table cache : AddressMap} {order : List AlignType} {v : Nat} {c : PhysChunk}

variable {type : AlignType} {c' : PhysChunk} {a : Nat} {order' : List AlignType}

lemma exists_pageSize (h : type ∈ pageTypes) :
    ∃ k ≤ 30, alignTypeToPageSize type = 2 ^ k := by
  simp only [pageTypes, mem_cons, not_mem_nil, or_false] at h
  rcases h with rfl | rfl | rfl | rfl
  · exact ⟨12, by decide, by decide⟩
  · exact ⟨21, by decide, by decide⟩
  · exact ⟨29, by decide, by decide⟩
  · exact ⟨30, by decide, by decide⟩

lemma land_pagemask {k : Nat} (hk : k < 64) (hv : v < 2 ^ 64) : v &&& (2 ^ 64 - 2 ^ k) = v / 2 ^ k * 2 ^ k := by
  apply Nat.eq_of_testBit_eq
  intro i
  have hpos := Nat.two_pow_pos k
  have hle := Nat.pow_lt_pow_right (a := 2) (by decide) hk
  have hmask : 2 ^ 64 - 2 ^ k = 2 ^ 64 - ((2 ^ k - 1) + 1) := by omega
  have hlt : 2 ^ k - 1 < 2 ^ 64 := by omega
  rw [Nat.testBit_and, hmask, Nat.testBit_two_pow_sub_succ hlt, Nat.testBit_two_pow_sub_one,
    Nat.testBit_mul_two_pow, Nat.testBit_div_two_pow]
  by_cases hi : i < k
  · simp [hi, show ¬ k ≤ i by omega]
  · have hsum : i - k + k = i := by omega
    by_cases htop : i < 64
    · simp [hi, htop, hsum, show k ≤ i by omega]
    · have hzero : v.testBit i = false :=
        Nat.testBit_lt_two_pow (lt_of_lt_of_le hv (Nat.pow_le_pow_right (by decide) (by omega)))
      simp [hsum, hzero]

lemma alignPage_eq (h : type ∈ pageTypes) (hv : v < 2 ^ 64) :
    alignPage v type = v / alignTypeToPageSize type * alignTypeToPageSize type := by
  obtain ⟨k, hk, hsize⟩ := exists_pageSize h
  have hpos := Nat.two_pow_pos k
  unfold alignPage vesalPageAlign vesalPagemask
  rw [hsize, Nat.mod_eq_of_lt (by omega)]
  exact land_pagemask (by omega) hv

section

variable (h : PageTable table)
include h

section

variable (hc : c ∈ pagesOf table)
include hc

lemma PageTable.size_pos : 0 < c.getChunkSize := by
  obtain ⟨k, -, hsize⟩ := exists_pageSize (h.type _ c hc)
  unfold PhysChunk.getChunkSize
  rw [hsize]
  exact Nat.two_pow_pos k

lemma PageTable.pageEnd_le : pageEnd c ≤ 2 ^ 64 := by
  obtain ⟨k, hk, hsize⟩ := exists_pageSize (h.type _ c hc)
  have hlt := h.addr_lt _ c hc
  have hdvd : c.getChunkSize ∣ 2 ^ 64 := by
    unfold PhysChunk.getChunkSize
    rw [hsize]
    exact Nat.pow_dvd_pow 2 (by omega)
  obtain ⟨m, hm⟩ := h.aligned _ c hc
  obtain ⟨n, hn⟩ := hdvd
  rw [hm, hn] at hlt
  have hmn : m + 1 ≤ n := Nat.lt_of_mul_lt_mul_left hlt
  calc c.startAddr + c.getChunkSize = c.getChunkSize * (m + 1) := by rw [hm, Nat.mul_succ]
    _ ≤ c.getChunkSize * n := Nat.mul_le_mul_left _ hmn
    _ = 2 ^ 64 := hn.symm

lemma PageTable.hasAddr_iff (hv : v < 2 ^ 64) :
    HasAddr c v ↔ alignPage v c.alignType = c.startAddr := by
  rw [alignPage_eq (h.type _ c hc) hv]
  have hpos := h.size_pos hc
  obtain ⟨m, hm⟩ := h.aligned _ c hc
  unfold HasAddr pageEnd
  change _ ↔ v / c.getChunkSize * c.getChunkSize = c.startAddr
  rw [hm, Nat.mul_comm (v / c.getChunkSize), Nat.mul_right_inj (by omega), Nat.div_eq_iff hpos]
  constructor
  · rintro ⟨hle, hlt⟩
    rw [Nat.mul_comm] at hle hlt
    omega
  · rintro ⟨hle, hlt⟩
    rw [Nat.mul_comm]
    omega

lemma PageTable.eq_of_hasAddr (hc' : c' ∈ pagesOf table) (hv : HasAddr c v) (hv' : HasAddr c' v) : c = c' :=
  h.apart.eq hc hc' hv hv'

end

lemma PageTable.mem_pagesOf (ha : table a = some c) : c ∈ pagesOf table := by
  have hkey := h.key a c ha
  change table c.startAddr = some c
  rw [hkey]
  exact ha

lemma PageTable.sub (hsub : SubMap cache table) : PageTable cache where
  key a c hc := h.key a c (hsub a c hc)
  type a c hc := h.type a c (hsub a c hc)
  aligned a c hc := h.aligned a c (hsub a c hc)
  addr_lt a c hc := h.addr_lt a c (hsub a c hc)
  apart a ha b hb hne := h.apart a (hsub _ _ ha) b (hsub _ _ hb) hne

end

lemma pageTable_empty : PageTable AddressMap.empty where
  key a c hc := by cases hc
  type a c hc := by cases hc
  aligned a c hc := by cases hc
  addr_lt a c hc := by cases hc
  apart a ha := by cases ha

lemma assign_eq_some (h : table.assign c a = some c') :
    a = c.startAddr ∧ c' = c ∨ a ≠ c.startAddr ∧ table a = some c' := by
  unfold AddressMap.assign at h
  by_cases ha : a = c.startAddr
  · rw [ha, update_self] at h
    cases h
    exact Or.inl ⟨ha, rfl⟩
  · rw [update_of_ne ha] at h
    exact Or.inr ⟨ha, h⟩

section

variable (h : PageTable table)
include h

lemma PageTable.assign (htype : c.alignType ∈ pageTypes) (haligned : c.getChunkSize ∣ c.startAddr)
    (hlt : c.startAddr < 2 ^ 64)
    (hapart : ∀ c' ∈ pagesOf table, c'.startAddr ≠ c.startAddr → pageEnd c ≤ c'.startAddr ∨ pageEnd c' ≤ c.startAddr) :
    PageTable (table.assign c) where
  key a c' hc' := by
    rcases assign_eq_some hc' with ⟨ha, rfl⟩ | ⟨-, hold⟩
    · exact ha.symm
    · exact h.key a c' hold
  type a c' hc' := by
    rcases assign_eq_some hc' with ⟨-, rfl⟩ | ⟨-, hold⟩
    · exact htype
    · exact h.type a c' hold
  aligned a c' hc' := by
    rcases assign_eq_some hc' with ⟨-, rfl⟩ | ⟨-, hold⟩
    · exact haligned
    · exact h.aligned a c' hold
  addr_lt a c' hc' := by
    rcases assign_eq_some hc' with ⟨-, rfl⟩ | ⟨-, hold⟩
    · exact hlt
    · exact h.addr_lt a c' hold
  apart a ha b hb hne := by
    rcases assign_eq_some ha with ⟨-, rfl⟩ | ⟨hkey, holda⟩
    · rcases assign_eq_some hb with ⟨-, rfl⟩ | ⟨hkey, holdb⟩
      · exact absurd rfl hne
      · exact hapart b holdb hkey
    · rcases assign_eq_some hb with ⟨-, rfl⟩ | ⟨-, holdb⟩
      · exact (hapart a holda hkey).symm
      · exact h.apart a holda b holdb hne

lemma PageTable.tableLookUp_sound (hv : v < 2 ^ 64) (hfound : table.tableLookUp v order = some c) :
    c ∈ pagesOf table ∧ HasAddr c v ∧ c.alignType ∈ order := by
  induction order with
  | nil => cases hfound
  | cons type order ih =>
    unfold AddressMap.tableLookUp at hfound
    split at hfound
    · rename_i c' hc'
      split at hfound
      · rename_i htype
        cases hfound
        have hc := h.mem_pagesOf hc'
        refine ⟨hc, (h.hasAddr_iff hc hv).mpr ?_, ?_⟩
        · rw [h.key _ c hc', htype]
        · rw [htype]
          exact mem_cons_self
      · obtain ⟨hc, haddr, hmem⟩ := ih hfound
        exact ⟨hc, haddr, mem_cons_of_mem _ hmem⟩
    · obtain ⟨hc, haddr, hmem⟩ := ih hfound
      exact ⟨hc, haddr, mem_cons_of_mem _ hmem⟩

lemma PageTable.tableLookUp_complete (hv : v < 2 ^ 64) (hc : c ∈ pagesOf table) (haddr : HasAddr c v)
    (htype : c.alignType ∈ order) : table.tableLookUp v order = some c := by
  have hsome : table.tableLookUp v order ≠ none := by
    have hentry : table (alignPage v c.alignType) = some c := by
      rw [(h.hasAddr_iff hc hv).mp haddr]
      exact hc
    induction order with
    | nil => cases htype
    | cons type order ih =>
      unfold AddressMap.tableLookUp
      rcases mem_cons.mp htype with rfl | htype
      · rw [hentry]
        simp
      · have hrest := ih htype
        split
        · split
          · simp
          · exact hrest
        · exact hrest
  obtain ⟨c', hc'⟩ := Option.ne_none_iff_exists'.mp hsome
  obtain ⟨hmem, haddr', -⟩ := h.tableLookUp_sound hv hc'
  rw [hc', h.eq_of_hasAddr hmem hc haddr' haddr]

lemma PageTable.tableLookUp_eq_none (hv : v < 2 ^ 64)
    (hnone : ∀ c ∈ pagesOf table, HasAddr c v → c.alignType ∉ order) : table.tableLookUp v order = none := by
  rw [Option.eq_none_iff_forall_ne_some]
  intro c hc
  obtain ⟨hmem, haddr, htype⟩ := h.tableLookUp_sound hv hc
  exact hnone c hmem haddr htype

end

lemma subMap_empty (table : AddressMap) : SubMap AddressMap.empty table := by
  intro a c hc
  cases hc

lemma SubMap.assign (h : SubMap cache table) (hc : c ∈ pagesOf table) : SubMap (cache.assign c) table := by
  intro a c' hc'
  rcases assign_eq_some hc' with ⟨rfl, rfl⟩ | ⟨-, hold⟩
  · exact hc
  · exact h a c' hold

lemma lookUpChunk_found (h : PageTable table) (hsub : SubMap cache table) (hv : v < 2 ^ 64)
    (hc : c ∈ pagesOf table) (haddr : HasAddr c v) (htype : c.alignType ∈ order) :
    lookUpChunk table order v cache = some (c, cache.assign c) := by
  unfold lookUpChunk
  cases hcache : cache.tableLookUp v order with
  | none => rw [h.tableLookUp_complete hv hc haddr htype]
  | some c' =>
    obtain ⟨hmem, haddr', -⟩ := (h.sub hsub).tableLookUp_sound hv hcache
    have heq : c' = c := h.eq_of_hasAddr (hsub _ _ hmem) hc haddr' haddr
    subst heq
    -- what the cache has is put there once more
    have hsame : cache.assign c' = cache := update_eq_self_iff.mpr (Eq.symm hmem)
    rw [hsame]

lemma lookUpChunk_none (h : PageTable table) (hsub : SubMap cache table) (hv : v < 2 ^ 64)
    (hnone : ∀ c ∈ pagesOf table, HasAddr c v → c.alignType ∉ order) : lookUpChunk table order v cache = none := by
  unfold lookUpChunk
  rw [h.tableLookUp_eq_none hv hnone,
    (h.sub hsub).tableLookUp_eq_none hv fun c hc haddr => hnone c (hsub _ _ hc) haddr]

lemma SubMap.lookUpChunk (hsub : SubMap cache table) (h : PageTable table) (hv : v < 2 ^ 64) {cache' : AddressMap}
    (hfound : lookUpChunk table order v cache = some (c, cache')) :
    SubMap cache' table ∧ c ∈ pagesOf table ∧ HasAddr c v := by
  by_cases hpage : ∃ c ∈ pagesOf table, HasAddr c v ∧ c.alignType ∈ order
  · obtain ⟨c', hc', haddr, htype⟩ := hpage
    rw [lookUpChunk_found h hsub hv hc' haddr htype] at hfound
    cases hfound
    exact ⟨hsub.assign hc', hc', haddr⟩
  · have hnone : AddressManager.lookUpChunk table order v cache = none :=
      lookUpChunk_none h hsub hv fun c hc haddr htype => hpage ⟨c, hc, haddr, htype⟩
    rw [hnone] at hfound
    cases hfound

lemma SubMap.getPhysAddr (hsub : SubMap cache table) (h : PageTable table) (hv : v < 2 ^ 64)
    (order : List AlignType) : SubMap (getPhysAddr table order v cache).2 table := by
  unfold AddressManager.getPhysAddr
  split
  · exact hsub
  · rename_i c cache' hfound
    exact (hsub.lookUpChunk h hv hfound).1

lemma SubMap.boundLoop (h : PageTable table) (order : List AlignType) (n : Nat) :
    ∀ {ret curr left paddrs sizes cache}, SubMap cache table → curr < 2 ^ 64 →
      SubMap (boundLoop table order n ret curr left paddrs sizes cache).cache table := by
  induction n with
  | zero =>
    intro ret curr left paddrs sizes cache hsub hcurr
    exact hsub
  | succ n ih =>
    intro ret curr left paddrs sizes cache hsub hcurr
    unfold AddressManager.boundLoop
    split
    · exact hsub
    · split
      · exact hsub
      · rename_i c cache' hfound
        have hsub' := (hsub.lookUpChunk h hcurr hfound).1
        dsimp only
        split
        · exact ih hsub' hcurr
        · exact ih hsub' (Nat.mod_lt _ (by decide))

lemma mem_of_perm_pageTypes (horder : order.Perm pageTypes) (h : PageTable table) (hc : c ∈ pagesOf table) :
    c.alignType ∈ order := horder.mem_iff.mpr (h.type _ c hc)

lemma lookUpChunk_order (horder : order.Perm pageTypes) (horder' : order'.Perm pageTypes) (h : PageTable table)
    (hsub : SubMap cache table) (hv : v < 2 ^ 64) :
    lookUpChunk table order' v cache = lookUpChunk table order v cache := by
  by_cases hpage : ∃ c ∈ pagesOf table, HasAddr c v
  · obtain ⟨c, hc, haddr⟩ := hpage
    rw [lookUpChunk_found h hsub hv hc haddr (mem_of_perm_pageTypes horder h hc),
      lookUpChunk_found h hsub hv hc haddr (mem_of_perm_pageTypes horder' h hc)]
  · have hnone : ∀ c ∈ pagesOf table, ¬ HasAddr c v := fun c hc haddr => hpage ⟨c, hc, haddr⟩
    rw [lookUpChunk_none h hsub hv fun c hc haddr => absurd haddr (hnone c hc),
      lookUpChunk_none h hsub hv fun c hc haddr => absurd haddr (hnone c hc)]

lemma boundLoop_order (horder : order.Perm pageTypes) (horder' : order'.Perm pageTypes) (h : PageTable table)
    (n : Nat) : ∀ {ret curr left paddrs sizes cache}, SubMap cache table → curr < 2 ^ 64 →
      boundLoop table order' n ret curr left paddrs sizes cache =
        boundLoop table order n ret curr left paddrs sizes cache := by
  induction n with
  | zero =>
    intro ret curr left paddrs sizes cache hsub hcurr
    rfl
  | succ n ih =>
    intro ret curr left paddrs sizes cache hsub hcurr
    unfold AddressManager.boundLoop
    rw [lookUpChunk_order horder horder' h hsub hcurr]
    split
    · rfl
    · split
      · rfl
      · rename_i c cache' hfound
        have hsub' := (hsub.lookUpChunk h hcurr hfound).1
        dsimp only
        split
        · exact ih hsub' hcurr
        · exact ih hsub' (Nat.mod_lt _ (by decide))

end Vesal.Proofs
