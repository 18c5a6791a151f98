import Vesal.Library.EventRuns
import Vesal.ObjectPool

namespace Vesal.Proofs

open Library List Function ObjectPools

/-- The size of the array does not wrap, and for the pools that are there the limit stays the number
of their entries. -/
def LimitFits (s : ObjectPools) : ObjectCall → Prop
  | .setTlsPoolObjectMaxSize maxSize =>
    maxSize + 1 < 2 ^ 61 ∧ ∀ t c, s.pools t = some c → maxSize = c.entries
  | _ => True

/-- Every index is inside its array, and the limit of a pool is the one that it was made with. -/
structure LimitKept (s : ObjectPools) : Prop where
  inside : ∀ use ∈ s.used, use.1 < use.2
  kept : ∀ t c, s.pools t = some c → s.objSizeInObjectCache = c.entries

structure LimitInv (s : ObjectPools) : Prop extends LimitKept s where
  limit : s.objSizeInObjectCache + 1 < 2 ^ 61
  free : ∀ t c, s.pools t = some c → c.freeNum ≤ s.objSizeInObjectCache

variable {s s' : ObjectPools} {c : FreeObjectCache} {limit t : Nat} {r : List Nat × FreeObjectCache}

lemma entries_new (h : limit + 1 < 2 ^ 61) : (FreeObjectCache.new limit).entries = limit := by
  change ((8 + 8 * limit) % 2 ^ 64 - 8) / 8 = limit
  omega

lemma LimitInv.singleton (h : LimitInv s) (t : Nat) :
    (s.singleton t).freeNum ≤ s.objSizeInObjectCache ∧ (s.singleton t).entries = s.objSizeInObjectCache := by
  unfold ObjectPools.singleton
  cases hpool : s.pools t with
  | none => exact ⟨Nat.zero_le _, entries_new h.limit⟩
  | some c => exact ⟨h.free t c hpool, (h.kept t c hpool).symm⟩

/-- What a call does to a cache that is within the limit, and the indices that it uses. -/
def Within (limit : Nat) (c : FreeObjectCache) (r : List Nat × FreeObjectCache) : Prop :=
  r.2.entries = c.entries ∧ (c.freeNum ≤ limit → r.2.freeNum ≤ limit ∧ ∀ index ∈ r.1, index < limit)

lemma getOrNewObject_within (fresh : Option Nat) : Within limit c (getOrNewObject fresh c).2 := by
  unfold getOrNewObject
  split
  · refine ⟨rfl, fun hfree => ⟨(Nat.sub_le _ 1).trans hfree, ?_⟩⟩
    intro index hindex
    rw [mem_singleton.mp hindex]
    omega
  · exact ⟨rfl, fun hfree => ⟨hfree, by simp⟩⟩

lemma returnOrFreeObject_within (obj : Nat) : Within limit c (returnOrFreeObject limit obj c) := by
  unfold returnOrFreeObject
  split
  · rename_i hlt
    refine ⟨rfl, fun _ => ⟨hlt, ?_⟩⟩
    intro index hindex
    rw [mem_singleton.mp hindex]
    exact hlt
  · exact ⟨rfl, fun hfree => ⟨hfree, by simp⟩⟩

lemma LimitInv.store (h : LimitInv s) (hr : Within s.objSizeInObjectCache (s.singleton t) r) :
    LimitInv (s.store t r) := by
  obtain ⟨hfree, hentries⟩ := h.singleton t
  obtain ⟨hfree', hindices⟩ := hr.2 hfree
  have hpools : ∀ t' c, (s.store t r).pools t' = some c → c = r.2 ∨ s.pools t' = some c := by
    intro t' c hc
    change update s.pools t (some r.2) t' = some c at hc
    by_cases ht : t' = t
    · rw [ht, update_self] at hc
      exact Or.inl (Option.some.inj hc).symm
    · rw [update_of_ne ht] at hc
      exact Or.inr hc
  refine ⟨⟨?_, ?_⟩, h.limit, ?_⟩
  · intro use huse
    rcases mem_append.mp huse with hold | hnew
    · exact h.inside use hold
    · obtain ⟨index, hindex, rfl⟩ := mem_map.mp hnew
      exact (hindices index hindex).trans_eq (hr.1.trans hentries).symm
  · intro t' c hc
    rcases hpools t' c hc with rfl | hold
    · exact (hr.1.trans hentries).symm
    · exact h.kept t' c hold
  · intro t' c hc
    rcases hpools t' c hc with rfl | hold
    · exact hfree'
    · exact h.free t' c hold

lemma LimitInv.step {call : ObjectCall} (h : LimitInv s) (hfits : LimitFits s call)
    (hstep : s.step call = .ok s') : LimitInv s' := by
  cases call with
  | setTlsPoolObjectMaxSize maxSize =>
    cases hstep
    refine ⟨⟨h.inside, hfits.2⟩, hfits.1, fun t c hc => (h.free t c hc).trans ?_⟩
    exact ((h.kept t c hc).trans (hfits.2 t c hc).symm).le
  | getTlsObject t fresh =>
    cases hstep
    exact h.store (getOrNewObject_within fresh)
  | returnTlsObject t obj tid =>
    by_cases htid : tid ≠ t
    · rw [ObjectPools.step, if_pos htid] at hstep
      cases hstep
    · rw [ObjectPools.step, if_neg htid] at hstep
      cases hstep
      exact h.store (returnOrFreeObject_within obj)

lemma limitInv_init : LimitInv .init :=
  ⟨⟨fun _ h => absurd h not_mem_nil, fun _ _ h => by cases h⟩, by decide, fun _ _ h => by cases h⟩

/-- In every run in which the limit is not changed for a pool that is there. -/
theorem object_cache_inside (s : ObjectPools) (h : Runs ObjectPools.step LimitFits .init s) : LimitKept s :=
  (h.invariant (P := LimitInv) limitInv_init
    fun _ _ _ hinv hallowed hstep => hinv.step hallowed hstep).toLimitKept

/-- A limit of two, and an object that is returned and handed out again. -/
theorem object_cache_inside_two : ∃ s, Runs ObjectPools.step LimitFits .init s ∧
    s.used = [(0, 2), (0, 2)] ∧ LimitKept s := by
  obtain ⟨s, hrun, hused⟩ : ∃ s, Runs ObjectPools.step LimitFits .init s ∧ s.used = [(0, 2), (0, 2)] := by
    refine ⟨_, (((Relation.ReflTransGen.refl.tail ⟨.setTlsPoolObjectMaxSize 2, ⟨by decide, ?_⟩, rfl⟩).tail
      ⟨.getTlsObject 7 (some 64), trivial, rfl⟩).tail ⟨.returnTlsObject 7 64 7, trivial, rfl⟩).tail
      ⟨.getTlsObject 7 none, trivial, rfl⟩, rfl⟩
    intro t c hc
    cases hc
  exact ⟨s, hrun, hused, object_cache_inside s hrun⟩

/-- The pool of a thread has room for no pointer, and stores one when the limit is one. -/
theorem raised_limit_leaves_array : ∃ s, Runs ObjectPools.step (fun _ _ => True) .init s ∧ ¬LimitKept s := by
  refine ⟨_, (((Relation.ReflTransGen.refl.tail ⟨.setTlsPoolObjectMaxSize 0, trivial, rfl⟩).tail
    ⟨.getTlsObject 7 (some 64), trivial, rfl⟩).tail ⟨.setTlsPoolObjectMaxSize 1, trivial, rfl⟩).tail
    ⟨.returnTlsObject 7 64 7, trivial, rfl⟩, ?_⟩
  intro h
  cases h.inside (0, 0) (by decide)

end Vesal.Proofs
