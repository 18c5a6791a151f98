import Vesal.Library.ByteMemory

/-!
# Copies between ranges of a memory

A list of copies of which no two get in each other's way leaves one memory, in whatever order
they are made: at every destination the bytes that were at the source before the first of them,
and elsewhere what was there.
-/

namespace Vesal.Library

open List

structure Transfer where
  src : Nat
  dst : Nat
  len : Nat
deriving DecidableEq, Repr

namespace Transfer

/-- A copy by way of a buffer, so that the ranges may overlap. -/
def run (mem : Memory) (t : Transfer) : Memory := writeBytes mem t.dst (readBytes mem t.src t.len)

def source (t : Transfer) : Extent := ⟨t.src, t.len⟩

def target (t : Transfer) : Extent := ⟨t.dst, t.len⟩

/-- Neither writes what the other reads or writes. -/
structure Apart (t u : Transfer) : Prop where
  targets : t.target.Disjoint u.target
  source_right : t.target.Disjoint u.source
  source_left : u.target.Disjoint t.source

lemma Apart.symm {t u : Transfer} (h : t.Apart u) : u.Apart t := ⟨h.targets.symm, h.source_left, h.source_right⟩

lemma run_target (mem : Memory) (t : Transfer) {k : Nat} (hk : k < t.len) :
    t.run mem (t.dst + k) = mem (t.src + k) := by
  unfold run writeBytes
  simp [readBytes, hk]

lemma run_outside (mem : Memory) (t : Transfer) {a : Nat} (h : a < t.dst ∨ t.dst + t.len ≤ a) :
    t.run mem a = mem a := by
  apply writeBytes_outside
  rw [readBytes_length]
  exact h

end Transfer

def transferAll (ts : List Transfer) (mem : Memory) : Memory := ts.foldl Transfer.run mem

/-- What all the copies make of a memory at once. -/
structure Transferred (ts : List Transfer) (mem mem' : Memory) : Prop where
  target : ∀ t ∈ ts, ∀ k < t.len, mem' (t.dst + k) = mem (t.src + k)
  outside : ∀ a, (∀ t ∈ ts, a < t.dst ∨ t.dst + t.len ≤ a) → mem' a = mem a

namespace Transferred

variable {ts : List Transfer} {mem mem' : Memory}

/-- The order of the list does not matter. -/
lemma perm {us : List Transfer} (h : Transferred ts mem mem') (hperm : ts.Perm us) : Transferred us mem mem' where
  target t ht := h.target t (hperm.mem_iff.mpr ht)
  outside a ha := h.outside a fun t ht => ha t (hperm.mem_iff.mp ht)

lemma read_target (h : Transferred ts mem mem') {t : Transfer} (ht : t ∈ ts) :
    readBytes mem' t.dst t.len = readBytes mem t.src t.len := by
  apply map_congr_left
  intro k hk
  exact h.target t ht k (mem_range.mp hk)

/-- A range that no copy writes. -/
lemma read_outside (h : Transferred ts mem mem') {addr n : Nat}
    (hout : ∀ t ∈ ts, t.target.Disjoint ⟨addr, n⟩) : readBytes mem' addr n = readBytes mem addr n := by
  apply readBytes_congr
  intro a hlo hhi
  apply h.outside
  intro t ht
  have := hout t ht
  unfold Extent.Disjoint Transfer.target at this
  simp only at this
  omega

/-- One more copy in front of copies that are apart from it. -/
lemma cons {t : Transfer} (hapart : ∀ u ∈ ts, t.Apart u) (h : Transferred ts (t.run mem) mem') :
    Transferred (t :: ts) mem mem' where
  target u hu k hk := by
    rcases mem_cons.mp hu with rfl | hu
    · rw [h.outside, u.run_target mem hk]
      intro v hv
      have := (hapart v hv).targets
      unfold Extent.Disjoint Transfer.target at this
      simp only at this
      omega
    · rw [h.target u hu k hk, t.run_outside]
      have := (hapart u hu).source_right
      unfold Extent.Disjoint Transfer.target Transfer.source at this
      simp only at this
      omega
  outside a ha := by
    rw [h.outside a fun u hu => ha u (mem_cons_of_mem _ hu), t.run_outside mem (ha t mem_cons_self)]

lemma nil (mem : Memory) : Transferred [] mem mem := ⟨fun _ ht => absurd ht not_mem_nil, fun _ _ => rfl⟩

end Transferred

/-- Copies that are apart from each other, made one after the other, are made at once. -/
theorem transferred_transferAll {ts : List Transfer} (h : ts.Pairwise Transfer.Apart) (mem : Memory) :
    Transferred ts mem (transferAll ts mem) := by
  induction ts generalizing mem with
  | nil => exact .nil mem
  | cons t ts ih =>
    rw [pairwise_cons] at h
    exact .cons h.1 (ih h.2 (t.run mem))

end Vesal.Library
