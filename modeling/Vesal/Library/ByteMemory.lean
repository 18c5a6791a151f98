import Mathlib.Tactic

/-!
# Flat byte memory

Addresses are natural numbers. An extent is a range of addresses.
-/

namespace Vesal.Library

open List

abbrev Memory := Nat → UInt8

variable (mem : Memory)

def readBytes (addr n : Nat) : List UInt8 :=
  (range n).map (fun i => mem (addr + i))

variable (addr : Nat) (bytes : List UInt8)

/-- `memcpy` of a list of bytes to `addr`. -/
def writeBytes : Memory := fun a =>
  if addr ≤ a ∧ a < addr + bytes.length then bytes.getD (a - addr) 0 else mem a

@[simp] lemma readBytes_length (addr n : Nat) : (readBytes mem addr n).length = n := by
  simp [readBytes]

lemma readBytes_congr {mem mem' : Memory} {addr n : Nat}
    (h : ∀ a, addr ≤ a → a < addr + n → mem a = mem' a) :
    readBytes mem addr n = readBytes mem' addr n := by
  apply map_congr_left
  intro i hi
  rw [mem_range] at hi
  exact h _ (by omega) (by omega)

lemma readBytes_add (addr m n : Nat) :
    readBytes mem addr (m + n) = readBytes mem addr m ++ readBytes mem (addr + m) n := by
  unfold readBytes
  rw [range_add, map_append, map_map]
  congr 1
  apply map_congr_left
  intro i _
  rw [Function.comp_apply, Nat.add_assoc]

lemma take_readBytes (addr n k : Nat) (hk : k ≤ n) :
    (readBytes mem addr n).take k = readBytes mem addr k := by
  obtain ⟨r, rfl⟩ := Nat.exists_eq_add_of_le hk
  rw [readBytes_add]
  exact take_left' (readBytes_length mem addr k)

lemma drop_readBytes (addr n k : Nat) (hk : k ≤ n) :
    (readBytes mem addr n).drop k = readBytes mem (addr + k) (n - k) := by
  obtain ⟨r, rfl⟩ := Nat.exists_eq_add_of_le hk
  rw [readBytes_add, Nat.add_sub_cancel_left]
  exact drop_left' (readBytes_length mem addr k)

/-- A write changes nothing outside its range. -/
lemma writeBytes_outside {a : Nat}
    (h : a < addr ∨ addr + bytes.length ≤ a) : writeBytes mem addr bytes a = mem a := by
  unfold writeBytes
  rw [if_neg]
  omega

lemma readBytes_writeBytes :
    readBytes (writeBytes mem addr bytes) addr bytes.length = bytes := by
  apply ext_getElem
  · exact readBytes_length _ _ _
  · intro i _ hi
    simp only [readBytes, getElem_map, getElem_range, writeBytes]
    simp [hi]

/-- A write right behind what is read. -/
lemma readBytes_writeBytes_append (addr k : Nat) (bytes : List UInt8) :
    readBytes (writeBytes mem (addr + k) bytes) addr (k + bytes.length) =
      readBytes mem addr k ++ bytes := by
  rw [readBytes_add, readBytes_writeBytes]
  congr 1
  apply readBytes_congr
  intro a _ hhi
  exact writeBytes_outside mem (addr + k) bytes (.inl hhi)

/-- A write at the start of what is read. -/
lemma readBytes_writeBytes_start {n : Nat} {bytes : List UInt8} (h : bytes.length ≤ n) :
    readBytes (writeBytes mem addr bytes) addr n = bytes ++ (readBytes mem addr n).drop bytes.length := by
  obtain ⟨r, rfl⟩ := Nat.exists_eq_add_of_le h
  rw [readBytes_add, readBytes_writeBytes, drop_readBytes _ _ _ _ h, Nat.add_sub_cancel_left]
  congr 1
  apply readBytes_congr
  intro a hlo _
  exact writeBytes_outside mem addr bytes (.inr hlo)

structure Extent where
  start : Nat
  len : Nat
deriving DecidableEq, Repr

namespace Extent

def Disjoint (e f : Extent) : Prop := e.start + e.len ≤ f.start ∨ f.start + f.len ≤ e.start

instance (e f : Extent) : Decidable (e.Disjoint f) := inferInstanceAs (Decidable (_ ∨ _))

def Within (e f : Extent) : Prop := f.start ≤ e.start ∧ e.start + e.len ≤ f.start + f.len

lemma Disjoint.symm {e f : Extent} (h : e.Disjoint f) : f.Disjoint e := Or.symm h

lemma Disjoint.mono {e f e' : Extent} (h : e.Disjoint f) (hw : e'.Within e) : e'.Disjoint f := by
  unfold Disjoint Within at *
  omega

end Extent

lemma readBytes_writeBytes_disjoint {addr n addr' : Nat} {bytes : List UInt8}
    (h : Extent.Disjoint ⟨addr, n⟩ ⟨addr', bytes.length⟩) :
    readBytes (writeBytes mem addr' bytes) addr n = readBytes mem addr n := by
  unfold Extent.Disjoint at h
  simp only at h
  apply readBytes_congr
  intro a hlo hhi
  apply writeBytes_outside
  omega

end Vesal.Library
