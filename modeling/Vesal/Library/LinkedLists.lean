import Mathlib.Tactic

/-!
# Doubly linked lists in a memory

Nodes are named by their address, `0` is the null pointer, and the two links of every node are
functions of its address. A list in such a memory is the Lean list of its nodes.
-/

namespace Vesal.Library

open List

/-- The links lead from a pointer through these nodes to another pointer. -/
def LinkPath (next : Nat → Nat) : Nat → List Nat → Nat → Prop
  | p, [], q => p = q
  | p, x :: xs, q => p = x ∧ x ≠ 0 ∧ LinkPath next (next x) xs q

/-- The first node's back link is the given pointer, every other node's is the node before it. -/
def BackPath (prev : Nat → Nat) : Nat → List Nat → Prop
  | _, [] => True
  | q, x :: xs => prev x = q ∧ BackPath prev x xs

/-- The nodes that at most `fuel` steps along the links visit. -/
def pathList (next : Nat → Nat) : Nat → Nat → List Nat
  | 0, _ => []
  | fuel + 1, p => if p = 0 then [] else p :: pathList next fuel (next p)

/-- The pointer after `n` steps along the links, which end at null. -/
def follow (next : Nat → Nat) : Nat → Nat → Nat
  | 0, p => p
  | n + 1, p => if p = 0 then p else follow next n (next p)

/-- The last node from a node on, and how many nodes there are up to it, when it is reached in
at most `fuel` steps. -/
def findLast (next : Nat → Nat) : Nat → Nat → Option (Nat × Nat)
  | 0, p => if next p = 0 then some (p, 1) else none
  | fuel + 1, p =>
    if next p = 0 then some (p, 1)
    else (findLast next fuel (next p)).map fun last => (last.1, last.2 + 1)

structure Links where
  prev : Nat → Nat
  next : Nat → Nat

namespace Links

def setPrev (l : Links) (x v : Nat) : Links := { l with prev := Function.update l.prev x v }

def setNext (l : Links) (x v : Nat) : Links := { l with next := Function.update l.next x v }

/-- Sets the back link of a node if there is one. -/
def setPrevOf (l : Links) (p v : Nat) : Links := if p = 0 then l else l.setPrev p v

/-- Puts the list that starts at `head` after a node. -/
def joinAfter (l : Links) (x head : Nat) : Links := (l.setNext x head).setPrevOf head x

/-- Ends a list at a node; what was behind it is a list of its own. -/
def cutAfter (l : Links) (x : Nat) : Links := (l.setPrevOf (l.next x) 0).setNext x 0

/-- Puts a node before the list that starts at `head`; the list starts at the node then. -/
def pushFront (l : Links) (head x : Nat) : Links := (l.setPrev x 0).joinAfter x head

/-- Takes the first node from the list; the list starts at the node after it then. -/
def dropFront (l : Links) (head : Nat) : Links := l.setPrevOf (l.next head) 0

/-- Takes a node out of the list that starts at `head`, and where the list starts then. -/
def unlink (l : Links) (head x : Nat) : Nat × Links :=
  if l.prev x = 0 then (l.next x, l.setPrevOf (l.next x) (l.prev x))
  else (head, (l.setNext (l.prev x) (l.next x)).setPrevOf (l.next x) (l.prev x))

/-- The list that starts at `head` consists of these nodes. -/
structure IsList (l : Links) (head : Nat) (xs : List Nat) : Prop where
  path : LinkPath l.next head xs 0
  back : BackPath l.prev 0 xs

/-- Two memories have the same links outside some nodes. -/
def SameOff (l l' : Links) (xs : List Nat) : Prop :=
  ∀ y, y ∉ xs → l'.prev y = l.prev y ∧ l'.next y = l.next y

end Links

section Paths

variable {next next' prev prev' : Nat → Nat} {p q x : Nat} {xs ys : List Nat}

lemma LinkPath.congr (h : LinkPath next p xs q) (heq : ∀ x ∈ xs, next' x = next x) : LinkPath next' p xs q := by
  induction xs generalizing p with
  | nil => exact h
  | cons x xs ih =>
    obtain ⟨hp, hx, hrest⟩ := h
    refine ⟨hp, hx, ?_⟩
    rw [heq x mem_cons_self]
    exact ih hrest fun y hy => heq y (mem_cons_of_mem x hy)

lemma BackPath.congr (h : BackPath prev q xs) (heq : ∀ x ∈ xs, prev' x = prev x) :
    BackPath prev' q xs := by
  induction xs generalizing q with
  | nil => trivial
  | cons x xs ih =>
    refine ⟨(heq x mem_cons_self).trans h.1, ?_⟩
    exact ih h.2 fun y hy => heq y (mem_cons_of_mem x hy)

/-- A list starts at null exactly when it is empty. -/
lemma LinkPath.eq_zero_iff (h : LinkPath next p xs 0) : p = 0 ↔ xs = [] := by
  cases xs with
  | nil => exact iff_of_true h rfl
  | cons x xs =>
    refine iff_of_false ?_ (cons_ne_nil x xs)
    rw [h.1]
    exact h.2.1

lemma LinkPath.exists_cons (h : LinkPath next p xs 0) (hp : p ≠ 0) : ∃ rest, xs = p :: rest := by
  cases xs with
  | nil => exact absurd h hp
  | cons x xs => exact ⟨xs, by rw [h.1]⟩

lemma LinkPath.append_iff : LinkPath next p (xs ++ ys) q ↔ ∃ m, LinkPath next p xs m ∧ LinkPath next m ys q := by
  induction xs generalizing p with
  | nil =>
    constructor
    · intro h
      exact ⟨p, rfl, h⟩
    · rintro ⟨m, hm, h⟩
      obtain rfl : p = m := hm
      exact h
  | cons x xs ih =>
    constructor
    · rintro ⟨hp, hx, hrest⟩
      obtain ⟨m, hm, hys⟩ := ih.mp hrest
      exact ⟨m, ⟨hp, hx, hm⟩, hys⟩
    · rintro ⟨m, ⟨hp, hx, hm⟩, hys⟩
      exact ⟨hp, hx, ih.mpr ⟨m, hm, hys⟩⟩

lemma BackPath.append_iff :
    BackPath prev q (xs ++ ys) ↔ BackPath prev q xs ∧ BackPath prev (xs.getLastD q) ys := by
  induction xs generalizing q with
  | nil => simp [BackPath]
  | cons x xs ih =>
    rw [cons_append, getLastD_cons]
    constructor
    · rintro ⟨hx, hrest⟩
      obtain ⟨hxs, hys⟩ := ih.mp hrest
      exact ⟨⟨hx, hxs⟩, hys⟩
    · rintro ⟨⟨hx, hxs⟩, hys⟩
      exact ⟨hx, ih.mpr ⟨hxs, hys⟩⟩

/-- Walking the links of a list visits its nodes, and no more steps than nodes are needed. -/
lemma LinkPath.pathList_eq (h : LinkPath next p xs 0) : ∀ fuel, xs.length ≤ fuel → pathList next fuel p = xs := by
  induction xs generalizing p with
  | nil =>
    intro fuel _
    obtain rfl : p = 0 := h
    cases fuel <;> rfl
  | cons x xs ih =>
    intro fuel hfuel
    obtain ⟨rfl, hx, hrest⟩ := h
    cases fuel with
    | zero => exact absurd hfuel (Nat.not_succ_le_zero _)
    | succ fuel =>
      rw [pathList, if_neg hx, ih hrest fuel (Nat.le_of_succ_le_succ hfuel)]

lemma LinkPath.follow_eq (h : LinkPath next p (xs ++ x :: ys) q) : follow next xs.length p = x := by
  induction xs generalizing p with
  | nil => exact h.1
  | cons z xs ih =>
    obtain ⟨rfl, hz, hrest⟩ := h
    rw [length_cons, follow, if_neg hz]
    exact ih hrest

lemma LinkPath.findLast_eq (h : LinkPath next p (xs ++ [x]) 0) :
    ∀ fuel, xs.length ≤ fuel → findLast next fuel p = some (x, xs.length + 1) := by
  induction xs generalizing p with
  | nil =>
    intro fuel _
    obtain ⟨rfl, _, hend⟩ := h
    have hend : next p = 0 := hend
    cases fuel <;> simp [findLast, hend]
  | cons z xs ih =>
    intro fuel hfuel
    obtain ⟨rfl, hz, hrest⟩ := h
    have hne : next p ≠ 0 := by
      intro hzero
      have hnil := (LinkPath.eq_zero_iff hrest).mp hzero
      simp at hnil
    cases fuel with
    | zero => exact absurd hfuel (Nat.not_succ_le_zero _)
    | succ fuel =>
      rw [findLast, if_neg hne, ih hrest fuel (Nat.le_of_succ_le_succ hfuel)]
      rfl

end Paths

namespace Links

variable {l l' l'' : Links} {head p q v x : Nat} {xs ys zs : List Nat}

@[simp] lemma setPrev_prev_self : (l.setPrev x v).prev x = v := by simp [setPrev]

@[simp] lemma setNext_next_self : (l.setNext x v).next x = v := by simp [setNext]

lemma setPrev_prev_of_ne (h : y ≠ x) : (l.setPrev x v).prev y = l.prev y := by simp [setPrev, h]

lemma setNext_next_of_ne (h : y ≠ x) : (l.setNext x v).next y = l.next y := by simp [setNext, h]

@[simp] lemma setPrevOf_next : (l.setPrevOf p v).next = l.next := by
  unfold setPrevOf
  split <;> rfl

lemma SameOff.trans (h : SameOff l l' xs) (h' : SameOff l' l'' xs) : SameOff l l'' xs := by
  intro y hy
  exact ⟨(h' y hy).1.trans (h y hy).1, (h' y hy).2.trans (h y hy).2⟩

lemma SameOff.mono (h : SameOff l l' xs) (hsub : ∀ x ∈ xs, x ∈ ys) : SameOff l l' ys := by
  intro y hy
  exact h y fun hmem => hy (hsub y hmem)

/-- A list keeps its nodes when nothing but other nodes is written. -/
lemma IsList.frame (h : l.IsList head xs) (hsame : SameOff l l' ys) (hdisj : ∀ x ∈ xs, x ∉ ys) :
    l'.IsList head xs where
  path := h.path.congr fun x hx => (hsame x (hdisj x hx)).2
  back := h.back.congr fun x hx => (hsame x (hdisj x hx)).1

lemma sameOff_setPrev (hx : x ∈ xs) : SameOff l (l.setPrev x v) xs := by
  intro y hy
  exact ⟨setPrev_prev_of_ne (ne_of_mem_of_not_mem hx hy).symm, rfl⟩

lemma sameOff_setNext (hx : x ∈ xs) : SameOff l (l.setNext x v) xs := by
  intro y hy
  exact ⟨rfl, setNext_next_of_ne (ne_of_mem_of_not_mem hx hy).symm⟩

/-- The back link of a list's first node, if it has one, is the only one that is written. -/
lemma sameOff_setPrevOf (hpath : LinkPath l'.next p xs 0) : SameOff l (l.setPrevOf p v) xs := by
  by_cases hp : p = 0
  · intro y _
    simp [setPrevOf, hp]
  · obtain ⟨rest, rfl⟩ := hpath.exists_cons hp
    unfold setPrevOf
    rw [if_neg hp]
    exact sameOff_setPrev mem_cons_self

/-- Pointing the first node of a list back to another node. -/
lemma BackPath.setPrevOf {l : Links} {q : Nat} (h : BackPath l.prev q xs) (hpath : LinkPath l'.next p xs 0)
    (hnodup : xs.Nodup) : BackPath (l.setPrevOf p v).prev v xs := by
  cases xs with
  | nil => trivial
  | cons x xs =>
    obtain ⟨rfl, hp, _⟩ := hpath
    rw [Links.setPrevOf, if_neg hp]
    refine ⟨setPrev_prev_self, h.2.congr fun y hy => setPrev_prev_of_ne ?_⟩
    exact ne_of_mem_of_not_mem hy (nodup_cons.mp hnodup).1

/-- A list behind the last node of another: one list, whatever the back link of its first node
was before. -/
lemma isList_joinAfter (hpath : LinkPath l.next p xs x) (hx : x ≠ 0) (hback : BackPath l.prev 0 (xs ++ [x]))
    (hrest : LinkPath l.next head ys 0) (hbackRest : BackPath l.prev q ys) (hnodup : (xs ++ x :: ys).Nodup) :
    (l.joinAfter x head).IsList p (xs ++ x :: ys) := by
  obtain ⟨hxs, hxys, hdisj⟩ := nodup_append'.mp hnodup
  obtain ⟨hxy, hys⟩ := nodup_cons.mp hxys
  have hxxs : x ∉ xs := fun hmem => hdisj hmem mem_cons_self
  have hnext : ∀ y, y ≠ x → (l.joinAfter x head).next y = l.next y := by
    intro y hy
    rw [Links.joinAfter, setPrevOf_next, setNext_next_of_ne hy]
  refine ⟨?_, ?_⟩
  · refine LinkPath.append_iff.mpr ⟨x, ?_, rfl, hx, ?_⟩
    · exact hpath.congr fun y hy => hnext y (ne_of_mem_of_not_mem hy hxxs)
    · rw [Links.joinAfter, setPrevOf_next, setNext_next_self]
      exact hrest.congr fun y hy => setNext_next_of_ne (ne_of_mem_of_not_mem hy hxy)
  · have hold : BackPath (l.joinAfter x head).prev 0 (xs ++ [x]) := by
      refine hback.congr fun y hy => ?_
      have hyys : y ∉ ys := by
        rcases mem_append.mp hy with hmem | hmem
        · exact fun hyys => hdisj hmem (mem_cons_of_mem x hyys)
        · exact mem_singleton.mp hmem ▸ hxy
      exact (sameOff_setPrevOf (l := l.setNext x head) hrest y hyys).1
    rw [append_cons, BackPath.append_iff, getLastD_concat]
    exact ⟨hold, BackPath.setPrevOf (l := l.setNext x head) hbackRest hrest hys⟩

lemma sameOff_joinAfter (h : LinkPath l.next head ys 0) (hx : x ∈ zs) (hys : ∀ y ∈ ys, y ∈ zs) :
    SameOff l (l.joinAfter x head) zs := by
  have hset : SameOff l (l.setNext x head) zs := sameOff_setNext hx
  have hprev : SameOff (l.setNext x head) (l.joinAfter x head) ys := sameOff_setPrevOf h
  exact hset.trans (hprev.mono hys)

/-- The two parts of a list that was cut are lists. -/
lemma IsList.cutAfter (h : l.IsList head (xs ++ x :: ys)) (hnodup : (xs ++ x :: ys).Nodup) :
    (l.cutAfter x).IsList head (xs ++ [x]) ∧ (l.cutAfter x).IsList (l.next x) ys := by
  obtain ⟨hxs, hxys, hdisj⟩ := nodup_append'.mp hnodup
  obtain ⟨hxy, hys⟩ := nodup_cons.mp hxys
  have hxxs : x ∉ xs := fun hmem => hdisj hmem mem_cons_self
  obtain ⟨m, hfront, rfl, hx, hrest⟩ := LinkPath.append_iff.mp h.path
  have hnext : ∀ y, y ≠ m → (l.cutAfter m).next y = l.next y := by
    intro y hy
    rw [Links.cutAfter, setNext_next_of_ne hy, setPrevOf_next]
  have hback := h.back
  rw [append_cons, BackPath.append_iff] at hback
  refine ⟨⟨?_, ?_⟩, ?_, ?_⟩
  · refine LinkPath.append_iff.mpr ⟨m, ?_, rfl, hx, ?_⟩
    · exact hfront.congr fun y hy => hnext y (ne_of_mem_of_not_mem hy hxxs)
    · exact setNext_next_self
  · refine hback.1.congr fun y hy => ?_
    have hyys : y ∉ ys := by
      rcases mem_append.mp hy with hmem | hmem
      · exact fun hyys => hdisj hmem (mem_cons_of_mem m hyys)
      · exact mem_singleton.mp hmem ▸ hxy
    exact (sameOff_setPrevOf hrest y hyys).1
  · exact hrest.congr fun y hy => hnext y (ne_of_mem_of_not_mem hy hxy)
  · exact BackPath.setPrevOf hback.2 hrest hys

lemma sameOff_cutAfter (h : LinkPath l.next (l.next x) ys 0) (hx : x ∈ zs) (hys : ∀ y ∈ ys, y ∈ zs) :
    SameOff l (l.cutAfter x) zs := by
  have hprev : SameOff l (l.setPrevOf (l.next x) 0) ys := sameOff_setPrevOf h
  exact (hprev.mono hys).trans (sameOff_setNext hx)

lemma IsList.setPrev (h : l.IsList head ys) (hx : x ∉ ys) : (l.setPrev x v).IsList head ys := by
  have hset : SameOff l (l.setPrev x v) [x] := sameOff_setPrev mem_cons_self
  refine h.frame hset fun y hy => ?_
  rw [mem_singleton]
  exact ne_of_mem_of_not_mem hy hx

lemma IsList.pushFront (h : l.IsList head ys) (hx : x ≠ 0) (hnodup : (x :: ys).Nodup) :
    (l.pushFront head x).IsList x (x :: ys) := by
  have hkept : (l.setPrev x 0).IsList head ys := h.setPrev (nodup_cons.mp hnodup).1
  have hpath : LinkPath (l.setPrev x 0).next x [] x := rfl
  exact isList_joinAfter hpath hx ⟨setPrev_prev_self, trivial⟩ hkept.path hkept.back hnodup

lemma sameOff_pushFront (h : l.IsList head ys) (hx : x ∉ ys) : SameOff l (l.pushFront head x) (x :: ys) := by
  have hset : SameOff l (l.setPrev x 0) (x :: ys) := sameOff_setPrev mem_cons_self
  have hkept : (l.setPrev x 0).IsList head ys := h.setPrev hx
  refine hset.trans ?_
  exact sameOff_joinAfter hkept.path mem_cons_self fun y hy => mem_cons_of_mem x hy

lemma IsList.dropFront (h : l.IsList head (x :: ys)) (hnodup : (x :: ys).Nodup) :
    (l.dropFront head).IsList (l.next head) ys := by
  obtain ⟨rfl, hx, hrest⟩ := h.path
  refine ⟨?_, BackPath.setPrevOf h.back.2 hrest (nodup_cons.mp hnodup).2⟩
  exact hrest.congr fun y _ => by rw [Links.dropFront, setPrevOf_next]

lemma sameOff_dropFront (h : l.IsList head (x :: ys)) : SameOff l (l.dropFront head) ys := by
  obtain ⟨rfl, hx, hrest⟩ := h.path
  exact sameOff_setPrevOf hrest

/-- The rest of a list from which a node was taken. The back link of the node tells whether it
was the first. -/
lemma IsList.unlink (h : l.IsList head (xs ++ x :: ys)) (hnodup : (xs ++ x :: ys).Nodup) :
    (l.unlink head x).2.IsList (l.unlink head x).1 (xs ++ ys) := by
  obtain ⟨_, hxys, hdisj⟩ := nodup_append'.mp hnodup
  obtain ⟨hxy, hys⟩ := nodup_cons.mp hxys
  obtain ⟨m, hfront, rfl, hx, hrest⟩ := LinkPath.append_iff.mp h.path
  obtain ⟨hbefore, hprev, hafter⟩ := BackPath.append_iff.mp h.back
  rcases eq_nil_or_concat xs with rfl | ⟨zs, z, rfl⟩
  · obtain rfl : head = m := hfront
    have hzero : l.prev head = 0 := hprev
    rw [Links.unlink, if_pos hzero]
    refine ⟨?_, ?_⟩
    · exact hrest.congr fun y _ => by rw [setPrevOf_next]
    · rw [hzero]
      exact BackPath.setPrevOf hafter hrest hys
  · rw [concat_eq_append, getLastD_concat] at hprev
    rw [concat_eq_append] at hfront hbefore hnodup ⊢
    obtain ⟨k, hzs, rfl, hz, _⟩ := LinkPath.append_iff.mp hfront
    rw [Links.unlink, if_neg (by rw [hprev]; exact hz), hprev]
    have hnodup' : (zs ++ k :: ys).Nodup := by
      refine hnodup.sublist ?_
      rw [append_assoc]
      exact (List.Sublist.refl zs).append ((List.Sublist.refl [k]).append (sublist_cons_self m ys))
    rw [append_assoc]
    exact isList_joinAfter hzs hz hbefore hrest hafter hnodup'

lemma sameOff_unlink (h : l.IsList head (xs ++ x :: ys)) : SameOff l (l.unlink head x).2 (xs ++ ys) := by
  obtain ⟨m, hfront, rfl, hx, hrest⟩ := LinkPath.append_iff.mp h.path
  obtain ⟨_, hprev, _⟩ := BackPath.append_iff.mp h.back
  have hys : ∀ y ∈ ys, y ∈ xs ++ ys := fun y hy => mem_append_right xs hy
  unfold Links.unlink
  split
  · exact (sameOff_setPrevOf hrest).mono hys
  · rename_i hne
    rcases eq_nil_or_concat xs with rfl | ⟨zs, z, rfl⟩
    · exact absurd hprev hne
    · rw [concat_eq_append, getLastD_concat] at hprev
      rw [hprev]
      exact sameOff_joinAfter hrest (by simp) hys

end Links

end Vesal.Library
