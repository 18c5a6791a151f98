import Vesal.Proofs.PoolBlocks
import Vesal.Proofs.PoolBooks

/-! # The operations of a cache -/

namespace Vesal.Proofs

open Library List Function Option ChunkPool

variable {chunks out rest tasks : List Nat} {p p' : ChunkPool} {v v' : PoolView} {a b c c' n q : Nat}
  {i : Fin kBlockNum} {place source target : Place} {b' : TLSBlockCache}

/-- An operation of the cache `c` leaves the other caches alone, and keeps the chunks that have
blocks outside. -/
structure Touches (c : Nat) (out : List Nat) (p p' : ChunkPool) (v v' : PoolView) : Prop where
  caches : ∀ c', c' ≠ c → p'.caches c' = p.caches c'
  lists : ∀ place c' i, place.owner = some (c', i) → c' ≠ c → v'.lists place = v.lists place
  threadId : (p'.caches c).threadId = (p.caches c).threadId
  tlsCaches : p'.tlsCaches = p.tlsCaches
  orphans : p'.orphanTlsCaches = p.orphanTlsCaches
  held : ∀ c i a q, v.Held c i a → q ∈ out → q ∈ ptrsOf a i → v'.Held c i a

lemma Touches.trans {p'' : ChunkPool} {v'' : PoolView} {out' : List Nat} (h : Touches c out p p' v v')
    (h' : Touches c out' p' p'' v' v'') (hout : ∀ q ∈ out, q ∈ out') : Touches c out p p'' v v'' where
  caches c' hc := (h'.caches c' hc).trans (h.caches c' hc)
  lists place c' i howner hc := (h'.lists place c' i howner hc).trans (h.lists place c' i howner hc)
  threadId := h'.threadId.trans h.threadId
  tlsCaches := h'.tlsCaches.trans h.tlsCaches
  orphans := h'.orphans.trans h.orphans
  held c i a q hheld hq hmem := h'.held c i a q (h.held c i a q hheld hq hmem) (hout q hq) hmem

variable {out bs : List Nat}

lemma ChunkAt.pop (h : ChunkAt p out (b :: bs) place c i a) (hsame : SameChunk (p.memory.popBlock a) p'.memory a)
    (htasks : tasksOf p' = tasksOf p) (hallows : target.allows bs.length (blockNum i)) :
    ChunkAt p' ((b + blockHeaderSize) :: out) bs target c i a where
  built := h.built.popBlock.congr hsame fun b' hb' => h.spread.mem_blocksOf (mem_cons_of_mem b hb')
  allowed := hallows
  spread := by
    have hb : b + blockHeaderSize ∈ ptrsOf a i := mem_map_of_mem (h.spread.mem_blocksOf mem_cons_self)
    have hperm := h.spread
    unfold Spread at hperm ⊢
    rw [takenOf_cons_of_inChunk (inChunk_of_mem_ptrsOf hb), htasks]
    exact perm_middle.trans hperm

lemma ChunkAt.push (h : ChunkAt p (q :: out) bs place c i a) (hq : q ∈ ptrsOf a i) (ha : 0 < a)
    (hsame : SameChunk (p.memory.pushBlock a (q - blockHeaderSize)) p'.memory a) (htasks : tasksOf p' = tasksOf p)
    (hallows : target.allows (bs.length + 1) (blockNum i)) :
    ChunkAt p' out ((q - blockHeaderSize) :: bs) target c i a := by
  obtain ⟨k, hk, rfl⟩ := mem_ptrsOf.mp hq
  have hin := inChunk_of_mem_ptrsOf hq
  have hnot : blockStart a i k ∉ bs := by
    intro hmem
    have := h.spread.notMem_free (q := blockStart a i k + blockHeaderSize) (by simp) hin (by simpa using hmem)
    omega
  have hblock : blockStart a i k ∈ blocksOf a i := mem_blocksOf.mpr ⟨k, hk, rfl⟩
  have hpos : blockStart a i k ≠ 0 := by
    have := (blockStart_bounds (a := a) hk).1
    omega
  refine
    { built := (h.built.pushBlock hpos hnot).congr hsame ?_
      allowed := hallows
      spread := ?_ }
  · intro b' hb'
    rcases mem_cons.mp hb' with rfl | hb'
    · exact hblock
    · exact h.spread.mem_blocksOf hb'
  · have hperm := h.spread
    unfold Spread at hperm ⊢
    rw [takenOf_cons_of_inChunk hin] at hperm
    rw [htasks]
    exact perm_middle.symm.trans hperm

lemma ChunksApart.takenOf_cons {a' : Nat} (hchunks : ChunksApart chunks) (hne : a' ≠ a) (ha : a ∈ chunks)
    (ha' : a' ∈ chunks) (hq : q ∈ ptrsOf a i) (out' : List Nat) : takenOf a' (q :: out') tasks = takenOf a' out' tasks := by
  refine takenOf_cons_of_not_inChunk ?_
  rw [← Bool.not_eq_true]
  exact fun hin => hne (hchunks.eq_of_inChunk ha' ha hin (inChunk_of_mem_ptrsOf hq))

namespace Stored

variable {a' : Nat}

lemma eq_of_inChunk (h : Stored chunks p out v) (hchunks : ChunksApart chunks) {a : Nat} {place place' : Place}
    (ha : a ∈ v.lists place) (ha' : a' ∈ v.lists place') (hq : inChunk a q = true) (hq' : inChunk a' q = true) :
    a = a' := hchunks.eq_of_inChunk (h.mem_chunks ha) (h.mem_chunks ha') hq hq'

variable {c' head : Nat} {i' : Fin kBlockNum}

section

variable (h : Stored chunks p out v)
include h

lemma owner_eq_of_held (ha : a ∈ v.lists place) (howner : place.owner = some (c, i)) (hheld : v.Held c' i' a) :
    c' = c ∧ i' = i := by
  obtain ⟨place', howner', ha'⟩ := hheld
  obtain rfl := h.placed.eq_of_mem place place' a ha ha'
  exact Prod.mk.inj (some.inj (howner'.symm.trans howner))

lemma ne_of_owner_ne (hheld : v.Held c i a) (hheld' : v.Held c' i' a') (hne : (c', i') ≠ (c, i)) : a' ≠ a := by
  rintro rfl
  obtain ⟨place, howner, ha⟩ := hheld
  obtain ⟨rfl, rfl⟩ := h.owner_eq_of_held ha howner hheld'
  exact hne rfl

lemma head_eq (hhead : headOf p place = some head) (hlist : v.lists place = a :: rest) :
    head = a ∧ a ≠ 0 := by
  have hpath := (h.linked place head hhead).path
  rw [hlist] at hpath
  exact ⟨hpath.1, hpath.2.1⟩

lemma head_eq_zero_iff (hhead : headOf p place = some head) :
    head = 0 ↔ v.lists place = [] := (h.linked place head hhead).path.eq_zero_iff

lemma chunkAt_of_ne (howner : place.owner = some (c, i)) (ha : a ∈ v.lists place)
    (hsame : SameChunk p.memory p'.memory a) (htasks : tasksOf p' = tasksOf p) {out' : List Nat}
    (htaken : takenOf a out' (tasksOf p c) = takenOf a out (tasksOf p c)) :
    ChunkAt p' out' (v.free a) place c i a := by
  refine (h.chunkAt place c i a howner ha).frame hsame ?_
  rw [htasks, htaken]

end

end Stored

section Nums

def SameNums (p p' : ChunkPool) (c : Nat) : Prop :=
  (p'.caches c).totalChunkNum = (p.caches c).totalChunkNum ∧
    (p'.caches c).recyclableChunkNum = (p.caches c).recyclableChunkNum

lemma sameNums_write (p : ChunkPool) (memory : PoolMemory) (chunks chunkNum c : Nat) (i : Fin kBlockNum)
    (b' : TLSBlockCache) :
    SameNums p ({ p with memory := memory, chunks := chunks, chunkNum := chunkNum }.setBlockCache c i b') c := by
  unfold SameNums
  rw [setBlockCache, caches_setCache_self]
  exact ⟨rfl, rfl⟩

lemma nums_setNums (p : ChunkPool) (c total recyclable : Nat) :
    ((p.setNums c total recyclable).caches c).totalChunkNum = total ∧
      ((p.setNums c total recyclable).caches c).recyclableChunkNum = recyclable := by
  rw [setNums, caches_setCache_self]
  exact ⟨rfl, rfl⟩

lemma Counted.congr (h : Counted p v c) (hsame : SameNums p p' c)
    (hused : v'.usedNum c = v.usedNum c) (hnum : v'.recyclableNum c = v.recyclableNum c) : Counted p' v' c where
  total := by rw [hsame.1, hsame.2, hused, h.total]
  recyclable_le := by rw [hnum, hsame.2]; exact h.recyclable_le

lemma usedNum_congr (h : ∀ place i, place.owner = some (c, i) → v'.lists place = v.lists place) :
    v'.usedNum c = v.usedNum c ∧ v'.recyclableNum c = v.recyclableNum c := by
  refine ⟨?_, ?_⟩
  · unfold PoolView.usedNum
    refine Finset.sum_congr rfl fun i _ => ?_
    rw [h (.available c i) i rfl, h (.full c i) i rfl]
  · unfold PoolView.recyclableNum
    refine Finset.sum_congr rfl fun i _ => ?_
    rw [h (.recyclable c i) i rfl]

lemma Exact.congr (h : Exact p v c) (hsame : SameNums p p' c) (hnum : v'.recyclableNum c = v.recyclableNum c) :
    Exact p' v' c := by
  unfold Exact at h ⊢
  rw [hsame.2, hnum, h]

lemma Touches.counted (h : Touches c out p p' v v') (hc : c' ≠ c) (hcounted : Counted p v c') : Counted p' v' c' := by
  obtain ⟨hused, hnum⟩ := usedNum_congr fun place i howner => h.lists place c' i howner hc
  exact hcounted.congr ⟨by rw [h.caches c' hc], by rw [h.caches c' hc]⟩ hused hnum

lemma Touches.exact (h : Touches c out p p' v v') (hc : c' ≠ c) (hexact : Exact p v c') : Exact p' v' c' := by
  obtain ⟨_, hnum⟩ := usedNum_congr fun place i howner => h.lists place c' i howner hc
  exact hexact.congr ⟨by rw [h.caches c' hc], by rw [h.caches c' hc]⟩ hnum

lemma Alters.touches {moved : List Nat} {free' : Nat → List Nat} (h : Alters c i p p')
    (hsource : source.owner = none ∨ source.owner = some (c, i))
    (htarget : target.owner = none ∨ target.owner = some (c, i))
    (hheld : ∀ c i a q, v.Held c i a → q ∈ out → q ∈ ptrsOf a i →
      (v.move source target moved rest).Held c i a) :
    Touches c out p p' v ⟨moveTo v.lists source target moved rest, free'⟩ where
  caches := h.caches
  lists _ _ _ howner hc := moveTo_lists_of_owner_ne hsource htarget howner fun heq => hc (Prod.mk.inj heq).1
  threadId := h.threadId
  tlsCaches := h.tlsCaches
  orphans := h.orphans
  held := hheld

end Nums

/-- The chunk `a` goes from one place of its class to another one, or stays where it is, and has the
free blocks `blocks` afterwards. -/
structure Relinks (chunks : List Nat) (c : Nat) (i : Fin kBlockNum) (a : Nat) (blocks : List Nat)
    (source target : Place) (v v' : PoolView) : Prop where
  placed : Placed chunks v.lists
  placed' : Placed chunks v'.lists
  source_owner : source.owner = some (c, i)
  target_owner : target.owner = some (c, i)
  before : a ∈ v.lists source
  after : a ∈ v'.lists target
  others : ∀ place a', a' ≠ a → (a' ∈ v'.lists place ↔ a' ∈ v.lists place)
  lists : ∀ place, place.owner ≠ some (c, i) → v'.lists place = v.lists place
  free : v'.free = update v.free a blocks
  used : v'.usedNum c + source.usedShare c 1 = v.usedNum c + target.usedShare c 1
  recyclable : v'.recyclableNum c + source.recyclableShare c 1 = v.recyclableNum c + target.recyclableShare c 1
  length : (v'.lists (.recyclable c i)).length + source.recyclableShare c 1 =
    (v.lists (.recyclable c i)).length + target.recyclableShare c 1

lemma shares_of_owner (h : place.owner = some (c, i)) (n : Nat) :
    place.usedShare c n + place.recyclableShare c n = n ∧
      place.recyclableShare c n = if Place.recyclable c i = place then n else 0 := by
  cases place <;> cases h <;> simp [Place.usedShare, Place.recyclableShare]

variable {blocks : List Nat} {a' : Nat} {i' : Fin kBlockNum}

namespace Relinks

section

variable (h : Relinks chunks c i a blocks source target v v')
include h

lemma held_iff : v'.Held c' i' a' ↔ v.Held c' i' a' := by
  by_cases hne : a' = a
  · subst hne
    constructor
    · rintro ⟨place, howner, ha⟩
      obtain rfl := h.placed'.eq_of_mem _ _ _ ha h.after
      exact ⟨source, h.source_owner.trans (h.target_owner.symm.trans howner), h.before⟩
    · rintro ⟨place, howner, ha⟩
      obtain rfl := h.placed.eq_of_mem _ _ _ ha h.before
      exact ⟨target, h.target_owner.trans (h.source_owner.symm.trans howner), h.after⟩
  · simp only [PoolView.Held, h.others _ _ hne]

lemma touches (halters : Alters c i p p') (out : List Nat) : Touches c out p p' v v' where
  caches := halters.caches
  lists place c' i' howner hc := by
    refine h.lists place fun heq => hc ?_
    cases howner.symm.trans heq
    rfl
  threadId := halters.threadId
  tlsCaches := halters.tlsCaches
  orphans := halters.orphans
  held _ _ _ _ hheld _ _ := h.held_iff.mpr hheld

lemma partedOff (hparted : PartedOff v a) : PartedOff v' a := by
  intro c' i' a' ha' hne
  rw [h.free, update_of_ne hne]
  exact hparted c' i' a' ((h.others _ _ hne).mp ha') hne

lemma parted (hparted : PartedOff v a) (hlt : target = .available c i → blocks.length < blockNum i) : Parted v' := by
  intro c' i' a' ha'
  by_cases hne : a' = a
  · subst hne
    have hplace := h.placed'.eq_of_mem _ _ _ h.after ha'
    have howner := h.target_owner
    rw [hplace] at howner
    cases howner
    rw [h.free, update_self]
    exact hlt hplace
  · exact h.partedOff hparted c' i' a' ha' hne

lemma keeps (halters : Alters c i p p') (htotal : (p'.caches c).totalChunkNum = (p.caches c).totalChunkNum)
    (hnum : (p'.caches c).recyclableChunkNum =
      (p.caches c).recyclableChunkNum + target.recyclableShare c 1 - source.recyclableShare c 1)
    (hsizes : (p'.blockCache c i).blockSize = (p.blockCache c i).blockSize ∧
      (p'.blockCache c i).totalSize = (p.blockCache c i).totalSize)
    (hrecyclable : (p'.blockCache c i).recyclableSize = (p.blockCache c i).recyclableSize +
      target.recyclableShare c 1 * kChunkSize - source.recyclableShare c 1 * kChunkSize)
    (hinUse : ∀ n n', n' + (blockNum i - (v.free a).length) = n + (blockNum i - blocks.length) →
      (p.blockCache c i).inUseSize = n * kBlockSizes i → (p.blockCache c i).blockSize = kBlockSizes i →
      (p'.blockCache c i).inUseSize = n' * kBlockSizes i) : Keeps c p p' v v' where
  counted hcounted := by
    have hused := h.used
    have hrec := h.recyclable
    have hsource := (shares_of_owner h.source_owner 1).1
    have htarget := (shares_of_owner h.target_owner 1).1
    have htotal' := hcounted.total
    have hle := hcounted.recyclable_le
    exact ⟨by omega, by omega⟩
  exact hexact := by
    have hrec := h.recyclable
    unfold Exact at hexact ⊢
    omega
  booked hbooked := by
    refine hbooked.alter halters ?_ ?_ ?_
    · exact fun place c' i' howner hne => h.lists place fun heq => hne (some.inj (howner.symm.trans heq))
    · rintro c' i' a' ⟨place, howner, ha'⟩ hne
      rw [h.free, update_of_ne]
      rintro rfl
      obtain rfl := h.placed.eq_of_mem _ _ _ ha' h.before
      exact hne (some.inj (howner.symm.trans h.source_owner))
    · have hperm : (v'.heldChunks c i).Perm (v.heldChunks c i) := by
        refine (perm_ext_iff_of_nodup (nodup_heldChunks h.placed' c i) (nodup_heldChunks h.placed c i)).mpr fun a' => ?_
        rw [mem_heldChunks, mem_heldChunks, h.held_iff]
      have htaken := takenNum_alter hperm (nodup_heldChunks h.placed c i) ⟨source, h.source_owner, h.before⟩ h.free
      have hbooks := hbooked c i
      refine ⟨hsizes.1.trans hbooks.blockSize, ?_, ?_, hinUse _ _ htaken hbooks.inUseSize hbooks.blockSize⟩
      · rw [hsizes.2, hbooks.totalSize, hperm.length_eq]
      · rw [hrecyclable, hbooks.recyclableSize, ← Nat.add_mul, ← Nat.sub_mul, ← h.length, Nat.add_sub_cancel]

end

lemma stored (hrelinks : Relinks chunks c i a blocks source target v v') (h : Stored chunks p out v)
    (halters : Alters c i p p')
    (hlinked : ∀ place head, headOf p' place = some head → p'.memory.links.IsList head (v'.lists place))
    (hnum : p'.chunkNum = p.chunkNum) (hsame : ∀ a' ∈ chunks, a' ≠ a → SameChunk p.memory p'.memory a')
    {out' : List Nat} (htaken : ∀ a' ∈ chunks, a' ≠ a → ∀ tasks, takenOf a' out' tasks = takenOf a' out tasks)
    (hself : ChunkAt p' out' blocks target c i a) (hout : ∀ q ∈ out', q ∈ out ∨ q ∈ ptrsOf a i) :
    Stored chunks p' out' v' where
  placed := hrelinks.placed'
  linked := hlinked
  chunkNum := by
    rw [hrelinks.lists .central (by simp [Place.owner]), hnum]
    exact h.chunkNum
  totalChunkNum := halters.totalChunkNum.trans h.totalChunkNum
  chunkAt place c' i' a' howner ha' := by
    by_cases hne : a' = a
    · subst hne
      obtain rfl := hrelinks.placed'.eq_of_mem _ _ _ ha' hrelinks.after
      cases hrelinks.target_owner.symm.trans howner
      rw [hrelinks.free, update_self]
      exact hself
    · have ha' := (hrelinks.others place a' hne).mp ha'
      have hmem := h.mem_chunks ha'
      rw [hrelinks.free, update_of_ne hne]
      exact h.chunkAt_of_ne howner ha' (hsame a' hmem hne) halters.tasksOf_eq (htaken a' hmem hne _)
  out_held q hq := by
    rcases hout q hq with hq | hq
    · obtain ⟨c', i', a', hheld, hmem⟩ := h.out_held q hq
      exact ⟨c', i', a', hrelinks.held_iff.mpr hheld, hmem⟩
    · exact ⟨c, i, a, ⟨target, hrelinks.target_owner, hrelinks.after⟩, hq⟩
  tasks_held c' q hq := by
    rw [halters.tasksOf_eq] at hq
    obtain ⟨i', a', hheld, hmem⟩ := h.tasks_held c' q hq
    exact ⟨i', a', hrelinks.held_iff.mpr hheld, hmem⟩

end Relinks

namespace Stored

lemma relinks_move (h : Stored chunks p out v) (target : Place) (hne : source ≠ target) (hsource : source.owner = some (c, i))
    (htarget : target.owner = some (c, i)) (hperm : (v.lists source).Perm ([a] ++ rest)) (blocks : List Nat) :
    Relinks chunks c i a blocks source target v
      ⟨moveTo v.lists source target [a] rest, update v.free a blocks⟩ where
  placed := h.placed
  placed' := h.placed.moveTo hne hperm
  source_owner := hsource
  target_owner := htarget
  before := hperm.mem_iff.mpr mem_cons_self
  after := by
    dsimp only
    rw [moveTo_to]
    exact mem_cons_self
  others place a' ha' := by
    dsimp only
    rw [mem_moveTo_iff hperm hne h.placed]
    simp [ha']
  lists place howner := by
    refine moveTo_of_ne ?_ ?_
    · rintro rfl
      exact howner hsource
    · rintro rfl
      exact howner htarget
  free := rfl
  used := usedNum_move source target hne hperm c
  recyclable := recyclableNum_move source target hne hperm c
  length := by
    rw [(shares_of_owner hsource 1).2, (shares_of_owner htarget 1).2]
    exact length_moveTo hne hperm (.recyclable c i)

lemma relinks_setFree (h : Stored chunks p out v) (howner : place.owner = some (c, i)) (ha : a ∈ v.lists place)
    (blocks : List Nat) : Relinks chunks c i a blocks place place v (v.setFree a blocks) :=
  ⟨h.placed, h.placed, howner, howner, ha, ha, fun _ _ _ => Iff.rfl, fun _ _ => rfl, rfl, rfl, rfl, rfl⟩

lemma linked_setFree (h : Stored chunks p out v) (halters : Alters c i p p') (hcentral : p'.chunks = p.chunks)
    (hlinks : p'.memory.links = p.memory.links)
    (hrecyclable : (p'.blockCache c i).recyclableChunks = (p.blockCache c i).recyclableChunks)
    (havailable : (p'.blockCache c i).availableChunks = (p.blockCache c i).availableChunks)
    (place : Place) (head : Nat) (hhead : headOf p' place = some head) :
    p'.memory.links.IsList head ((v.setFree a blocks).lists place) := by
  rw [halters.headOf_eq (fun _ => hcentral) (fun _ => hrecyclable) (fun _ => havailable)] at hhead
  rw [hlinks]
  exact h.linked place head hhead

lemma pop (h : Stored chunks p out v) (hchunks : ChunksApart chunks)
    (hrelinks : Relinks chunks c i a blocks (.available c i) target v v') (hfree : v.free a = b :: blocks)
    (hshare : target.recyclableShare c 1 = 0) (hallows : target.allows blocks.length (blockNum i))
    (halters : Alters c i p p') (hnums : SameNums p p' c) (hnum : p'.chunkNum = p.chunkNum)
    (hlinked : ∀ place head, headOf p' place = some head → p'.memory.links.IsList head (v'.lists place))
    (hsame : ∀ a', SameChunk (p.memory.popBlock a) p'.memory a') {available : Nat}
    (hblock : p'.blockCache c i = { p.blockCache c i with
      availableChunks := available, inUseSize := (p.blockCache c i).inUseSize + kBlockSizes i }) :
    Stored chunks p' ((b + blockHeaderSize) :: out) v' ∧ v'.Held c i a ∧ Touches c out p p' v v' ∧
      Keeps c p p' v v' ∧ (PartedOff v a → Parted v') := by
  have hat := h.chunkAt (.available c i) c i a rfl hrelinks.before
  rw [hfree] at hat
  have hptr : b + blockHeaderSize ∈ ptrsOf a i := mem_map_of_mem (hat.spread.mem_blocksOf mem_cons_self)
  have hlen : (v.free a).length = blocks.length + 1 := congrArg List.length hfree
  have hle : blocks.length + 1 ≤ blockNum i := by
    rw [← hat.spread.length]
    exact Nat.le_add_right _ _
  refine ⟨hrelinks.stored h halters hlinked hnum ?_ ?_ (hat.pop (hsame a) halters.tasksOf_eq hallows) ?_,
    ⟨target, hrelinks.target_owner, hrelinks.after⟩, hrelinks.touches halters out,
    hrelinks.keeps halters hnums.1 ?_ ?_ ?_ ?_, fun hparted => hrelinks.parted hparted fun _ => hle⟩
  · exact fun a' _ hne => (sameChunk_popBlock hne).trans (hsame a')
  · exact fun a' ha' hne tasks => hchunks.takenOf_cons hne (h.mem_chunks hrelinks.before) ha' hptr out
  · intro q hq
    rcases mem_cons.mp hq with rfl | hq
    · exact Or.inr hptr
    · exact Or.inl hq
  · rw [hnums.2, hshare]
    rfl
  · rw [hblock]
    exact ⟨rfl, rfl⟩
  · rw [hblock, hshare]
    simp [Place.recyclableShare]
  · intro n n' hn huse _
    have hone : n' = n + 1 := by omega
    rw [hblock, hone, Nat.succ_mul, ← huse]

/-- `GetBlock` takes a block of the first chunk with free blocks. -/
theorem takeBlock (h : Stored chunks p out v) (hchunks : ChunksApart chunks)
    (hlist : v.lists (.available c i) = a :: rest) :
    ∃ ptr p' v', p.takeBlock c i = .ok (ptr, p') ∧ ptr ∈ ptrsOf a i ∧ Stored chunks p' (ptr :: out) v' ∧
      v'.Held c i a ∧ Touches c out p p' v v' ∧ Keeps c p p' v v' ∧ (PartedOff v a → Parted v') := by
  have ha : a ∈ v.lists (.available c i) := by rw [hlist]; exact mem_cons_self
  have hat := h.chunkAt (.available c i) c i a rfl ha
  have hfirst := (h.head_eq (show headOf p (.available c i) = some _ from rfl) hlist).1
  obtain ⟨b, bs, hfree⟩ := exists_cons_of_length_pos hat.allowed
  rw [hfree] at hat
  obtain ⟨hhead, hb, _⟩ := hat.built.path
  have hleft : (p.memory.popBlock a).availableBlockNum a = bs.length := hat.built.popBlock.available
  have hptr : b + blockHeaderSize ∈ ptrsOf a i := mem_map_of_mem (hat.spread.mem_blocksOf mem_cons_self)
  unfold ChunkPool.takeBlock
  dsimp only
  rw [hfirst, hhead, if_neg hb, hleft]
  cases bs with
  | nil =>
    have hperm : (v.lists (.available c i)).Perm ([a] ++ rest) := by rw [hlist]; rfl
    have hnodup : (a :: rest).Nodup := hlist ▸ h.placed.nodup (.available c i)
    have hisList := h.linked (.available c i) _ rfl
    rw [hlist, hfirst] at hisList
    rw [length_nil, if_pos rfl]
    have halters := alters_write p ((p.memory.popBlock a).setLinks ((p.memory.popBlock a).links.dropFront a)) p.chunks
      p.chunkNum c i
    refine ⟨_, _, _, rfl, hptr, h.pop hchunks (h.relinks_move (.full c i) (by simp) rfl rfl hperm []) hfree rfl rfl
      (halters _) (sameNums_write p _ _ _ c i _) rfl (h.linked_move (by simp) ?_ ?_ ?_ ?_)
      (fun _ => sameChunk_setLinks _) blockCache_setBlockCache_self⟩
    · intro place hs _
      refine (halters _).headOf_eq (fun _ => rfl) (fun _ => ?_) fun heq => absurd heq hs
      rw [blockCache_setBlockCache_self]
    · rw [hlist]
      exact (Links.sameOff_dropFront hisList).mono fun x hx => by simp [hx]
    · intro head hhead
      obtain rfl := some.inj hhead
      rw [blockCache_setBlockCache_self]
      exact hisList.dropFront hnodup
    · intro head hhead
      cases hhead
  | cons b₁ bs =>
    have halters := alters_write p (p.memory.popBlock a) p.chunks p.chunkNum c i
    rw [length_cons, if_neg (Nat.succ_ne_zero _)]
    refine ⟨_, _, _, rfl, hptr, h.pop hchunks (h.relinks_setFree rfl ha (b₁ :: bs)) hfree rfl (Nat.succ_pos _)
      (halters _) (sameNums_write p _ _ _ c i _) rfl (h.linked_setFree (halters _) rfl rfl ?_ ?_)
      (fun _ => SameChunk.refl _ _) blockCache_setBlockCache_self⟩
    · rw [blockCache_setBlockCache_self]
    · rw [blockCache_setBlockCache_self, hfirst]

variable {moved : List Nat} {links : Links}

section

variable (h : Stored chunks p out v)
include h

lemma relink (hrelinks : Relinks chunks c i a (v.free a) source target v v') (halters : Alters c i p p')
    (hmemory : p'.memory = p.memory.setLinks links)
    (hlinked : ∀ place head, headOf p' place = some head → p'.memory.links.IsList head (v'.lists place))
    (hnum : p'.chunkNum = p.chunkNum) (hallows : target.allows (v.free a).length (blockNum i)) :
    Stored chunks p' out v' := by
  have hsame : ∀ a, SameChunk p.memory p'.memory a := fun _ => hmemory ▸ sameChunk_setLinks _
  have hat := h.chunkAt_of_ne hrelinks.source_owner hrelinks.before (hsame a) halters.tasksOf_eq rfl
  exact hrelinks.stored h halters hlinked hnum (fun a' _ _ => hsame a') (fun _ _ _ _ => rfl)
    ⟨hat.built, hallows, hat.spread⟩ fun _ hq => Or.inl hq

/-- `GetBlock` opens the first recyclable chunk when no chunk has free blocks. -/
theorem openChunk (hlist : v.lists (.recyclable c i) = a :: rest) (hnone : v.lists (.available c i) = []) :
    ∃ v', Stored chunks (p.openChunk c i) out v' ∧ v'.lists (.available c i) = [a] ∧
      Touches c out p (p.openChunk c i) v v' ∧ Keeps c p (p.openChunk c i) v v' ∧ (Parted v → PartedOff v' a) := by
  have hperm : (v.lists (.recyclable c i)).Perm ([a] ++ rest) := by rw [hlist]; rfl
  have hnodup : (a :: rest).Nodup := hlist ▸ h.placed.nodup (.recyclable c i)
  have ha : a ∈ v.lists (.recyclable c i) := by rw [hlist]; exact mem_cons_self
  have hfull : (v.free a).length = blockNum i := (h.chunkAt (.recyclable c i) c i a rfl ha).allowed
  have hisList := h.linked (.recyclable c i) _ rfl
  have hfirst := (h.head_eq (show headOf p (.recyclable c i) = some _ from rfl) hlist).1
  rw [hlist, hfirst] at hisList
  obtain ⟨hone, hrest⟩ := Links.IsList.cutAfter (show p.memory.links.IsList a ([] ++ a :: rest) from hisList) hnodup
  obtain ⟨p', hp'⟩ : ∃ p', p' = p.openChunk c i := ⟨_, rfl⟩
  rw [← hp']
  rw [ChunkPool.openChunk, hfirst] at hp'
  have halters : Alters c i p p' :=
    hp' ▸ (alters_write p _ p.chunks p.chunkNum c i _).trans (alters_setNums _ c _ _ i)
  have hblock : p'.blockCache c i = { p.blockCache c i with
      availableChunks := a
      recyclableChunks := p.memory.links.next a
      recyclableSize := (p.blockCache c i).recyclableSize - kChunkSize } := by
    rw [hp', blockCache_setNums, blockCache_setBlockCache_self]
  have hmemory : p'.memory = p.memory.setLinks (p.memory.links.cutAfter a) := by rw [hp']; rfl
  have hnums : (p'.caches c).totalChunkNum = (p.caches c).totalChunkNum ∧
      (p'.caches c).recyclableChunkNum = (p.caches c).recyclableChunkNum - 1 := hp' ▸ nums_setNums _ c _ _
  have hrelinks := h.relinks_move (.available c i) (by simp) rfl rfl hperm (v.free a)
  refine ⟨_, h.relink hrelinks halters hmemory (h.linked_move (by simp) ?_ ?_ ?_ ?_) (by rw [hp']; rfl) ?_, ?_,
    hrelinks.touches halters out, hrelinks.keeps halters hnums.1 ?_ ?_ ?_ ?_,
    fun hparted => hrelinks.partedOff fun c' i' a' ha' _ => hparted c' i' a' ha'⟩
  · intro place hr ha
    exact halters.headOf_eq (fun _ => by rw [hp']; rfl) (fun heq => absurd heq hr) fun heq => absurd heq ha
  · rw [hmemory]
    refine Links.sameOff_cutAfter hisList.path.2.2 ?_ ?_
    · simp [hlist]
    · intro y hy
      simp [hlist, hy]
  · intro head hhead
    obtain rfl := some.inj hhead
    rw [hmemory, hblock]
    exact hrest
  · intro head hhead
    obtain rfl := some.inj hhead
    rw [hmemory, hblock, hnone]
    exact hone
  · have := two_le_blockNum i
    show 0 < (v.free a).length
    omega
  · dsimp only
    rw [moveTo_to, hnone, append_nil]
  · simp [hnums.2, Place.recyclableShare]
  · rw [hblock]
    exact ⟨rfl, rfl⟩
  · simp [hblock, Place.recyclableShare]
  · intro n n' hn huse _
    rw [hblock, Nat.add_right_cancel hn, ← huse]

lemma takenOf_central (hchunks : ChunksApart chunks) (ha : a ∈ v.lists .central) (c : Nat) :
    takenOf a out (tasksOf p c) = [] := by
  have hnot : ∀ c i a' q, v.Held c i a' → q ∈ ptrsOf a' i → ¬ inChunk a q = true := by
    rintro c i a' q ⟨place, howner, ha'⟩ hq hin
    obtain rfl := h.eq_of_inChunk hchunks ha ha' hin (inChunk_of_mem_ptrsOf hq)
    obtain rfl := h.placed.eq_of_mem .central place a ha ha'
    cases howner
  refine filter_eq_nil_iff.mpr fun q hq => ?_
  rcases mem_append.mp hq with hq | hq
  · obtain ⟨c', i, a', hv, hmem⟩ := h.out_held q hq
    exact hnot c' i a' q hv hmem
  · obtain ⟨i, a', hv, hmem⟩ := h.tasks_held c q hq
    exact hnot c i a' q hv hmem

lemma getChunks (hn : 0 < n) :
    p.getChunks n = .ok (0, p) ∨
      ∃ moved rest links next, v.lists .central = moved ++ rest ∧ moved.length = n ∧ p.chunks ≠ 0 ∧
        p.getChunks n = .ok (p.chunks, { p with
          chunkNum := p.chunkNum - n, chunks := next, memory := p.memory.setLinks links }) ∧
        links.IsList p.chunks moved ∧ links.IsList next rest ∧ p.memory.links.SameOff links (v.lists .central) := by
  unfold ChunkPool.getChunks
  by_cases hlt : p.chunkNum < n
  · rw [if_pos hlt]
    exact Or.inl rfl
  · have hlen : n ≤ (v.lists .central).length := h.chunkNum ▸ Nat.le_of_not_lt hlt
    have hsplit : v.lists .central = (v.lists .central).take (n - 1) ++
        (v.lists .central)[n - 1] :: (v.lists .central).drop n := by
      have hdrop := drop_eq_getElem_cons (show n - 1 < (v.lists .central).length by omega)
      rw [Nat.sub_add_cancel hn] at hdrop
      rw [← hdrop, take_append_drop]
    have htake : ((v.lists .central).take (n - 1)).length = n - 1 := length_take_of_le (by omega)
    have hisList := h.linked .central _ rfl
    have hnodup := h.placed.nodup .central
    generalize (v.lists .central)[n - 1] = x at hsplit
    rw [hsplit] at hisList hnodup
    have hlast : follow p.memory.links.next (n - 1) p.chunks = x := htake ▸ hisList.path.follow_eq
    obtain ⟨_, _, _, hx, hrest⟩ := LinkPath.append_iff.mp hisList.path
    obtain ⟨hfront, hback⟩ := hisList.cutAfter hnodup
    right
    refine ⟨(v.lists .central).take (n - 1) ++ [x], (v.lists .central).drop n, p.memory.links.cutAfter x,
      p.memory.links.next x, ?_, ?_, ?_, ?_, hfront, hback, ?_⟩
    · rw [append_assoc]
      exact hsplit
    · rw [length_append, htake, length_singleton, Nat.sub_add_cancel hn]
    · intro hzero
      have := hisList.path.eq_zero_iff.mp hzero
      simp at this
    · rw [if_neg hlt, if_neg hn.ne', hlast, if_neg hx]
    · refine Links.sameOff_cutAfter hrest ?_ ?_
      · rw [hsplit]
        simp
      · intro y hy
        rw [hsplit]
        simp [hy]

lemma keepChunks {next : Nat} (hchunks : ChunksApart chunks) (hnone : v.lists (.recyclable c i) = [])
    (hcentral : v.lists .central = moved ++ rest) (hmoved : links.IsList p.chunks moved)
    (hrest : links.IsList next rest) (hsame : p.memory.links.SameOff links (v.lists .central))
    (hp' : p' = { p with chunkNum := p.chunkNum - moved.length, chunks := next, memory := p.memory.setLinks links }.keepChunks
      moved.length c i p.chunks) :
    ∃ v', Stored chunks p' out v' ∧ v'.lists (.recyclable c i) = moved ∧
      v'.lists (.available c i) = v.lists (.available c i) ∧ Touches c out p p' v v' ∧
      Keeps c p p' v v' ∧ (Parted v → Parted v') := by
  have hperm : (v.lists .central).Perm (moved ++ rest) := hcentral ▸ Perm.refl _
  have hmem : ∀ a ∈ moved, a ∈ v.lists .central := fun a ha => hperm.mem_iff.mpr (mem_append_left rest ha)
  have hnodup : moved.Nodup := (nodup_append'.mp (hperm.nodup_iff.mp (h.placed.nodup .central))).1
  have hfuel : moved.length ≤ p.totalChunkNum := by
    have hle := h.length_le .central
    rw [hcentral, length_append] at hle
    omega
  obtain ⟨hlinks, hbuilt, hother⟩ := buildBlocks_spec (c := c) (i := i) (m := p.memory.setLinks links) hchunks hfuel
    hmoved.path (fun a ha => h.mem_chunks (hmem a ha)) hnodup
  have hfree : ∀ c' i' a, v.Held c' i' a → a ∉ moved := by
    rintro c' i' a ⟨place, howner, ha⟩ hmoved
    obtain rfl := h.placed.eq_of_mem .central place a (hmem a hmoved) ha
    cases howner
  have halters : Alters c i p p' := by
    rw [hp']
    exact (alters_write p _ next (p.chunkNum - moved.length) c i _).trans (alters_setNums _ c _ _ i)
  have hmemory : p'.memory = (p.memory.setLinks links).buildBlocks (c, i) (kBlockSizes i) p.totalChunkNum p.chunks := by
    rw [hp']
    rfl
  have hblock : p'.blockCache c i = { p.blockCache c i with
      totalSize := (p.blockCache c i).totalSize + moved.length * kChunkSize
      recyclableSize := (p.blockCache c i).recyclableSize + moved.length * kChunkSize
      recyclableChunks := p.chunks } := by
    rw [hp', ChunkPool.keepChunks, blockCache_setNums, blockCache_setBlockCache_self]
    rfl
  have htotal : (p'.caches c).totalChunkNum = (p.caches c).totalChunkNum + moved.length ∧
      (p'.caches c).recyclableChunkNum = (p.caches c).recyclableChunkNum + moved.length := by
    rw [hp']
    exact nums_setNums _ c _ _
  have hnum := recyclableNum_move .central (.recyclable c i) (by simp) hperm c
  simp only [Place.recyclableShare, if_true, Nat.add_zero] at hnum
  have hlinks' : p'.memory.links = links := by rw [hmemory, hlinks]; rfl
  refine ⟨⟨moveTo v.lists .central (.recyclable c i) moved rest, fun a => if a ∈ moved then blocksOf a i else v.free a⟩,
    ?_, ?_, ?_, ?_, ⟨?_, ?_, ?_⟩, ?_⟩
  · refine h.move (by simp) hperm (h.linked_move (by simp) ?_ ?_ ?_ ?_) ?_ halters.totalChunkNum halters.tasksOf_eq
      ?_ ?_ ?_ h.out_held
    · intro place hs ht
      exact halters.headOf_eq (fun heq => absurd heq hs) (fun heq => absurd heq ht) fun _ => by rw [hblock]
    · rw [hlinks']
      exact hsame.mono fun x hx => mem_append_left _ hx
    · intro head hhead
      rw [hp'] at hhead
      obtain rfl := some.inj hhead
      rw [hlinks']
      exact hrest
    · intro head hhead
      obtain rfl := some.inj hhead
      rw [hlinks', hblock, hnone, append_nil]
      exact hmoved
    · have hlen := h.chunkNum
      rw [hcentral, length_append] at hlen
      rw [moveTo_from (by simp), hp']
      show p.chunkNum - moved.length = rest.length
      omega
    · intro place c' i' a' howner ha' hnot
      rw [if_neg hnot]
      refine h.chunkAt_of_ne howner ha' ?_ halters.tasksOf_eq rfl
      rw [hmemory]
      exact (sameChunk_setLinks links).trans (hother a' (h.mem_chunks ha') hnot)
    · intro c' i' a' howner ha'
      cases howner
      rw [if_pos ha']
      refine ⟨hmemory ▸ hbuilt a' ha', ?_, ?_⟩
      · simp [Place.allows, blocksOf]
      · unfold Spread
        rw [halters.tasksOf_eq, h.takenOf_central hchunks (hmem a' ha') c, append_nil]
        exact Perm.refl _
    · intro c' i' a' q hv ha' _ _
      exact absurd ha' (hfree c' i' a' hv)
  · show moveTo v.lists _ _ moved rest _ = moved
    rw [moveTo_to, hnone, append_nil]
  · dsimp only
    rw [moveTo_of_ne (by simp) (by simp)]
  · refine halters.touches (.inl rfl) (.inr rfl) ?_
    intro c' i' a' q hv _ _
    exact held_move (by simp) h.placed hperm hv fun hmoved => absurd hmoved (hfree c' i' a' hv)
  · intro hcounted
    have hused := usedNum_move .central (.recyclable c i) (by simp) hperm c
    simp only [Place.usedShare, Nat.add_zero] at hused
    have htotal' := hcounted.total
    have hle := hcounted.recyclable_le
    refine ⟨?_, ?_⟩
    · rw [htotal.1, htotal.2]
      show _ = _ + (v.move .central (.recyclable c i) moved rest).usedNum c
      omega
    · rw [htotal.2]
      show (v.move .central (.recyclable c i) moved rest).recyclableNum c ≤ _
      omega
  · intro hexact
    unfold Exact at hexact ⊢
    rw [htotal.2]
    show _ = (v.move .central (.recyclable c i) moved rest).recyclableNum c
    omega
  · intro hbooked
    refine hbooked.alter halters ?_ ?_ ?_
    · exact fun _ _ _ => moveTo_lists_of_owner_ne (.inl rfl) (.inr rfl)
    · exact fun c' i' a' ha' _ => if_neg (hfree c' i' a' ha')
    · have hheld := heldChunks_move (show Place.central ≠ .recyclable c i by simp) hperm c i
      simp only [Place.share, Place.owner, if_true, reduceCtorEq, if_false, append_nil] at hheld
      rw [hblock]
      refine ⟨(hbooked c i).blockSize, ?_, ?_, ?_⟩
      · dsimp only
        rw [(hbooked c i).totalSize, ← Nat.add_mul, ← length_append, ← hheld.length_eq]
        rfl
      · dsimp only
        rw [(hbooked c i).recyclableSize, moveTo_to, length_append, ← Nat.add_mul, Nat.add_comm]
      · dsimp only
        rw [(hbooked c i).inUseSize]
        congr 1
        symm
        refine takenNum_append moved hheld ?_ ?_
        · exact fun a' ha' => if_neg (hfree c i a' ha')
        · intro a' ha'
          dsimp only
          rw [if_pos ha']
          simp [blocksOf]
  · intro hparted c' i' a' ha'
    dsimp only at ha' ⊢
    rw [moveTo_of_ne (by simp) (by simp)] at ha'
    rw [if_neg (hfree c' i' a' ⟨.available c' i', rfl, ha'⟩)]
    exact hparted c' i' a' ha'

/-- `GetBlock` gives out a free block of its class, or leaves the pool as it is. -/
theorem getBlock (hchunks : ChunksApart chunks) (opt : MemoryPoolInitOption) (hfetch : 0 < opt.fetchChunkNum)
    (c : Nat) (i : Fin kBlockNum) :
    p.getBlock opt c i = .ok (0, p) ∨
      ∃ ptr p' v' a, p.getBlock opt c i = .ok (ptr, p') ∧ ptr ∈ ptrsOf a i ∧ v'.Held c i a ∧
        Stored chunks p' (ptr :: out) v' ∧ Touches c out p p' v v' ∧ Keeps c p p' v v' ∧ (Parted v → Parted v') := by
  have havailable := h.head_eq_zero_iff (show headOf p (.available c i) = some _ from rfl)
  have hrecyclable := h.head_eq_zero_iff (show headOf p (.recyclable c i) = some _ from rfl)
  -- a chunk that was opened has a block to take
  have hopen : ∀ {p₁ v₁ a rest}, Stored chunks p₁ out v₁ → v₁.lists (.recyclable c i) = a :: rest →
      v₁.lists (.available c i) = [] →
      ∃ ptr p' v' a, (p₁.openChunk c i).takeBlock c i = .ok (ptr, p') ∧ ptr ∈ ptrsOf a i ∧ v'.Held c i a ∧
        Stored chunks p' (ptr :: out) v' ∧ Touches c out p₁ p' v₁ v' ∧ Keeps c p₁ p' v₁ v' ∧
        (Parted v₁ → Parted v') := by
    intro p₁ v₁ a rest h₁ hlist hnone
    obtain ⟨v₂, h₂, hlist₂, htouches₂, hkeeps₂, hparted₂⟩ := h₁.openChunk hlist hnone
    obtain ⟨ptr, p', v', htake, hptr, h', hheld, htouches, hkeeps, hparted⟩ := h₂.takeBlock hchunks hlist₂
    exact ⟨ptr, p', v', a, htake, hptr, hheld, h', htouches₂.trans htouches fun _ hq => hq, hkeeps₂.trans hkeeps,
      fun hparted₁ => hparted (hparted₂ hparted₁)⟩
  unfold ChunkPool.getBlock
  by_cases ha : (p.blockCache c i).availableChunks = 0
  · rw [if_neg (not_not.mpr ha)]
    by_cases hr : (p.blockCache c i).recyclableChunks = 0
    · rw [if_neg (not_not.mpr hr)]
      rcases h.getChunks hfetch with hfew | ⟨moved, rest, links, next, hcentral, hlen, hne, hget, hmoved, hrest, hsame⟩
      · rw [hfew]
        exact Or.inl rfl
      · rw [hget]
        dsimp only
        rw [if_neg hne, ← hlen]
        obtain ⟨v₁, h₁, hlist₁, hnone₁, htouches₁, hkeeps₁, hparted₁⟩ :=
          h.keepChunks hchunks (hrecyclable.mp hr) hcentral hmoved hrest hsame rfl
        obtain ⟨a, rest', hcons⟩ := exists_cons_of_length_pos (hlen ▸ hfetch)
        rw [hcons] at hlist₁
        rw [havailable.mp ha] at hnone₁
        obtain ⟨ptr, p', v', a', htake, hptr, hheld, h', htouches, hkeeps, hparted⟩ := hopen h₁ hlist₁ hnone₁
        exact Or.inr ⟨ptr, p', v', a', htake, hptr, hheld, h', htouches₁.trans htouches fun _ hq => hq,
          hkeeps₁.trans hkeeps, fun hparted₀ => hparted (hparted₁ hparted₀)⟩
    · rw [if_pos hr]
      obtain ⟨a, rest, hlist⟩ := exists_cons_of_ne_nil fun hnil => hr (hrecyclable.mpr hnil)
      exact Or.inr (hopen h hlist (havailable.mp ha))
  · rw [if_pos ha]
    obtain ⟨a, rest, hlist⟩ := exists_cons_of_ne_nil fun hnil => ha (havailable.mpr hnil)
    obtain ⟨ptr, p', v', htake, hptr, h', hheld, htouches, hkeeps, hparted⟩ := h.takeBlock hchunks hlist
    exact Or.inr ⟨ptr, p', v', a, htake, hptr, hheld, h', htouches, hkeeps,
      fun hparted₀ => hparted fun c' i' a' ha' _ => hparted₀ c' i' a' ha'⟩

end

end Stored

end Vesal.Proofs
