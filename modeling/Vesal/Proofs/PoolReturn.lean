import Vesal.Proofs.PoolOps

/-! # Blocks and chunks that go back -/

namespace Vesal.Proofs

open Library List Function Option ChunkPool

variable {chunks out rest tasks : List Nat} {p p' : ChunkPool} {v v' : PoolView} {a c c' q : Nat}
  {i : Fin kBlockNum} {place : Place} {b' : TLSBlockCache}

lemma sameChunk_pushBlock_of_ptr (hchunks : ChunksApart chunks) {a' : Nat} {m : PoolMemory} (hne : a' ≠ a)
    (ha : a ∈ chunks) (ha' : a' ∈ chunks) (hq : q ∈ ptrsOf a i) :
    SameChunk m (m.pushBlock a (q - blockHeaderSize)) a' := by
  obtain ⟨k, hk, rfl⟩ := mem_ptrsOf.mp hq
  refine sameChunk_pushBlock hne ?_
  rw [Nat.add_sub_cancel, ← Bool.not_eq_true]
  intro hin
  exact hne (hchunks.eq_of_inChunk ha' ha hin (inChunk_of_mem_blocksOf (mem_blocksOf.mpr ⟨k, hk, rfl⟩)))

namespace Stored

lemma place_of_taken (h : Stored chunks p out v) (hheld : v.Held c i a) (hq : q ∈ ptrsOf a i)
    (hout : q ∈ out ++ tasksOf p c) : a ∈ v.lists (.available c i) ∨ a ∈ v.lists (.full c i) := by
  obtain ⟨place, howner, ha⟩ := hheld
  have hat := h.chunkAt place c i a howner ha
  cases place with
  | central => cases howner
  | recyclable c' i' =>
    cases howner
    have hlen := hat.spread.length
    have hfull : (v.free a).length = blockNum i := hat.allowed
    have htaken : q ∈ takenOf a out (tasksOf p c) := mem_filter.mpr ⟨hout, inChunk_of_mem_ptrsOf hq⟩
    have hpos := length_pos_of_mem htaken
    omega
  | available c' i' =>
    cases howner
    exact Or.inl ha
  | full c' i' =>
    cases howner
    exact Or.inr ha

lemma push (h : Stored chunks p (q :: out) v) (hchunks : ChunksApart chunks) {source : Place}
    (hrelinks : Relinks chunks c i a ((q - blockHeaderSize) :: v.free a) source (.available c i) v v')
    (hshare : source.recyclableShare c 1 = 0) (hq : q ∈ ptrsOf a i) (halters : Alters c i p p') (hnums : SameNums p p' c)
    (hnum : p'.chunkNum = p.chunkNum)
    (hlinked : ∀ place head, headOf p' place = some head → p'.memory.links.IsList head (v'.lists place))
    (hsame : ∀ a', SameChunk (p.memory.pushBlock a (q - blockHeaderSize)) p'.memory a') {available : Nat}
    (hblock : p'.blockCache c i = { p.blockCache c i with
      availableChunks := available, inUseSize := (p.blockCache c i).inUseSize - (p.blockCache c i).blockSize }) :
    Stored chunks p' out v' ∧ (∀ out', Touches c out' p p' v v') ∧ Keeps c p p' v v' ∧
      (Parted v → PartedOff v' a) := by
  have hat := h.chunkAt source c i a hrelinks.source_owner hrelinks.before
  have ha := h.mem_chunks hrelinks.before
  have hlen := hat.spread.length
  rw [takenOf_cons_of_inChunk (inChunk_of_mem_ptrsOf hq), length_cons] at hlen
  refine ⟨hrelinks.stored h halters hlinked hnum ?_ ?_
      (hat.push hq (hchunks.pos a ha) (hsame a) halters.tasksOf_eq (Nat.succ_pos _)) ?_,
    hrelinks.touches halters, hrelinks.keeps halters hnums.1 ?_ ?_ ?_ ?_,
    fun hparted => hrelinks.partedOff fun c' i' a' ha' _ => hparted c' i' a' ha'⟩
  · exact fun a' ha' hne => (sameChunk_pushBlock_of_ptr hchunks hne ha ha' hq).trans (hsame a')
  · exact fun a' ha' hne tasks => (hchunks.takenOf_cons hne ha ha' hq out).symm
  · exact fun q' hq' => Or.inl (mem_cons_of_mem q hq')
  · rw [hnums.2, hshare]
    rfl
  · rw [hblock]
    exact ⟨rfl, rfl⟩
  · rw [hblock, hshare]
    simp [Place.recyclableShare]
  · intro n n' hn huse hsize
    rw [length_cons] at hn
    have hone : n = n' + 1 := by omega
    rw [hblock]
    dsimp only
    rw [huse, hsize, hone, Nat.succ_mul, Nat.add_sub_cancel]

/-- A chunk all of whose blocks are free becomes recyclable. -/
theorem makeRecyclable (h : Stored chunks p out v) (hchunks : ChunksApart chunks) (ha : a ∈ v.lists (.available c i))
    (hfull : (v.free a).length = blockNum i) :
    ∃ v', Stored chunks (p.makeRecyclable c c i a) out v' ∧
      (∀ out', Touches c out' p (p.makeRecyclable c c i a) v v') ∧
      Keeps c p (p.makeRecyclable c c i a) v v' ∧ (PartedOff v a → Parted v') := by
  obtain ⟨xs, ys, hlist⟩ := append_of_mem ha
  have hperm : (v.lists (.available c i)).Perm ([a] ++ (xs ++ ys)) := hlist ▸ perm_middle
  have hnodup : (xs ++ a :: ys).Nodup := hlist ▸ h.placed.nodup (.available c i)
  have hisList := h.linked (.available c i) _ rfl
  rw [hlist] at hisList
  have hnot : a ∉ v.lists (.recyclable c i) := by
    intro hmem
    cases h.placed.eq_of_mem (.available c i) (.recyclable c i) a ha hmem
  have hrest := hisList.unlink hnodup
  have hsame := Links.sameOff_unlink hisList
  obtain ⟨p', hp'⟩ : ∃ p', p' = p.makeRecyclable c c i a := ⟨_, rfl⟩
  rw [← hp']
  unfold ChunkPool.makeRecyclable at hp'
  dsimp only at hp'
  rcases hpair : p.memory.links.unlink (p.blockCache c i).availableChunks a with ⟨available, links⟩
  rw [hpair] at hrest hsame hp'
  have hrecyclable : links.IsList (p.blockCache c i).recyclableChunks (v.lists (.recyclable c i)) := by
    refine (h.linked (.recyclable c i) _ rfl).frame hsame fun x hx hmem => ?_
    have hmem' : x ∈ v.lists (.available c i) := hperm.mem_iff.mpr (mem_cons_of_mem a hmem)
    cases h.placed.eq_of_mem (.recyclable c i) (.available c i) x hx hmem'
  have hpush := Links.sameOff_pushFront hrecyclable hnot
  have halters : Alters c i p p' :=
    hp' ▸ (alters_write p _ p.chunks p.chunkNum c i _).trans (alters_setNums _ c _ _ i)
  have hblock : p'.blockCache c i = { p.blockCache c i with
      availableChunks := available
      recyclableChunks := a
      recyclableSize := (p.blockCache c i).recyclableSize + kChunkSize } := by
    rw [hp', blockCache_setNums, blockCache_setBlockCache_self]
  have hmemory : p'.memory = p.memory.setLinks (links.pushFront (p.blockCache c i).recyclableChunks a) := by
    rw [hp']
    rfl
  have hnums : (p'.caches c).totalChunkNum = (p.caches c).totalChunkNum ∧
      (p'.caches c).recyclableChunkNum = (p.caches c).recyclableChunkNum + 1 := by
    have hsame := sameNums_write p (p.memory.setLinks (links.pushFront (p.blockCache c i).recyclableChunks a)) p.chunks
      p.chunkNum c i
    rw [hp', ← (hsame _).1, ← (hsame _).2]
    exact nums_setNums _ c _ _
  have hrelinks := h.relinks_move (.recyclable c i) (by simp) rfl rfl hperm (v.free a)
  refine ⟨_, h.relink hrelinks halters hmemory (h.linked_move (by simp) ?_ ?_ ?_ ?_) (by rw [hp']; rfl) hfull,
    hrelinks.touches halters, hrelinks.keeps halters hnums.1 ?_ ?_ ?_ ?_,
    fun hparted => hrelinks.parted hparted fun heq => by cases heq⟩
  · intro place hs ht
    exact halters.headOf_eq (fun _ => by rw [hp']; rfl) (fun heq => absurd heq ht) fun heq => absurd heq hs
  · rw [hmemory]
    refine Links.SameOff.trans (hsame.mono fun x hx => ?_) (hpush.mono fun x hx => ?_)
    · exact mem_append_left _ (hperm.mem_iff.mpr (mem_cons_of_mem a hx))
    · rcases mem_cons.mp hx with rfl | hx
      · exact mem_append_left _ ha
      · exact mem_append_right _ hx
  · intro head hhead
    obtain rfl := some.inj hhead
    rw [hmemory, hblock]
    refine hrest.frame hpush fun x hx hmem => ?_
    have hx' : x ∈ v.lists (.available c i) := hperm.mem_iff.mpr (mem_cons_of_mem a hx)
    rcases mem_cons.mp hmem with rfl | hmem
    · exact (nodup_cons.mp (hperm.nodup_iff.mp (h.placed.nodup _))).1 hx
    · cases h.placed.eq_of_mem (.available c i) (.recyclable c i) x hx' hmem
  · intro head hhead
    obtain rfl := some.inj hhead
    rw [hmemory, hblock]
    exact hrecyclable.pushFront (hchunks.pos a (h.mem_chunks ha)).ne' (nodup_cons.mpr ⟨hnot, h.placed.nodup _⟩)
  · simp [hnums.2, Place.recyclableShare]
  · rw [hblock]
    exact ⟨rfl, rfl⟩
  · simp [hblock, Place.recyclableShare]
  · intro n n' hn huse _
    rw [hblock, Nat.add_right_cancel hn, ← huse]

lemma headers_of_held (h : Stored chunks p out v) (hheld : v.Held c i a) (hq : q ∈ ptrsOf a i) :
    p.memory.chunk (q - blockHeaderSize) = a ∧ p.memory.cache a = (c, i) := by
  obtain ⟨place, howner, ha⟩ := hheld
  have hat := h.chunkAt place c i a howner ha
  obtain ⟨k, hk, rfl⟩ := mem_ptrsOf.mp hq
  rw [Nat.add_sub_cancel]
  exact ⟨hat.built.chunk _ (mem_blocksOf.mpr ⟨k, hk, rfl⟩), hat.built.cache⟩

lemma freeBlock (h : Stored chunks p (q :: out) v) (hchunks : ChunksApart chunks) (hheld : v.Held c i a)
    (hq : q ∈ ptrsOf a i) (hp₁ : p' = p.freeBlock c i a (q - blockHeaderSize)) :
    ∃ p₂ v₂, (if p'.memory.availableBlockNum a = 1 then p'.addAvailable c i a else p') = p₂ ∧
      a ∈ v₂.lists (.available c i) ∧ Stored chunks p₂ out v₂ ∧ (∀ out', Touches c out' p p₂ v v₂) ∧
      Keeps c p p₂ v v₂ ∧ (Parted v → PartedOff v₂ a) := by
  have halters : Alters c i p p' := hp₁ ▸ alters_write p _ p.chunks p.chunkNum c i _
  have hnums : SameNums p p' c := hp₁ ▸ sameNums_write p _ p.chunks p.chunkNum c i _
  have hmemory : p'.memory = p.memory.pushBlock a (q - blockHeaderSize) := by rw [hp₁]; rfl
  have hblock : p'.blockCache c i = { p.blockCache c i with
      inUseSize := (p.blockCache c i).inUseSize - (p.blockCache c i).blockSize } := by
    rw [hp₁, ChunkPool.freeBlock, blockCache_setBlockCache_self]
  have hcentral : p'.chunks = p.chunks ∧ p'.chunkNum = p.chunkNum := by rw [hp₁]; exact ⟨rfl, rfl⟩
  have havailable : p'.memory.availableBlockNum a = p.memory.availableBlockNum a + 1 := by
    rw [hmemory]
    simp [PoolMemory.pushBlock]
  rcases h.place_of_taken hheld hq (by simp) with ha | ha
  · have hat := h.chunkAt (.available c i) c i a rfl ha
    have hsome : 0 < (v.free a).length := hat.allowed
    rw [if_neg (by rw [havailable, hat.built.available]; omega)]
    have hrelinks := h.relinks_setFree rfl ha ((q - blockHeaderSize) :: v.free a)
    refine ⟨p', _, rfl, hrelinks.after, h.push hchunks hrelinks rfl hq halters hnums hcentral.2
      (h.linked_setFree halters hcentral.1 ?_ ?_ ?_) (fun _ => hmemory ▸ SameChunk.refl _ _) hblock⟩
    · rw [hmemory]
      rfl
    · rw [hblock]
    · rw [hblock]
  · have hat := h.chunkAt (.full c i) c i a rfl ha
    have hnone : (v.free a).length = 0 := hat.allowed
    rw [if_pos (by rw [havailable, hat.built.available, hnone])]
    obtain ⟨xs, ys, hlist⟩ := append_of_mem ha
    have hperm : (v.lists (.full c i)).Perm ([a] ++ (xs ++ ys)) := hlist ▸ perm_middle
    have hisList := h.linked (.available c i) _ rfl
    have hnot : a ∉ v.lists (.available c i) := by
      intro hmem
      cases h.placed.eq_of_mem (.full c i) (.available c i) a ha hmem
    obtain ⟨p₂, hp₂⟩ : ∃ p₂, p₂ = p'.addAvailable c i a := ⟨_, rfl⟩
    rw [← hp₂]
    have halters₂ : Alters c i p p₂ := halters.trans (hp₂ ▸ alters_write p' _ p'.chunks p'.chunkNum c i _)
    have hmemory₂ : p₂.memory = (p.memory.pushBlock a (q - blockHeaderSize)).setLinks
        (p.memory.links.pushFront (p.blockCache c i).availableChunks a) := by
      rw [hp₂]
      show p'.memory.setLinks (p'.memory.links.pushFront (p'.blockCache c i).availableChunks a) = _
      rw [hmemory, hblock]
      rfl
    have hblock₂ : p₂.blockCache c i = { p.blockCache c i with
        availableChunks := a
        inUseSize := (p.blockCache c i).inUseSize - (p.blockCache c i).blockSize } := by
      rw [hp₂, addAvailable, blockCache_setBlockCache_self, hblock]
    have hcentral₂ : p₂.chunks = p.chunks ∧ p₂.chunkNum = p.chunkNum := by rw [hp₂]; exact hcentral
    have hnums₂ : SameNums p' p₂ c := hp₂ ▸ sameNums_write p' _ p'.chunks p'.chunkNum c i _
    have hrelinks := h.relinks_move (.available c i) (by simp) rfl rfl hperm ((q - blockHeaderSize) :: v.free a)
    refine ⟨p₂, _, rfl, hrelinks.after, h.push hchunks hrelinks rfl hq halters₂
      ⟨hnums₂.1.trans hnums.1, hnums₂.2.trans hnums.2⟩ hcentral₂.2 (h.linked_move (by simp) ?_ ?_ ?_ ?_)
      (fun _ => hmemory₂ ▸ sameChunk_setLinks _) hblock₂⟩
    · intro place _ ht
      exact halters₂.headOf_eq (fun _ => hcentral₂.1) (fun _ => by rw [hblock₂]) fun heq => absurd heq ht
    · rw [hmemory₂]
      refine (Links.sameOff_pushFront hisList hnot).mono fun x hx => ?_
      rcases mem_cons.mp hx with rfl | hx
      · exact mem_append_left _ ha
      · exact mem_append_right _ hx
    · intro head hhead
      cases hhead
    · intro head hhead
      obtain rfl := some.inj hhead
      rw [hblock₂, hmemory₂]
      exact hisList.pushFront (hchunks.pos a (h.mem_chunks ha)).ne' (nodup_cons.mpr ⟨hnot, h.placed.nodup _⟩)

/-- `PutBlock` of a block of the thread's own cache. -/
theorem returnBlock (h : Stored chunks p (q :: out) v) (hchunks : ChunksApart chunks) (hheld : v.Held c i a)
    (hq : q ∈ ptrsOf a i) :
    ∃ v', Stored chunks (p.returnBlock c q) out v' ∧ (∀ out', Touches c out' p (p.returnBlock c q) v v') ∧
      Keeps c p (p.returnBlock c q) v v' ∧ (Parted v → Parted v') := by
  obtain ⟨hchunk, hcache⟩ := h.headers_of_held hheld hq
  simp only [ChunkPool.returnBlock, hchunk, hcache]
  obtain ⟨p₂, v₂, heq, ha₂, h₂, htouches₂, hkeeps₂, hparted₂⟩ := h.freeBlock hchunks hheld hq rfl
  rw [heq]
  have hat := h₂.chunkAt (.available c i) c i a rfl ha₂
  split
  · rename_i hfull
    rw [hat.built.available, hat.built.total] at hfull
    obtain ⟨v', h', htouches, hkeeps, hparted⟩ := h₂.makeRecyclable hchunks ha₂ hfull
    exact ⟨v', h', fun out' => (htouches₂ out').trans (htouches out') fun _ hq => hq, hkeeps₂.trans hkeeps,
      fun hparted₁ => hparted (hparted₂ hparted₁)⟩
  · rename_i hsome
    rw [hat.built.available, hat.built.total] at hsome
    refine ⟨v₂, h₂, htouches₂, hkeeps₂, fun hparted₁ c' i' a' ha' => ?_⟩
    by_cases hne : a' = a
    · subst hne
      cases h₂.placed.eq_of_mem (.available c' i') (.available c i) a' ha' ha₂
      have hlen := hat.spread.length
      omega
    · exact hparted₂ hparted₁ c' i' a' ha' hne

lemma putChunks (h : Stored chunks p out v) (c : Nat) (i : Fin kBlockNum) :
    ∃ links head num,
      p.putChunks (p.blockCache c i).recyclableChunks = .ok { p with
        memory := p.memory.setLinks links, chunks := head, chunkNum := num } ∧
      links.IsList head (v.lists (.recyclable c i) ++ v.lists .central) ∧
      num = (v.lists (.recyclable c i) ++ v.lists .central).length ∧
      p.memory.links.SameOff links (v.lists (.recyclable c i) ++ v.lists .central) := by
  have hisList := h.linked (.recyclable c i) _ rfl
  have hcentral := h.linked .central _ rfl
  have hlen := h.chunkNum
  have hle := h.length_le (.recyclable c i)
  have hnodup : (v.lists (.recyclable c i) ++ v.lists .central).Nodup := by
    refine nodup_append'.mpr ⟨h.placed.nodup _, h.placed.nodup _, fun x hx hx' => ?_⟩
    cases h.placed.eq_of_mem (.recyclable c i) .central x hx hx'
  unfold ChunkPool.putChunks
  rcases eq_nil_or_concat (v.lists (.recyclable c i)) with hnil | ⟨xs, x, hlist⟩
  · rw [if_pos (hisList.path.eq_zero_iff.mpr hnil)]
    refine ⟨p.memory.links, p.chunks, p.chunkNum, rfl, ?_, ?_, fun _ _ => ⟨rfl, rfl⟩⟩
    · rw [hnil]
      exact hcentral
    · rw [hnil, hlen]
      rfl
  · rw [concat_eq_append] at hlist
    rw [hlist] at hisList hnodup hle
    have hne : (p.blockCache c i).recyclableChunks ≠ 0 := by
      intro hzero
      have hnil := hisList.path.eq_zero_iff.mp hzero
      simp at hnil
    rw [length_append, length_singleton] at hle
    rw [if_neg hne, hisList.path.findLast_eq p.totalChunkNum (by omega)]
    obtain ⟨m, hpath, rfl, hm, _⟩ := LinkPath.append_iff.mp hisList.path
    rw [append_assoc] at hnodup
    refine ⟨p.memory.links.joinAfter m p.chunks, (p.blockCache c i).recyclableChunks, p.chunkNum + (xs.length + 1), rfl,
      ?_, ?_, ?_⟩
    · rw [hlist, append_assoc]
      exact Links.isList_joinAfter hpath hm hisList.back hcentral.path hcentral.back hnodup
    · rw [hlist, hlen]
      simp only [length_append, length_singleton]
      omega
    · refine Links.sameOff_joinAfter hcentral.path ?_ fun y hy => mem_append_right _ hy
      rw [hlist]
      simp

lemma notMem_of_recyclable (h : Stored chunks p out v) (ha : a ∈ v.lists (.recyclable c i)) (hq : q ∈ ptrsOf a i) :
    q ∉ out ++ tasksOf p c := by
  intro hout
  rcases h.place_of_taken ⟨.recyclable c i, rfl, ha⟩ hq hout with hmem | hmem
  · cases h.placed.eq_of_mem (.recyclable c i) (.available c i) a ha hmem
  · cases h.placed.eq_of_mem (.recyclable c i) (.full c i) a ha hmem

end Stored

def PoolView.release (v : PoolView) (c : Nat) (i : Fin kBlockNum) : PoolView :=
  v.move (.recyclable c i) .central (v.lists (.recyclable c i)) []

lemma PoolView.release_lists_self : (v.release c i).lists (.recyclable c i) = [] := by
  unfold PoolView.release PoolView.move
  dsimp only
  rw [moveTo_from (by simp)]

lemma PoolView.release_lists_of_ne (h : place ≠ .recyclable c i) (hcentral : place ≠ .central) :
    (v.release c i).lists place = v.lists place := by
  unfold PoolView.release PoolView.move
  dsimp only
  rw [moveTo_of_ne h hcentral]

lemma PoolView.perm_release (v : PoolView) (c : Nat) (i : Fin kBlockNum) :
    (v.lists (.recyclable c i)).Perm (v.lists (.recyclable c i) ++ []) := by
  rw [append_nil]

lemma PoolView.usedNum_release (c' : Nat) : (v.release c i).usedNum c' = v.usedNum c' := by
  have hused := usedNum_move (.recyclable c i) .central (by simp) (v.perm_release c i) c'
  simp only [Place.usedShare, Nat.add_zero] at hused
  exact hused

lemma PoolView.heldChunks_release (c : Nat) (i : Fin kBlockNum) :
    (v.heldChunks c i).Perm ((v.release c i).heldChunks c i ++ v.lists (.recyclable c i)) := by
  have hmove := heldChunks_move (show Place.recyclable c i ≠ .central by simp) (v.perm_release c i) c i
  simp only [Place.share, Place.owner, if_true, reduceCtorEq, if_false, append_nil] at hmove
  exact hmove.symm

lemma Parted.release (h : Parted v) (c : Nat) (i : Fin kBlockNum) : Parted (v.release c i) := by
  intro c' i' a ha
  rw [PoolView.release_lists_of_ne (by simp) (by simp)] at ha
  exact h c' i' a ha

namespace Stored

lemma takenNum_release (h : Stored chunks p out v) (c : Nat) (i : Fin kBlockNum) :
    (v.release c i).takenNum c i = v.takenNum c i := by
  symm
  refine takenNum_append (v.lists (.recyclable c i)) (PoolView.heldChunks_release c i) (fun _ _ => rfl) fun a ha => ?_
  exact (h.chunkAt (.recyclable c i) c i a rfl ha).allowed

lemma classBooks_recycle (h : Stored chunks p out v) {b : TLSBlockCache} (hbooks : ClassBooks b v c i) :
    ClassBooks { b with recyclableChunks := 0, totalSize := b.totalSize - b.recyclableSize, recyclableSize := 0 }
      (v.release c i) c i := by
  have hlen := (PoolView.heldChunks_release (v := v) c i).length_eq
  rw [length_append] at hlen
  refine ⟨hbooks.blockSize, ?_, ?_, ?_⟩
  · dsimp only
    rw [hbooks.totalSize, hbooks.recyclableSize, ← Nat.sub_mul, hlen, Nat.add_sub_cancel]
  · rw [PoolView.release_lists_self, length_nil, Nat.zero_mul]
  · rw [h.takenNum_release]
    exact hbooks.inUseSize

lemma classBooks_reset {size : Nat} (hsize : size = kBlockSizes i) (havailable : v.lists (.available c i) = [])
    (hfull : v.lists (.full c i) = []) : ClassBooks ⟨0, 0, size, 0, 0, 0⟩ (v.release c i) c i := by
  apply classBooks_empty hsize
  unfold PoolView.heldChunks
  rw [PoolView.release_lists_self, PoolView.release_lists_of_ne (by simp) (by simp),
    PoolView.release_lists_of_ne (by simp) (by simp), havailable, hfull]
  rfl

/-- A pass of the loops of `Recycle` and `Reset`: recyclable chunks go back to the central list. -/
theorem release (h : Stored chunks p out v) (c : Nat) (i : Fin kBlockNum) :
    ∃ p₁, p.putChunks (p.blockCache c i).recyclableChunks = .ok p₁ ∧
      ∀ b' : TLSBlockCache, b'.recyclableChunks = 0 → b'.availableChunks = (p.blockCache c i).availableChunks →
        Stored chunks (p₁.setBlockCache c i b') out (v.release c i) ∧
        Touches c out p (p₁.setBlockCache c i b') v (v.release c i) ∧
        (Counted p v c → Counted (p₁.setBlockCache c i b') (v.release c i) c) ∧
        (Booked p v → ClassBooks b' (v.release c i) c i → Booked (p₁.setBlockCache c i b') (v.release c i)) := by
  obtain ⟨links, head, num, hput, hjoined, hnum, hsame⟩ := h.putChunks c i
  refine ⟨_, hput, fun b' hr ha => ?_⟩
  obtain ⟨p', hp'⟩ : ∃ p', p' = { p with memory := p.memory.setLinks links, chunks := head, chunkNum := num }.setBlockCache
      c i b' := ⟨_, rfl⟩
  rw [← hp']
  have halters : Alters c i p p' := hp' ▸ alters_write p _ head num c i b'
  have hnums : SameNums p p' c := hp' ▸ sameNums_write p _ head num c i b'
  have hblock : p'.blockCache c i = b' := hp' ▸ blockCache_setBlockCache_self
  have hmemory : p'.memory = p.memory.setLinks links := by rw [hp']; rfl
  refine ⟨?_, ?_, ?_, ?_⟩
  · refine h.move (by simp) (v.perm_release c i) (h.linked_move (by simp) ?_ ?_ ?_ ?_) ?_ halters.totalChunkNum
      halters.tasksOf_eq ?_ ?_ ?_ h.out_held
    · intro place hs ht
      exact halters.headOf_eq (fun heq => absurd heq ht) (fun heq => absurd heq hs) fun _ => by rw [hblock, ha]
    · rw [hmemory]
      exact hsame
    · intro head' hhead
      obtain rfl := some.inj hhead
      rw [hblock, hr]
      exact ⟨rfl, trivial⟩
    · intro head' hhead
      rw [hp'] at hhead
      obtain rfl := some.inj hhead
      rw [hmemory]
      exact hjoined
    · rw [moveTo_to, hp']
      exact hnum
    · intro place c' i' a' howner ha' _
      exact h.chunkAt_of_ne howner ha' (hmemory ▸ sameChunk_setLinks _) halters.tasksOf_eq rfl
    · intro c' i' a' howner _
      cases howner
    · intro c' i' a' q hv ha' hq hout
      obtain ⟨rfl, rfl⟩ := h.owner_eq_of_held ha' rfl hv
      exact absurd hout (h.notMem_of_recyclable ha' hq)
  · refine halters.touches (.inr rfl) (.inl rfl) ?_
    intro c' i' a' q hv hq hmem
    refine held_move (by simp) h.placed (v.perm_release c i) hv fun hmoved => ?_
    obtain ⟨rfl, rfl⟩ := h.owner_eq_of_held hmoved rfl hv
    exact absurd (mem_append_left _ hq) (h.notMem_of_recyclable hmoved hmem)
  · intro hcounted
    have hnum' := recyclableNum_move (.recyclable c i) .central (by simp) (v.perm_release c i) c
    simp only [Place.recyclableShare, if_true, Nat.add_zero] at hnum'
    have hle := hcounted.recyclable_le
    refine ⟨?_, ?_⟩
    · rw [hnums.1, hnums.2, PoolView.usedNum_release]
      exact hcounted.total
    · rw [hnums.2]
      show (v.move (.recyclable c i) .central (v.lists (.recyclable c i)) []).recyclableNum c ≤ _
      omega
  · intro hbooked hself
    refine hbooked.alter halters ?_ (fun _ _ _ _ _ => rfl) (hblock ▸ hself)
    exact fun _ _ _ => moveTo_lists_of_owner_ne (.inr rfl) (.inl rfl)

section Queues

lemma setTasks (h : Stored chunks p out v) {out' tasks' : List Nat}
    (hsame : ∀ place i a, place.owner = some (c, i) → a ∈ v.lists place →
      (takenOf a out' tasks').Perm (takenOf a out (tasksOf p c)))
    (hother : ∀ place c' i a, c' ≠ c → place.owner = some (c', i) → a ∈ v.lists place →
      takenOf a out' (tasksOf p c') = takenOf a out (tasksOf p c'))
    (hout : ∀ q ∈ out', ∃ c i a, v.Held c i a ∧ q ∈ ptrsOf a i)
    (htasks : ∀ q ∈ tasks', ∃ i a, v.Held c i a ∧ q ∈ ptrsOf a i) :
    Stored chunks (p.setTasks c tasks') out' v := by
  have hself : tasksOf (p.setTasks c tasks') c = tasks' := by
    rw [tasksOf, ChunkPool.setTasks, caches_setCache_self]
  have hne : ∀ c', c' ≠ c → tasksOf (p.setTasks c tasks') c' = tasksOf p c' := fun c' hc => tasksOf_setCache_of_ne hc
  refine
    { placed := h.placed
      linked := ?_
      chunkNum := h.chunkNum
      totalChunkNum := h.totalChunkNum
      chunkAt := ?_
      out_held := hout
      tasks_held := ?_ }
  · intro place head hhead
    have hheads : headOf (p.setTasks c tasks') = headOf p := headOf_setCache fun _ => rfl
    rw [hheads] at hhead
    exact h.linked place head hhead
  · intro place c' i a howner ha
    refine (h.chunkAt place c' i a howner ha).frame (SameChunk.refl _ _) ?_
    by_cases hc : c' = c
    · subst hc
      rw [hself]
      exact hsame place i a howner ha
    · rw [hne c' hc, hother place c' i a hc howner ha]
  · intro c' q hq
    by_cases hc : c' = c
    · subst hc
      rw [hself] at hq
      exact htasks q hq
    · rw [hne c' hc] at hq
      exact h.tasks_held c' q hq

lemma takenOf_cons_of_owner_ne (h : Stored chunks p out v) (hchunks : ChunksApart chunks) (hheld : v.Held c i a)
    (hq : q ∈ ptrsOf a i) {a' : Nat} {i' : Fin kBlockNum} (hc : c' ≠ c) (howner : place.owner = some (c', i'))
    (ha' : a' ∈ v.lists place) (out' : List Nat) : takenOf a' (q :: out') tasks = takenOf a' out' tasks := by
  have hne : a' ≠ a := by
    rintro rfl
    exact hc (h.owner_eq_of_held ha' howner hheld).1.symm
  exact hchunks.takenOf_cons hne (h.mem_chunks_of_held hheld) (h.mem_chunks ha') hq out'

lemma popTask (h : Stored chunks p out v) (hchunks : ChunksApart chunks) (htasks : tasksOf p c = q :: tasks) :
    Stored chunks (p.setTasks c tasks) (q :: out) v := by
  obtain ⟨i, a, hheld, hq⟩ := h.tasks_held c q (by rw [htasks]; exact mem_cons_self)
  refine h.setTasks ?_ ?_ ?_ ?_
  · intro place i' a' _ _
    rw [htasks]
    exact Perm.filter _ perm_middle.symm
  · intro place c' i' a' hc howner ha'
    exact h.takenOf_cons_of_owner_ne hchunks hheld hq hc howner ha' out
  · exact forall_mem_cons.mpr ⟨⟨c, i, a, hheld, hq⟩, h.out_held⟩
  · exact fun q' hq' => h.tasks_held c q' (by rw [htasks]; exact mem_cons_of_mem q hq')

lemma pushTask (h : Stored chunks p (q :: out) v) (hchunks : ChunksApart chunks) (hheld : v.Held c i a)
    (hq : q ∈ ptrsOf a i) : Stored chunks (p.setTasks c (tasksOf p c ++ [q])) out v := by
  refine h.setTasks ?_ ?_ ?_ ?_
  · intro place i' a' _ _
    refine Perm.filter _ ?_
    rw [← append_assoc]
    exact perm_append_singleton q (out ++ tasksOf p c)
  · intro place c' i' a' hc howner ha'
    exact (h.takenOf_cons_of_owner_ne hchunks hheld hq hc howner ha' out).symm
  · exact fun q' hq' => h.out_held q' (mem_cons_of_mem q hq')
  · intro q' hq'
    rcases mem_append.mp hq' with hq' | hq'
    · exact h.tasks_held c q' hq'
    · obtain rfl := mem_singleton.mp hq'
      exact ⟨i, a, hheld, hq⟩

end Queues

section Caches

lemma setNums (h : Stored chunks p out v) (c total recyclable : Nat) : Stored chunks (p.setNums c total recyclable) out v :=
  h.congr rfl (headOf_setCache fun _ => rfl) rfl rfl (tasksOf_setCache rfl)

lemma setThreadId (h : Stored chunks p out v) (c : Nat) (id : Option Nat) : Stored chunks (p.setThreadId c id) out v :=
  h.congr rfl (headOf_setCache fun _ => rfl) rfl rfl (tasksOf_setCache rfl)

lemma newCache (h : Stored chunks p out v) (hnone : ∀ i a, ¬ v.Held c i a) :
    Stored chunks (p.setCache c TLSCache.new) out v := by
  have hnil : ∀ place i, Place.owner place = some (c, i) → v.lists place = [] := by
    intro place i howner
    exact eq_nil_iff_forall_not_mem.mpr fun a ha => hnone i a ⟨place, howner, ha⟩
  have htasks : tasksOf p c = [] := by
    refine eq_nil_iff_forall_not_mem.mpr fun q hq => ?_
    obtain ⟨i, a, hheld, _⟩ := h.tasks_held c q hq
    exact hnone i a hheld
  have hheads : headOf (p.setCache c TLSCache.new) = headOf p := by
    funext place
    have hzero : ∀ place i head, Place.owner place = some (c, i) → headOf p place = some head → head = 0 := by
      intro place i head howner hhead
      exact (h.head_eq_zero_iff hhead).mpr (hnil place i howner)
    cases place with
    | central => rfl
    | full c' i => rfl
    | recyclable c' i =>
      by_cases hc : c' = c
      · subst hc
        rw [headOf, blockCache, caches_setCache_self, headOf, hzero (.recyclable c' i) i _ rfl rfl]
        rfl
      · rw [headOf, blockCache, caches_setCache_of_ne hc]
        rfl
    | available c' i =>
      by_cases hc : c' = c
      · subst hc
        rw [headOf, blockCache, caches_setCache_self, headOf, hzero (.available c' i) i _ rfl rfl]
        rfl
      · rw [headOf, blockCache, caches_setCache_of_ne hc]
        rfl
  exact h.congr rfl hheads rfl rfl (tasksOf_setCache (htasks ▸ rfl))

end Caches

lemma nodup_out (h : Stored chunks p out v) : out.Nodup := by
  refine nodup_iff_count_le_one.mpr fun q => ?_
  by_cases hq : q ∈ out
  · obtain ⟨c, i, a, hheld, hmem⟩ := h.out_held q hq
    obtain ⟨place, howner, ha⟩ := hheld
    have hspread := (h.chunkAt place c i a howner ha).spread
    have hnodup := (nodup_append'.mp (hspread.nodup_iff.mpr (nodup_ptrsOf a i))).2.1
    have hcount := nodup_iff_count_le_one.mp hnodup q
    rw [takenOf, count_filter (inChunk_of_mem_ptrsOf hmem), count_append] at hcount
    omega
  · rw [count_eq_zero_of_not_mem hq]
    exact Nat.zero_le 1

lemma tasks_eq_nil (h : Stored chunks p out v) (hused : v.usedNum c = 0) : tasksOf p c = [] := by
  refine eq_nil_iff_forall_not_mem.mpr fun q hq => ?_
  obtain ⟨i, a, hheld, hmem⟩ := h.tasks_held c q hq
  have hzero := Finset.sum_eq_zero_iff.mp hused i (Finset.mem_univ i)
  rcases h.place_of_taken hheld hmem (mem_append_right out hq) with ha | ha
  · have := length_pos_of_mem ha
    omega
  · have := length_pos_of_mem ha
    omega

end Stored

end Vesal.Proofs
