import Vesal.Proofs.PoolReturn

/-! # Threads and the caches they own -/

namespace Vesal.Proofs

open Library Option

def pendingPtr : PoolStage → Option Nat
  | .adopt (.deallocate ptr) => some ptr
  | .attach (.deallocate ptr) => some ptr
  | .putBlock ptr => some ptr
  | .push _ ptr _ => some ptr
  | _ => none

def SizeFits (size : Nat) : Prop := 0 < size ∧ size ≤ kMemoryPoolMaxAllocate

def ClassFits (size : Nat) (i : Fin kBlockNum) : Prop :=
  size ≤ kBlockSizes i ∧ ∀ j, size ≤ kBlockSizes j → kBlockSizes i ≤ kBlockSizes j

def CallFits (live : List Nat) : PoolCall → Prop
  | .allocate size => SizeFits size
  | .deallocate ptr => ptr ∈ live

def Attached (p : ChunkPool) (t c : Nat) : Prop := (p.caches c).threadId = some t

def AfterFits (p : ChunkPool) (v : PoolView) (t c : Nat) : AfterPut → Prop
  | .caller => Attached p t c
  | .getBlock size => Attached p t c ∧ SizeFits size
  | .guard => Attached p t c
  | .reset => (p.caches c).threadId = none ∧ v.usedNum c = 0

def Released (v : PoolView) (c j : Nat) : Prop := ∀ i : Fin kBlockNum, i.val < j → v.lists (.recyclable c i) = []

def StageFits (p : ChunkPool) (v : PoolView) (live : List Nat) (t c : Nat) : PoolStage → Prop
  | .idle => Attached p t c
  | .adopt _ => False
  | .attach call => CallFits live call
  | .getBlock size => Attached p t c ∧ SizeFits size
  | .takeBlock size => Attached p t c ∧ SizeFits size
  | .deferred k => AfterFits p v t c k
  | .putBlock ptr => Attached p t c ∧ ptr ∈ live
  | .push owner ptr k => Attached p t c ∧ k = .caller ∧ ptr ∈ live ∧ ∃ i a, v.Held owner i a ∧ ptr ∈ ptrsOf a i
  | .recycle j k => AfterFits p v t c k ∧ Released v c j
  | .detach => Attached p t c
  | .leave => (p.caches c).threadId = none
  | .reset j => (p.caches c).threadId = none ∧ v.usedNum c = 0 ∧ Released v c j
  | .remove => (p.caches c).threadId = none ∧ v.usedNum c = 0 ∧ Released v c kBlockNum

def ThreadFits (p : ChunkPool) (v : PoolView) (live : List Nat) (t : Nat) (thread : PoolThread) : Prop :=
  match thread.cache with
  | none => thread.stage = .idle ∨ ∃ call, thread.stage = .adopt call ∧ CallFits live call
  | some c => StageFits p v live t c thread.stage

def liveOf (r : PoolRun) : List Nat := r.live.map Prod.fst

structure PoolInv (chunks : List Nat) (r : PoolRun) (v : PoolView) : Prop where
  stored : Stored chunks r.pool (liveOf r) v
  counted : ∀ c, Counted r.pool v c
  registered : ∀ c i a, v.Held c i a → c ∈ r.pool.tlsCaches
  holder : ∀ t c, (r.threads t).cache = some c → c ∈ r.pool.tlsCaches ∧ c ∉ r.pool.orphanTlsCaches
  unique : ∀ t t' c, (r.threads t).cache = some c → (r.threads t').cache = some c → t = t'
  orphan : ∀ c ∈ r.pool.orphanTlsCaches, c ∈ r.pool.tlsCaches
  orphans_nodup : r.pool.orphanTlsCaches.Nodup
  ids : ∀ c t, c ∈ r.pool.tlsCaches → Attached r.pool t c → (r.threads t).cache = some c
  thread : ∀ t, ThreadFits r.pool v (liveOf r) t (r.threads t)
  freeing : ∀ t ptr, pendingPtr (r.threads t).stage = some ptr → ptr ∈ r.freeing
  pending_unique : ∀ t t' ptr, pendingPtr (r.threads t).stage = some ptr →
    pendingPtr (r.threads t').stage = some ptr → t = t'
  sized : ∀ b ∈ r.live, ∃ c i a, v.Held c i a ∧ b.1 ∈ ptrsOf a i ∧ ClassFits b.2 i

variable {chunks live live' : List Nat} {p p' : ChunkPool} {v v' : PoolView} {r r' : PoolRun} {t t' c c' j q : Nat}
  {stage : PoolStage} {k : AfterPut}

lemma Released.congr (h : Released v c j) (hlists : ∀ place i, Place.owner place = some (c, i) → v'.lists place = v.lists place) :
    Released v' c j := fun i hi => (hlists (.recyclable c i) i rfl).trans (h i hi)

lemma AfterFits.congr (h : AfterFits p v t c k) (hid : (p'.caches c).threadId = (p.caches c).threadId)
    (hused : k = .reset → v'.usedNum c = v.usedNum c) : AfterFits p' v' t c k := by
  cases k with
  | caller => exact hid.trans h
  | getBlock size => exact ⟨hid.trans h.1, h.2⟩
  | guard => exact hid.trans h
  | reset => exact ⟨hid.trans h.1, (hused rfl).trans h.2⟩

lemma StageFits.congr (h : StageFits p v live t c stage) (hid : (p'.caches c).threadId = (p.caches c).threadId)
    (hlists : ∀ place i, Place.owner place = some (c, i) → v'.lists place = v.lists place)
    (hlive : ∀ ptr, pendingPtr stage = some ptr → ptr ∈ live → ptr ∈ live')
    (hheld : ∀ c' i a q, v.Held c' i a → q ∈ live → q ∈ ptrsOf a i → v'.Held c' i a) :
    StageFits p' v' live' t c stage := by
  have hused := (usedNum_congr hlists).1
  cases stage with
  | idle => exact hid.trans h
  | adopt call => exact h
  | attach call =>
    cases call with
    | allocate size => exact h
    | deallocate ptr => exact hlive ptr rfl h
  | getBlock size => exact ⟨hid.trans h.1, h.2⟩
  | takeBlock size => exact ⟨hid.trans h.1, h.2⟩
  | deferred k => exact AfterFits.congr h hid fun _ => hused
  | putBlock ptr => exact ⟨hid.trans h.1, hlive ptr rfl h.2⟩
  | push owner ptr k =>
    obtain ⟨hattached, hk, hmem, i, a, hv, hptr⟩ := h
    exact ⟨hid.trans hattached, hk, hlive ptr rfl hmem, i, a, hheld owner i a ptr hv hmem hptr, hptr⟩
  | recycle j k => exact ⟨h.1.congr hid fun _ => hused, h.2.congr hlists⟩
  | detach => exact hid.trans h
  | leave => exact hid.trans h
  | reset j => exact ⟨hid.trans h.1, hused.trans h.2.1, h.2.2.congr hlists⟩
  | remove => exact ⟨hid.trans h.1, hused.trans h.2.1, h.2.2.congr hlists⟩

lemma PoolInv.live_of_pending (h : PoolInv chunks r v) (hp : pendingPtr (r.threads t).stage = some q) :
    q ∈ liveOf r := by
  have hfits := h.thread t
  unfold ThreadFits at hfits
  cases hcache : (r.threads t).cache with
  | none =>
    rw [hcache] at hfits
    rcases hfits with hidle | ⟨call, hstage, hcall⟩
    · rw [hidle] at hp
      cases hp
    · rw [hstage] at hp
      cases call with
      | allocate size => cases hp
      | deallocate ptr =>
        obtain rfl : ptr = q := some.inj hp
        exact hcall
  | some c =>
    rw [hcache] at hfits
    cases hstage : (r.threads t).stage with
    | attach call =>
      rw [hstage] at hfits hp
      cases call with
      | allocate size => cases hp
      | deallocate ptr =>
        obtain rfl : ptr = q := some.inj hp
        exact hfits
    | putBlock ptr =>
      rw [hstage] at hfits hp
      obtain rfl : ptr = q := some.inj hp
      exact hfits.2
    | push owner ptr k =>
      rw [hstage] at hfits hp
      obtain rfl : ptr = q := some.inj hp
      exact hfits.2.2.1
    | adopt call =>
      rw [hstage] at hfits
      exact hfits.elim
    | _ =>
      rw [hstage] at hp
      cases hp

structure StepLeaves (t : Nat) (r r' : PoolRun) (v v' : PoolView) : Prop where
  threads : ∀ t', t' ≠ t → r'.threads t' = r.threads t'
  caches : ∀ t' c, t' ≠ t → (r.threads t').cache = some c →
    (r'.pool.caches c).threadId = (r.pool.caches c).threadId ∧
      ∀ place i, Place.owner place = some (c, i) → v'.lists place = v.lists place
  held : ∀ c i a q, v.Held c i a → q ∈ liveOf r → q ∈ ptrsOf a i → v'.Held c i a
  live : ∀ ptr ∈ liveOf r, pendingPtr (r.threads t).stage ≠ some ptr → ptr ∈ liveOf r'
  freeing : ∀ ptr ∈ r.freeing, ptr ∈ liveOf r → pendingPtr (r.threads t).stage ≠ some ptr → ptr ∈ r'.freeing

lemma StepLeaves.thread (hleaves : StepLeaves t r r' v v') (h : PoolInv chunks r v) (ht : t' ≠ t) :
    ThreadFits r'.pool v' (liveOf r') t' (r'.threads t') := by
  have hfits := h.thread t'
  have hlive : ∀ ptr, pendingPtr (r.threads t').stage = some ptr → ptr ∈ liveOf r → ptr ∈ liveOf r' := by
    intro ptr hpending hmem
    exact hleaves.live ptr hmem fun hp => ht (h.pending_unique t' t ptr hpending hp)
  rw [hleaves.threads t' ht]
  unfold ThreadFits at hfits ⊢
  cases hcache : (r.threads t').cache with
  | none =>
    rw [hcache] at hfits
    rcases hfits with hidle | ⟨call, hstage, hcall⟩
    · exact Or.inl hidle
    · refine Or.inr ⟨call, hstage, ?_⟩
      cases call with
      | allocate size => exact hcall
      | deallocate ptr => exact hlive ptr (by rw [hstage]; rfl) hcall
  | some c =>
    rw [hcache] at hfits
    obtain ⟨hid, hlists⟩ := hleaves.caches t' c ht hcache
    exact hfits.congr hid hlists hlive hleaves.held

lemma PoolInv.of_leaves (h : PoolInv chunks r v) (hleaves : StepLeaves t r r' v v')
    (hstored : Stored chunks r'.pool (liveOf r') v') (hcounted : ∀ c, Counted r'.pool v' c)
    (hregistered : ∀ c i a, v'.Held c i a → c ∈ r'.pool.tlsCaches)
    (hholder : ∀ t c, (r'.threads t).cache = some c → c ∈ r'.pool.tlsCaches ∧ c ∉ r'.pool.orphanTlsCaches)
    (hunique : ∀ t t' c, (r'.threads t).cache = some c → (r'.threads t').cache = some c → t = t')
    (horphan : ∀ c ∈ r'.pool.orphanTlsCaches, c ∈ r'.pool.tlsCaches) (hnodup : r'.pool.orphanTlsCaches.Nodup)
    (hids : ∀ c t, c ∈ r'.pool.tlsCaches → Attached r'.pool t c → (r'.threads t).cache = some c)
    (hthread : ThreadFits r'.pool v' (liveOf r') t (r'.threads t))
    (hpending : ∀ ptr, pendingPtr (r'.threads t).stage = some ptr →
      ptr ∈ r'.freeing ∧ (pendingPtr (r.threads t).stage = some ptr ∨ ptr ∉ r.freeing))
    (hsized : ∀ b ∈ r'.live, b ∈ r.live ∨ ∃ c i a, v'.Held c i a ∧ b.1 ∈ ptrsOf a i ∧ ClassFits b.2 i) :
    PoolInv chunks r' v' := by
  have hother : ∀ t' ptr, t' ≠ t → pendingPtr (r'.threads t').stage = some ptr →
      pendingPtr (r.threads t').stage = some ptr := by
    intro t' ptr ht hp
    rwa [hleaves.threads t' ht] at hp
  have hclash : ∀ t' ptr, t' ≠ t → pendingPtr (r'.threads t').stage = some ptr →
      pendingPtr (r'.threads t).stage ≠ some ptr := by
    intro t' ptr ht hp hp'
    have hold := hother t' ptr ht hp
    rcases (hpending ptr hp').2 with hsame | hfresh
    · exact ht (h.pending_unique t' t ptr hold hsame)
    · exact hfresh (h.freeing t' ptr hold)
  refine
    { stored := hstored
      counted := hcounted
      registered := hregistered
      holder := hholder
      unique := hunique
      orphan := horphan
      orphans_nodup := hnodup
      ids := hids
      thread := ?_
      freeing := ?_
      pending_unique := ?_
      sized := ?_ }
  · intro t'
    by_cases ht : t' = t
    · rw [ht]
      exact hthread
    · exact hleaves.thread h ht
  · intro t' ptr hp
    by_cases ht : t' = t
    · exact (hpending ptr (ht ▸ hp)).1
    · have hold := hother t' ptr ht hp
      exact hleaves.freeing ptr (h.freeing t' ptr hold) (h.live_of_pending hold)
        fun hp' => ht (h.pending_unique t' t ptr hold hp')
  · intro t₁ t₂ ptr h₁ h₂
    by_cases ht₁ : t₁ = t
    · by_cases ht₂ : t₂ = t
      · rw [ht₁, ht₂]
      · exact absurd (ht₁ ▸ h₁) (hclash t₂ ptr ht₂ h₂)
    · by_cases ht₂ : t₂ = t
      · exact absurd (ht₂ ▸ h₂) (hclash t₁ ptr ht₁ h₁)
      · exact h.pending_unique t₁ t₂ ptr (hother t₁ ptr ht₁ h₁) (hother t₂ ptr ht₂ h₂)
  · intro b hb
    rcases hsized b hb with hold | hnew
    · obtain ⟨c, i, a, hv, hptr, hclass⟩ := h.sized b hold
      exact ⟨c, i, a, hleaves.held c i a b.1 hv (List.mem_map_of_mem hold) hptr, hptr, hclass⟩
    · exact hnew

lemma PoolInv.advance (h : PoolInv chunks r v) (hcache : (r.threads t).cache = some c)
    (hthreads : ∀ t', t' ≠ t → r'.threads t' = r.threads t') (hcache' : (r'.threads t).cache = some c)
    (htls : r'.pool.tlsCaches = r.pool.tlsCaches) (horphans : r'.pool.orphanTlsCaches = r.pool.orphanTlsCaches)
    (hids : ∀ c', c' ≠ c → (r'.pool.caches c').threadId = (r.pool.caches c').threadId)
    (hid : ∀ t', Attached r'.pool t' c → t' = t)
    (hlists : ∀ place c' i, Place.owner place = some (c', i) → c' ≠ c → v'.lists place = v.lists place)
    (hheld : ∀ c i a q, v.Held c i a → q ∈ liveOf r → q ∈ ptrsOf a i → v'.Held c i a)
    (hlive : ∀ ptr ∈ liveOf r, pendingPtr (r.threads t).stage ≠ some ptr → ptr ∈ liveOf r')
    (hfreeing : ∀ ptr ∈ r.freeing, ptr ∈ liveOf r → pendingPtr (r.threads t).stage ≠ some ptr → ptr ∈ r'.freeing)
    (hstored : Stored chunks r'.pool (liveOf r') v') (hcounted : ∀ c, Counted r'.pool v' c)
    (hfits : StageFits r'.pool v' (liveOf r') t c (r'.threads t).stage)
    (hpending : ∀ ptr, pendingPtr (r'.threads t).stage = some ptr →
      ptr ∈ r'.freeing ∧ (pendingPtr (r.threads t).stage = some ptr ∨ ptr ∉ r.freeing))
    (hsized : ∀ b ∈ r'.live, b ∈ r.live ∨ ∃ c i a, v'.Held c i a ∧ b.1 ∈ ptrsOf a i ∧ ClassFits b.2 i) :
    PoolInv chunks r' v' := by
  have hcaches : ∀ t', (r'.threads t').cache = (r.threads t').cache := by
    intro t'
    by_cases ht : t' = t
    · rw [ht, hcache, hcache']
    · rw [hthreads t' ht]
  refine h.of_leaves (t := t) ⟨hthreads, ?_, hheld, hlive, hfreeing⟩ hstored hcounted ?_ ?_ ?_ ?_ ?_ ?_ ?_ hpending hsized
  · intro t' c' ht hc'
    have hne : c' ≠ c := by
      rintro rfl
      exact ht (h.unique t' t c' hc' hcache)
    exact ⟨hids c' hne, fun place i howner => hlists place c' i howner hne⟩
  · rintro c' i a ⟨place, howner, ha⟩
    rw [htls]
    by_cases hc : c' = c
    · rw [hc]
      exact (h.holder t c hcache).1
    · rw [hlists place c' i howner hc] at ha
      exact h.registered c' i a ⟨place, howner, ha⟩
  · intro t' c' hc'
    rw [hcaches] at hc'
    rw [htls, horphans]
    exact h.holder t' c' hc'
  · intro t₁ t₂ c' h₁ h₂
    rw [hcaches] at h₁ h₂
    exact h.unique t₁ t₂ c' h₁ h₂
  · rw [htls, horphans]
    exact h.orphan
  · rw [horphans]
    exact h.orphans_nodup
  · intro c' t' hmem hattached
    rw [hcaches]
    by_cases hc : c' = c
    · subst hc
      rw [hid t' hattached]
      exact hcache
    · rw [htls] at hmem
      exact h.ids c' t' hmem ((hids c' hc).symm.trans hattached)
  · unfold ThreadFits
    rw [hcache']
    exact hfits

end Vesal.Proofs
