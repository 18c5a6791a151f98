import Vesal.Proofs.PoolOwners

/-! # The steps of the threads -/

namespace Vesal.Proofs

open Library List Function PoolRun ChunkPool

variable {chunks : List Nat} {p p' : ChunkPool} {v v' : PoolView} {r r' : PoolRun} {t c j q a size ptr : Nat}
  {i : Fin kBlockNum} {k : AfterPut} {opt : MemoryPoolInitOption} {call : PoolCall}

def Safe (chunks : List Nat) (step : Except PoolFault PoolRun) : Prop :=
  ∃ r' v', step = .ok r' ∧ PoolInv chunks r' v'

/-- A thread is not at the loop of `Recycle` or `Reset`, where the counters of its cache are late. -/
def Settled : PoolStage → Prop
  | .recycle _ _ => False
  | .reset _ => False
  | _ => True

structure RunBooks (r : PoolRun) (v : PoolView) : Prop where
  booked : Booked r.pool v
  parted : Parted v
  exact : ∀ c, (∀ t, (r.threads t).cache = some c → Settled (r.threads t).stage) → Exact r.pool v c
  caches_nodup : r.pool.tlsCaches.Nodup

def Follows (chunks : List Nat) (r : PoolRun) (v : PoolView) (r' : PoolRun) : Prop :=
  ∃ v', PoolInv chunks r' v' ∧ (RunBooks r v → RunBooks r' v')

def SafeFrom (chunks : List Nat) (r : PoolRun) (v : PoolView) (step : Except PoolFault PoolRun) : Prop :=
  ∃ r', step = .ok r' ∧ Follows chunks r v r'

lemma Touches.refl (c : Nat) (out : List Nat) (p : ChunkPool) (v : PoolView) : Touches c out p p v v :=
  ⟨fun _ _ => rfl, fun _ _ _ _ _ => rfl, rfl, rfl, rfl, fun _ _ _ _ hv _ _ => hv⟩

variable {stage' : PoolStage}

lemma PoolInv.touch (h : PoolInv chunks r v) (hcache : (r.threads t).cache = some c)
    (htouches : Touches c (liveOf r) r.pool p' v v') {returned' : Nat} {live' : List (Nat × Nat)}
    {freeing' : List Nat} (hstored : Stored chunks p' (live'.map Prod.fst) v') (hcounted : Counted p' v' c)
    (hlive : ∀ ptr ∈ liveOf r, pendingPtr (r.threads t).stage ≠ some ptr → ptr ∈ live'.map Prod.fst)
    (hfreeing : ∀ ptr ∈ r.freeing, ptr ∈ liveOf r → pendingPtr (r.threads t).stage ≠ some ptr → ptr ∈ freeing')
    (hfits : StageFits p' v' (live'.map Prod.fst) t c stage') (hpending : ∀ ptr, pendingPtr stage' = some ptr →
      ptr ∈ freeing' ∧ (pendingPtr (r.threads t).stage = some ptr ∨ ptr ∉ r.freeing))
    (hsized : ∀ b ∈ live', b ∈ r.live ∨ ∃ c i a, v'.Held c i a ∧ b.1 ∈ ptrsOf a i ∧ ClassFits b.2 i) :
    PoolInv chunks ⟨p', Function.update r.threads t ⟨stage', (r.threads t).cache, returned'⟩, live', freeing'⟩ v' := by
  have hthread : Function.update r.threads t ⟨stage', (r.threads t).cache, returned'⟩ t =
      ⟨stage', (r.threads t).cache, returned'⟩ := by simp
  refine h.advance (c := c) hcache ?_ ?_ htouches.tlsCaches htouches.orphans ?_ ?_ htouches.lists htouches.held hlive
    hfreeing hstored ?_ ?_ ?_ hsized
  · intro t' ht
    simp [ht]
  · dsimp only
    rw [hthread]
    exact hcache
  · intro c' hc
    rw [htouches.caches c' hc]
  · intro t' hattached
    have hattached' : Attached r.pool t' c := htouches.threadId.symm.trans hattached
    exact h.unique t' t c (h.ids c t' (h.holder t c hcache).1 hattached') hcache
  · intro c'
    by_cases hc : c' = c
    · rw [hc]
      exact hcounted
    · exact htouches.counted hc (h.counted c')
  · dsimp only
    rw [hthread]
    exact hfits
  · dsimp only
    rw [hthread]
    exact hpending

lemma PoolInv.stageFits {stage : PoolStage} (h : PoolInv chunks r v) (hcache : (r.threads t).cache = some c)
    (hstage : (r.threads t).stage = stage) : StageFits r.pool v (liveOf r) t c stage := by
  have hfits := h.thread t
  unfold ThreadFits at hfits
  rw [hcache, hstage] at hfits
  exact hfits

lemma PoolInv.goto (h : PoolInv chunks r v) (hcache : (r.threads t).cache = some c)
    (hfits : StageFits r.pool v (liveOf r) t c stage')
    (hpending : ∀ ptr, pendingPtr stage' = some ptr → pendingPtr (r.threads t).stage = some ptr) :
    PoolInv chunks (r.goto t stage') v := by
  refine h.touch hcache (Touches.refl c (liveOf r) r.pool v) h.stored (h.counted c) (fun _ hptr _ => hptr)
    (fun _ hptr _ _ => hptr) hfits ?_ fun _ hb => Or.inl hb
  intro ptr hp
  have hold := hpending ptr hp
  exact ⟨h.freeing t ptr hold, Or.inl hold⟩

section Books

lemma Keeps.refl (c : Nat) (p : ChunkPool) (v : PoolView) : Keeps c p p v v := ⟨fun h => h, fun h => h, fun h => h⟩

lemma RunBooks.own (hb : RunBooks r v) (h : PoolInv chunks r v) (hcache : (r.threads t).cache = some c)
    (hsettled : Settled (r.threads t).stage) : Exact r.pool v c := by
  apply hb.exact c
  intro t' hc
  rw [h.unique t' t c hc hcache]
  exact hsettled

variable {stage' : PoolStage}

lemma RunBooks.touch (hb : RunBooks r v) (hcache : (r.threads t).cache = some c) {out : List Nat}
    (htouches : Touches c out r.pool p' v v') {returned' : Nat} {live' : List (Nat × Nat)} {freeing' : List Nat}
    (hbooked : Booked p' v') (hparted : Parted v') (hexact : Settled stage' → Exact p' v' c) :
    RunBooks ⟨p', Function.update r.threads t ⟨stage', (r.threads t).cache, returned'⟩, live', freeing'⟩ v' where
  booked := hbooked
  parted := hparted
  exact c' hsettled := by
    dsimp only at hsettled ⊢
    by_cases hc : c' = c
    · subst hc
      apply hexact
      have hself := hsettled t
      rw [update_self] at hself
      exact hself hcache
    · apply htouches.exact hc
      apply hb.exact c'
      intro t' hc'
      have ht : t' ≠ t := by
        rintro rfl
        exact hc (Option.some.inj (hc'.symm.trans hcache))
      have hother := hsettled t'
      rw [update_of_ne ht] at hother
      exact hother hc'
  caches_nodup := by
    rw [htouches.tlsCaches]
    exact hb.caches_nodup

lemma RunBooks.frame (hb : RunBooks r v) (hthreads : ∀ t', t' ≠ t → r'.threads t' = r.threads t')
    (hsettled : Settled (r.threads t).stage) (hbooked : Booked r'.pool v)
    (hexact : ∀ c, Exact r.pool v c → Exact r'.pool v c) (hnodup : r'.pool.tlsCaches.Nodup) : RunBooks r' v where
  booked := hbooked
  parted := hb.parted
  exact c hsettled' := by
    refine hexact c (hb.exact c fun t' hc => ?_)
    by_cases ht : t' = t
    · rw [ht]
      exact hsettled
    · rw [← hthreads t' ht] at hc ⊢
      exact hsettled' t' hc
  caches_nodup := hnodup

lemma PoolInv.follows (h : PoolInv chunks r' v) (hthreads : ∀ t', t' ≠ t → r'.threads t' = r.threads t')
    (hsettled : Settled (r.threads t).stage) (hcaches : r'.pool.caches = r.pool.caches)
    (hnodup : r.pool.tlsCaches.Nodup → r'.pool.tlsCaches.Nodup) : Follows chunks r v r' := by
  refine ⟨v, h, fun hb => hb.frame hthreads hsettled (hb.booked.congr ?_) ?_ (hnodup hb.caches_nodup)⟩
  · intro c i
    rw [blockCache, hcaches, blockCache]
  · intro c hexact
    rw [Exact, hcaches]
    exact hexact

lemma threads_goto_of_ne {t' : Nat} (ht : t' ≠ t) : (r.goto t stage').threads t' = r.threads t' := by
  simp [PoolRun.goto, setThread, ht]

lemma PoolInv.follows_goto (h : PoolInv chunks r v) (hcache : (r.threads t).cache = some c)
    (hsettled : Settled (r.threads t).stage) (hfits : StageFits r.pool v (liveOf r) t c stage')
    (hpending : ∀ ptr, pendingPtr stage' = some ptr → pendingPtr (r.threads t).stage = some ptr) :
    Follows chunks r v (r.goto t stage') :=
  (h.goto hcache hfits hpending).follows (fun _ ht => threads_goto_of_ne ht) hsettled rfl fun hnodup => hnodup

end Books

section Allocating

lemma PoolInv.getBlock (h : PoolInv chunks r v) (hchunks : ChunksApart chunks) (hfetch : 0 < opt.fetchChunkNum)
    (hcache : (r.threads t).cache = some c) (hattached : Attached r.pool t c) (hsize : SizeFits size)
    (hsettled : Settled (r.threads t).stage) (drained : Bool) :
    SafeFrom chunks r v (r.getBlock opt t c size drained) := by
  obtain ⟨hindex, hroom, hleast⟩ := getBlockIndex_spec hsize.1 hsize.2
  unfold PoolRun.getBlock
  rw [dif_pos hindex]
  dsimp only
  split
  · refine ⟨_, rfl, h.follows_goto hcache hsettled ⟨hattached, hsize⟩ ?_⟩
    intro ptr hp
    cases hp
  · rcases h.stored.getBlock hchunks opt hfetch c ⟨getBlockIndex size, hindex⟩ with
      hnull | ⟨ptr, p', v', a, hget, hptr, hheld, hstored, htouches, hkeeps, hparted⟩
    · rw [hnull]
      have hrefl := Touches.refl c (liveOf r) r.pool v
      refine ⟨_, rfl, v, ?_, fun hb => hb.touch hcache hrefl hb.booked hb.parted fun _ => hb.own h hcache hsettled⟩
      refine h.touch hcache hrefl h.stored (h.counted c) (fun _ hptr _ => hptr)
        (fun _ hptr _ _ => hptr) hattached ?_ fun _ hb => Or.inl hb
      intro ptr hp
      cases hp
    · rw [hget]
      have hne : ptr ≠ 0 := by
        obtain ⟨k, _, rfl⟩ := mem_ptrsOf.mp hptr
        simp [blockHeaderSize]
      have hlive : (if ptr = 0 then r.live else (ptr, size) :: r.live) = (ptr, size) :: r.live := if_neg hne
      refine ⟨_, rfl, v', ?_, fun hb => hb.touch hcache htouches (hkeeps.booked hb.booked) (hparted hb.parted)
        fun _ => hkeeps.exact (hb.own h hcache hsettled)⟩
      refine h.touch hcache htouches ?_ (hkeeps.counted (h.counted c)) ?_ (fun _ hptr _ _ => hptr)
        (htouches.threadId.trans hattached) ?_ ?_
      · rw [hlive]
        exact hstored
      · intro ptr' hptr' _
        rw [hlive]
        exact mem_cons_of_mem ptr hptr'
      · intro ptr' hp
        cases hp
      · intro b hb
        rw [hlive] at hb
        rcases mem_cons.mp hb with rfl | hb
        · exact Or.inr ⟨c, _, a, hheld, hptr, hroom, hleast⟩
        · exact Or.inl hb

end Allocating

section Freeing

lemma liveOf_dropLive (r : PoolRun) (q : Nat) : liveOf (r.dropLive q) = (liveOf r).erase q := by
  unfold liveOf dropLive
  induction r.live with
  | nil => rfl
  | cons b live ih =>
    by_cases hb : b.1 = q
    · simp [hb]
    · have hbeq : (b.1 == q) = false := by simp [hb]
      rw [eraseP_cons_of_neg (by simp [hb]), map_cons, map_cons, erase_cons_tail (by simp [hb]), ih]

lemma ne_of_not_pending {stage : PoolStage} (hstage : pendingPtr stage = some q ∨ q ∉ liveOf r)
    (hptr : ptr ∈ liveOf r) (hp : pendingPtr stage ≠ some ptr) : ptr ≠ q := by
  rintro rfl
  rcases hstage with hstage | hnot
  · exact hp hstage
  · exact hnot hptr

variable {live : List Nat}

lemma afterFits_resume (h : AfterFits p v t c k) : StageFits p v live t c k.resume := by
  cases k with
  | _ => exact h

lemma afterFits_drained (h : AfterFits p v t c k) : StageFits p v live t c k.drained := by
  cases k with
  | reset => exact ⟨h.1, h.2, fun i hi => absurd hi (Nat.not_lt_zero _)⟩
  | _ => exact h

lemma pendingPtr_resume (k : AfterPut) : pendingPtr k.resume = none := by
  cases k <;> rfl

lemma pendingPtr_drained (k : AfterPut) : pendingPtr k.drained = none := by
  cases k <;> rfl

lemma PoolInv.returnBlock (h : PoolInv chunks r v) (hchunks : ChunksApart chunks) (hcache : (r.threads t).cache = some c)
    (hstored : Stored chunks p (q :: (liveOf r).erase q) v) (htouches : Touches c (liveOf r) r.pool p v v)
    (hkeeps : Keeps c r.pool p v v) (hheld : v.Held c i a) (hq : q ∈ ptrsOf a i) (hafter : AfterFits p v t c k)
    (opt : MemoryPoolInitOption) (hk : k ≠ .reset) (hstage : pendingPtr (r.threads t).stage = some q ∨ q ∉ liveOf r)
    (hsettled : Settled (r.threads t).stage) :
    Follows chunks r v (({ r with pool := p.returnBlock c q }.dropLive q).goto t
      (if recycleDue opt ((p.returnBlock c q).caches c) then .recycle 0 k else k.resume)) := by
  obtain ⟨v', hstored', htouches', hkeeps', hparted⟩ := hstored.returnBlock hchunks hheld hq
  have hlive : liveOf ({ r with pool := p.returnBlock c q }.dropLive q) = (liveOf r).erase q :=
    liveOf_dropLive { r with pool := p.returnBlock c q } q
  have htouch := htouches.trans (htouches' (liveOf r)) fun _ hq => hq
  have hafter' : AfterFits (p.returnBlock c q) v' t c k :=
    hafter.congr (htouches' []).threadId fun hreset => absurd hreset hk
  have hkept := hkeeps.trans hkeeps'
  refine ⟨v', h.touch hcache htouch ?_ (hkept.counted (h.counted c)) ?_ ?_ ?_ ?_ ?_,
    fun hb => hb.touch hcache htouch (hkept.booked hb.booked) (hparted hb.parted)
      fun _ => hkept.exact (hb.own h hcache hsettled)⟩
  · show Stored chunks _ (liveOf ({ r with pool := p.returnBlock c q }.dropLive q)) v'
    rw [hlive]
    exact hstored'
  · intro ptr hptr hp
    show ptr ∈ liveOf ({ r with pool := p.returnBlock c q }.dropLive q)
    rw [hlive]
    exact (mem_erase_of_ne (ne_of_not_pending hstage hptr hp)).mpr hptr
  · intro ptr hptr hmem hp
    exact (mem_erase_of_ne (ne_of_not_pending hstage hmem hp)).mpr hptr
  · split
    · exact ⟨hafter', fun i hi => absurd hi (Nat.not_lt_zero _)⟩
    · exact afterFits_resume hafter'
  · intro ptr hp
    split at hp
    · cases hp
    · rw [pendingPtr_resume] at hp
      cases hp
  · intro b hb
    exact Or.inl (mem_of_mem_eraseP hb)

lemma threadId_setTasks (p : ChunkPool) (c : Nat) (tasks : List Nat) (c' : Nat) :
    ((p.setTasks c tasks).caches c').threadId = (p.caches c').threadId := proj_setCache TLSCache.threadId c' rfl

lemma sameNums_setTasks (p : ChunkPool) (c : Nat) (tasks : List Nat) (c' : Nat) : SameNums p (p.setTasks c tasks) c' :=
  ⟨proj_setCache TLSCache.totalChunkNum c' rfl, proj_setCache TLSCache.recyclableChunkNum c' rfl⟩

lemma blockCache_setTasks (p : ChunkPool) (c : Nat) (tasks : List Nat) (c' : Nat) (i : Fin kBlockNum) :
    (p.setTasks c tasks).blockCache c' i = p.blockCache c' i := proj_setCache (·.blockCaches i) c' rfl

lemma keeps_setTasks (p : ChunkPool) (c : Nat) (tasks : List Nat) : Keeps c p (p.setTasks c tasks) v v where
  counted h := h.congr (sameNums_setTasks p c tasks c) rfl rfl
  exact h := h.congr (sameNums_setTasks p c tasks c) rfl
  booked h := h.congr (blockCache_setTasks p c tasks)

section

variable (h : PoolInv chunks r v)
include h

lemma PoolInv.eq_of_attached (hcache : (r.threads t).cache = some c) {c' : Nat} (hmem : c' ∈ r.pool.tlsCaches)
    (hattached : Attached r.pool t c') : c' = c := by
  have hcache' := h.ids c' t hmem hattached
  rw [hcache] at hcache'
  exact (Option.some.inj hcache').symm

lemma PoolInv.putBlock (hchunks : ChunksApart chunks) (hcache : (r.threads t).cache = some c)
    (hstage : (r.threads t).stage = .putBlock q) : SafeFrom chunks r v (r.putBlock opt t c q .caller) := by
  obtain ⟨hattached, hq⟩ := h.stageFits hcache hstage
  obtain ⟨owner, i, a, hheld, hptr⟩ := h.stored.out_held q hq
  obtain ⟨hchunk, hcacheOf⟩ := h.stored.headers_of_held hheld hptr
  have hpos := hchunks.pos a (h.stored.mem_chunks_of_held hheld)
  have hmem := h.registered owner i a hheld
  have hpending : pendingPtr (r.threads t).stage = some q := by rw [hstage]; rfl
  have hsettled : Settled (r.threads t).stage := by rw [hstage]; trivial
  unfold PoolRun.putBlock
  dsimp only
  rw [hchunk, hcacheOf, if_neg hpos.ne', if_neg (not_not.mpr hmem)]
  split
  · refine ⟨_, rfl, h.follows_goto hcache hsettled ⟨hattached, rfl, hq, i, a, hheld, hptr⟩ ?_⟩
    intro ptr hp
    rw [hpending]
    exact hp
  · rename_i hsame
    obtain rfl : owner = c := h.eq_of_attached hcache hmem ((not_not.mp hsame).trans hattached)
    have hstored : Stored chunks r.pool (q :: (liveOf r).erase q) v := h.stored.perm (perm_cons_erase hq).symm
    exact ⟨_, rfl, h.returnBlock (k := .caller) hchunks hcache hstored (Touches.refl owner (liveOf r) r.pool v)
      (Keeps.refl owner r.pool v) hheld hptr hattached opt (by simp) (Or.inl hpending) hsettled⟩

lemma PoolInv.push (hchunks : ChunksApart chunks) (hcache : (r.threads t).cache = some c) {owner : Nat}
    (hstage : (r.threads t).stage = .push owner q k) : SafeFrom chunks r v (r.push t owner q k) := by
  obtain ⟨hattached, rfl, hq, i, a, hheld, hptr⟩ := h.stageFits hcache hstage
  have hmem := h.registered owner i a hheld
  have hpending : pendingPtr (r.threads t).stage = some q := by rw [hstage]; rfl
  obtain ⟨p', hp'⟩ : ∃ p', p' = r.pool.setTasks owner (tasksOf r.pool owner ++ [q]) := ⟨_, rfl⟩
  have hids : ∀ c', (p'.caches c').threadId = (r.pool.caches c').threadId := hp' ▸ threadId_setTasks r.pool owner _
  have hstored : Stored chunks p' ((liveOf r).erase q) v := by
    rw [hp']
    exact (h.stored.perm (perm_cons_erase hq).symm).pushTask hchunks hheld hptr
  have hlive : liveOf ({ r with pool := p' }.dropLive q) = (liveOf r).erase q := liveOf_dropLive { r with pool := p' } q
  have hcaches : ∀ c i, p'.blockCache c i = r.pool.blockCache c i := hp' ▸ blockCache_setTasks r.pool owner _
  have hnums : ∀ c, SameNums r.pool p' c := hp' ▸ sameNums_setTasks r.pool owner _
  refine ⟨({ r with pool := p' }.dropLive q).goto t .idle, ?_, v, ?_, fun hb => hb.frame (t := t) ?_ ?_
    (hb.booked.congr hcaches) (fun c hexact => hexact.congr (hnums c) rfl) ?_⟩
  · unfold PoolRun.push
    rw [if_neg (not_not.mpr hmem), hp']
    rfl
  · have hthread : ((({ r with pool := p' }.dropLive q).goto t .idle).threads t) =
        { r.threads t with stage := .idle } := by simp [PoolRun.goto, setThread, dropLive]
    refine h.advance hcache ?_ ?_ (by rw [hp']; rfl) (by rw [hp']; rfl) (fun c' _ => hids c') ?_ (fun _ _ _ _ _ => rfl)
      (fun _ _ _ _ hv _ _ => hv) ?_ ?_ ?_ ?_ ?_ ?_ ?_
    · intro t' ht
      simp [PoolRun.goto, setThread, dropLive, ht]
    · rw [hthread]
      exact hcache
    · intro t' hattached'
      have hold : Attached r.pool t' c := (hids c).symm.trans hattached'
      exact Option.some.inj (hold.symm.trans hattached)
    · intro ptr hmem' hp
      show ptr ∈ liveOf ({ r with pool := p' }.dropLive q)
      rw [hlive]
      exact (mem_erase_of_ne (ne_of_not_pending (Or.inl hpending) hmem' hp)).mpr hmem'
    · intro ptr hfree hmem' hp
      exact (mem_erase_of_ne (ne_of_not_pending (Or.inl hpending) hmem' hp)).mpr hfree
    · show Stored chunks p' (liveOf ({ r with pool := p' }.dropLive q)) v
      rw [hlive]
      exact hstored
    · intro c'
      exact (h.counted c').congr (hnums c') rfl rfl
    · rw [hthread]
      exact (hids c).trans hattached
    · intro ptr hp
      rw [hthread] at hp
      cases hp
    · intro b hb
      exact Or.inl (mem_of_mem_eraseP hb)
  · intro t' ht
    exact threads_goto_of_ne ht
  · rw [hstage]
    trivial
  · rw [hp']
    exact hb.caches_nodup

lemma PoolInv.deferred (hchunks : ChunksApart chunks) (hcache : (r.threads t).cache = some c)
    (hstage : (r.threads t).stage = .deferred k) : SafeFrom chunks r v (r.deferred opt t c k) := by
  have hafter := h.stageFits hcache hstage
  have hsettled : Settled (r.threads t).stage := by rw [hstage]; trivial
  unfold PoolRun.deferred
  cases htasks : (r.pool.caches c).threadDeallocateTasks with
  | nil =>
    refine ⟨_, rfl, h.follows_goto hcache hsettled (afterFits_drained hafter) ?_⟩
    intro ptr hp
    rw [pendingPtr_drained] at hp
    cases hp
  | cons task tasks =>
    have hk : k ≠ .reset := by
      rintro rfl
      have hnil : tasksOf r.pool c = [] := h.stored.tasks_eq_nil hafter.2
      rw [tasksOf, htasks] at hnil
      cases hnil
    obtain ⟨i, a, hheld, hptr⟩ := h.stored.tasks_held c task (by rw [tasksOf, htasks]; exact mem_cons_self)
    have hstored := h.stored.popTask hchunks htasks
    have hnot : task ∉ liveOf r := (nodup_cons.mp hstored.nodup_out).1
    obtain ⟨hchunk, hcacheOf⟩ := hstored.headers_of_held hheld hptr
    have hpos := hchunks.pos a (h.stored.mem_chunks_of_held hheld)
    have hmem : c ∈ (r.pool.setTasks c tasks).tlsCaches := (h.holder t c hcache).1
    have hids := threadId_setTasks r.pool c tasks
    have htouches : Touches c (liveOf r) r.pool (r.pool.setTasks c tasks) v v :=
      ⟨fun c' hc => caches_setCache_of_ne hc, fun _ _ _ _ _ => rfl, hids c, rfl, rfl, fun _ _ _ _ hv _ _ => hv⟩
    dsimp only
    unfold PoolRun.putBlock
    dsimp only
    rw [hchunk, hcacheOf, if_neg hpos.ne']
    dsimp only
    rw [if_neg (not_not.mpr hmem), if_neg (not_not.mpr rfl)]
    rw [← erase_of_not_mem hnot] at hstored
    exact ⟨_, rfl, h.returnBlock hchunks hcache hstored htouches (keeps_setTasks r.pool c tasks) hheld hptr
      (AfterFits.congr hafter (hids c) fun _ => rfl) opt hk (Or.inr hnot) hsettled⟩

end

end Freeing

section Releasing

lemma Released.succ (h : Released v c j) (hj : j < kBlockNum) :
    Released (v.release c ⟨j, hj⟩) c (j + 1) := by
  intro i hi
  by_cases heq : i = ⟨j, hj⟩
  · rw [heq]
    exact PoolView.release_lists_self
  · have hlt : i.val < j := by
      have hne : i.val ≠ j := fun hval => heq (Fin.ext hval)
      omega
    rw [PoolView.release_lists_of_ne (by simpa using heq) (by simp)]
    exact h i hlt

lemma Released.recyclableNum_eq (h : Released v c j) (hj : kBlockNum ≤ j) : v.recyclableNum c = 0 := by
  refine Finset.sum_eq_zero fun i _ => ?_
  rw [h i (by omega)]
  rfl

lemma PoolInv.setNums (h : PoolInv chunks r v) (hcache : (r.threads t).cache = some c) {total recyclable : Nat}
    (htotal : total = recyclable + v.usedNum c) (heq : recyclable = v.recyclableNum c) {stage' : PoolStage}
    (hfits : ∀ p', (p'.caches c).threadId = (r.pool.caches c).threadId → StageFits p' v (liveOf r) t c stage')
    (hpending : pendingPtr stage' = none) :
    Follows chunks r v ({ r with pool := r.pool.setNums c total recyclable }.goto t stage') := by
  obtain ⟨hnum, hrec⟩ := nums_setNums r.pool c total recyclable
  have hid : ((r.pool.setNums c total recyclable).caches c).threadId = (r.pool.caches c).threadId := by
    rw [ChunkPool.setNums, caches_setCache_self]
  have htouches : Touches c (liveOf r) r.pool (r.pool.setNums c total recyclable) v v :=
    ⟨fun c' hc => caches_setCache_of_ne hc, fun _ _ _ _ _ => rfl, hid, rfl, rfl, fun _ _ _ _ hv _ _ => hv⟩
  refine ⟨v, h.touch hcache htouches (h.stored.setNums c total recyclable) ?_ (fun _ hptr _ => hptr)
    (fun _ hptr _ _ => hptr) (hfits _ hid) ?_ fun _ hb => Or.inl hb, fun hb => hb.touch hcache htouches ?_ hb.parted ?_⟩
  · exact ⟨by rw [hnum, hrec, htotal], by rw [hrec, heq]⟩
  · intro ptr hp
    rw [hpending] at hp
    cases hp
  · exact hb.booked.congr fun c' i => blockCache_setNums_any r.pool c total recyclable c' i
  · intro _
    rw [Exact, hrec, heq]

lemma PoolInv.recycle (h : PoolInv chunks r v) (hcache : (r.threads t).cache = some c)
    (hstage : (r.threads t).stage = .recycle j k) : SafeFrom chunks r v (r.recycle t c j k) := by
  obtain ⟨hafter, hreleased⟩ := h.stageFits hcache hstage
  unfold PoolRun.recycle
  split
  · rename_i hj
    obtain ⟨p₁, hput, hrelease⟩ := h.stored.release c ⟨j, hj⟩
    unfold recycleClass
    dsimp only
    rw [hput]
    obtain ⟨hstored, htouches, hcounted, hbooked⟩ := hrelease
      { r.pool.blockCache c ⟨j, hj⟩ with
        recyclableChunks := 0
        totalSize := (r.pool.blockCache c ⟨j, hj⟩).totalSize - (r.pool.blockCache c ⟨j, hj⟩).recyclableSize
        recyclableSize := 0 } rfl rfl
    refine ⟨_, rfl, _, h.touch hcache htouches hstored (hcounted (h.counted c)) (fun _ hptr _ => hptr)
      (fun _ hptr _ _ => hptr)
      ⟨hafter.congr htouches.threadId fun _ => PoolView.usedNum_release c, hreleased.succ hj⟩ ?_ fun _ hb => Or.inl hb,
      fun hb => hb.touch hcache htouches ?_ (hb.parted.release c ⟨j, hj⟩) fun hsettled => hsettled.elim⟩
    · intro ptr hp
      cases hp
    · exact hbooked hb.booked (h.stored.classBooks_recycle (hb.booked c ⟨j, hj⟩))
  · rename_i hj
    have hzero := hreleased.recyclableNum_eq (Nat.le_of_not_lt hj)
    have htotal := (h.counted c).total
    refine ⟨_, rfl, h.setNums hcache ?_ hzero.symm ?_ (pendingPtr_resume k)⟩
    · omega
    · intro p' hid
      exact afterFits_resume (AfterFits.congr hafter hid fun _ => rfl)

lemma PoolInv.reset (h : PoolInv chunks r v) (hcache : (r.threads t).cache = some c)
    (hstage : (r.threads t).stage = .reset j) : SafeFrom chunks r v (r.reset t c j) := by
  obtain ⟨hdetached, hused, hreleased⟩ := h.stageFits hcache hstage
  unfold PoolRun.reset
  split
  · rename_i hj
    obtain ⟨p₁, hput, hrelease⟩ := h.stored.release c ⟨j, hj⟩
    have hzero := Finset.sum_eq_zero_iff.mp hused ⟨j, hj⟩ (Finset.mem_univ _)
    have hnone : v.lists (.available c ⟨j, hj⟩) = [] := eq_nil_of_length_eq_zero (by omega)
    have hfull : v.lists (.full c ⟨j, hj⟩) = [] := eq_nil_of_length_eq_zero (by omega)
    have hhead := (h.stored.head_eq_zero_iff (show headOf r.pool (.available c ⟨j, hj⟩) = some _ from rfl)).mpr hnone
    unfold resetClass
    dsimp only
    rw [hput]
    obtain ⟨hstored, htouches, hcounted, hbooked⟩ :=
      hrelease ⟨0, 0, (r.pool.blockCache c ⟨j, hj⟩).blockSize, 0, 0, 0⟩ rfl hhead.symm
    refine ⟨_, rfl, _, h.touch hcache htouches hstored (hcounted (h.counted c)) (fun _ hptr _ => hptr)
      (fun _ hptr _ _ => hptr) ⟨htouches.threadId.trans hdetached, ?_, hreleased.succ hj⟩ ?_ fun _ hb => Or.inl hb,
      fun hb => hb.touch hcache htouches ?_ (hb.parted.release c ⟨j, hj⟩) fun hsettled => hsettled.elim⟩
    · rw [PoolView.usedNum_release]
      exact hused
    · intro ptr hp
      cases hp
    · exact hbooked hb.booked (Stored.classBooks_reset (hb.booked c ⟨j, hj⟩).blockSize hnone hfull)
  · rename_i hj
    have hzero := hreleased.recyclableNum_eq (Nat.le_of_not_lt hj)
    refine ⟨_, rfl, h.setNums hcache (by rw [hused]) hzero.symm ?_ rfl⟩
    intro p' hid
    exact ⟨hid.trans hdetached, hused, fun i _ => hreleased i (by omega)⟩

end Releasing

section Caching

variable {id : Option Nat}

lemma threadId_setThreadId_of_ne {c' : Nat} (hc : c' ≠ c) :
    ((p.setThreadId c id).caches c').threadId = (p.caches c').threadId := by
  rw [setThreadId, caches_setCache_of_ne hc]

lemma threadId_setThreadId_self : ((p.setThreadId c id).caches c).threadId = id := by
  rw [setThreadId, caches_setCache_self]

lemma sameNums_setThreadId (p : ChunkPool) (c : Nat) (id : Option Nat) (c' : Nat) : SameNums p (p.setThreadId c id) c' :=
  ⟨proj_setCache TLSCache.totalChunkNum c' rfl, proj_setCache TLSCache.recyclableChunkNum c' rfl⟩

lemma blockCache_setThreadId (p : ChunkPool) (c : Nat) (id : Option Nat) (c' : Nat) (i : Fin kBlockNum) :
    (p.setThreadId c id).blockCache c' i = p.blockCache c' i := proj_setCache (·.blockCaches i) c' rfl

lemma PoolInv.setThreadId (h : PoolInv chunks r v) (hcache : (r.threads t).cache = some c)
    (hid : ∀ t', id = some t' → t' = t) (hsettled : Settled (r.threads t).stage) {stage' : PoolStage}
    (hfits : StageFits (r.pool.setThreadId c id) v (liveOf r) t c stage')
    (hpending : ∀ ptr, pendingPtr stage' = some ptr → pendingPtr (r.threads t).stage = some ptr) :
    Follows chunks r v ({ r with pool := r.pool.setThreadId c id }.goto t stage') := by
  have hthread : (({ r with pool := r.pool.setThreadId c id }.goto t stage').threads t) =
      { r.threads t with stage := stage' } := by simp [PoolRun.goto, setThread]
  refine ⟨v, h.advance hcache ?_ ?_ rfl rfl (fun c' hc => threadId_setThreadId_of_ne hc) ?_ (fun _ _ _ _ _ => rfl)
    (fun _ _ _ _ hv _ _ => hv) (fun _ hptr _ => hptr) (fun _ hptr _ _ => hptr) (h.stored.setThreadId c id) ?_ ?_ ?_
    (fun _ hb => Or.inl hb), fun hb => hb.frame (fun _ ht => threads_goto_of_ne ht) hsettled
    (hb.booked.congr (blockCache_setThreadId r.pool c id))
    (fun c' hexact => hexact.congr (sameNums_setThreadId r.pool c id c') rfl) hb.caches_nodup⟩
  · intro t' ht
    exact threads_goto_of_ne ht
  · rw [hthread]
    exact hcache
  · intro t' hattached
    exact hid t' (threadId_setThreadId_self.symm.trans hattached)
  · intro c'
    exact (h.counted c').congr (sameNums_setThreadId r.pool c id c') rfl rfl
  · rw [hthread]
    exact hfits
  · intro ptr hp
    rw [hthread] at hp
    exact ⟨h.freeing t ptr (hpending ptr hp), Or.inl (hpending ptr hp)⟩

lemma PoolInv.exchange (h : PoolInv chunks r v) {thread : PoolThread} (hr' : r'.threads = Function.update r.threads t thread)
    (hlive : r'.live = r.live) (hfreeing : ∀ ptr ∈ r.freeing, ptr ∈ r'.freeing)
    (hcaches : ∀ t' c, t' ≠ t → (r.threads t').cache = some c →
      (r'.pool.caches c).threadId = (r.pool.caches c).threadId)
    (hstored : Stored chunks r'.pool (liveOf r) v) (hcounted : ∀ c, Counted r'.pool v c)
    (hregistered : ∀ c i a, v.Held c i a → c ∈ r'.pool.tlsCaches)
    (hholder : ∀ t' c, t' ≠ t → (r.threads t').cache = some c →
      c ∈ r'.pool.tlsCaches ∧ c ∉ r'.pool.orphanTlsCaches ∧ thread.cache ≠ some c)
    (hown : ∀ c, thread.cache = some c → c ∈ r'.pool.tlsCaches ∧ c ∉ r'.pool.orphanTlsCaches)
    (horphan : ∀ c ∈ r'.pool.orphanTlsCaches, c ∈ r'.pool.tlsCaches) (hnodup : r'.pool.orphanTlsCaches.Nodup)
    (hids : ∀ c t', c ∈ r'.pool.tlsCaches → Attached r'.pool t' c → t' ≠ t ∧ (r.threads t').cache = some c)
    (hthread : ThreadFits r'.pool v (liveOf r) t thread)
    (hpending : ∀ ptr, pendingPtr thread.stage = some ptr →
      ptr ∈ r'.freeing ∧ (pendingPtr (r.threads t).stage = some ptr ∨ ptr ∉ r.freeing)) :
    PoolInv chunks r' v := by
  have hself : r'.threads t = thread := by rw [hr']; simp
  have hother : ∀ t', t' ≠ t → r'.threads t' = r.threads t' := by
    intro t' ht
    rw [hr']
    simp [ht]
  have hliveOf : liveOf r' = liveOf r := by rw [liveOf, hlive, liveOf]
  refine h.of_leaves (t := t) ⟨hother, ?_, fun _ _ _ _ hv _ _ => hv, ?_, ?_⟩ (hliveOf ▸ hstored) hcounted hregistered
    ?_ ?_ horphan hnodup ?_ ?_ ?_ ?_
  · intro t' c ht hc
    exact ⟨hcaches t' c ht hc, fun _ _ _ => rfl⟩
  · intro ptr hptr _
    rw [hliveOf]
    exact hptr
  · intro ptr hptr _ _
    exact hfreeing ptr hptr
  · intro t' c hc
    by_cases ht : t' = t
    · rw [ht, hself] at hc
      exact hown c hc
    · rw [hother t' ht] at hc
      exact ⟨(hholder t' c ht hc).1, (hholder t' c ht hc).2.1⟩
  · intro t₁ t₂ c h₁ h₂
    by_cases ht₁ : t₁ = t
    · by_cases ht₂ : t₂ = t
      · rw [ht₁, ht₂]
      · rw [hother t₂ ht₂] at h₂
        rw [ht₁, hself] at h₁
        exact absurd h₁ (hholder t₂ c ht₂ h₂).2.2
    · rw [hother t₁ ht₁] at h₁
      by_cases ht₂ : t₂ = t
      · rw [ht₂, hself] at h₂
        exact absurd h₂ (hholder t₁ c ht₁ h₁).2.2
      · rw [hother t₂ ht₂] at h₂
        exact h.unique t₁ t₂ c h₁ h₂
  · intro c t' hmem hattached
    obtain ⟨ht, hc⟩ := hids c t' hmem hattached
    rw [hother t' ht]
    exact hc
  · rw [hself, hliveOf]
    exact hthread
  · intro ptr hp
    rw [hself] at hp
    exact hpending ptr hp
  · intro b hb
    rw [hlive] at hb
    exact Or.inl hb

/-- The thread `t` gives up its cache, which no thread has from then on. -/
lemma PoolInv.giveUp (h : PoolInv chunks r v) (hcache : (r.threads t).cache = some c)
    (hsettled : Settled (r.threads t).stage) (hdetached : (r.pool.caches c).threadId = none)
    {caches orphans : List Nat} (hheld : ∀ c' i a, v.Held c' i a → c' ∈ caches)
    (hsub : caches.Sublist r.pool.tlsCaches) (hcaches : ∀ c' ≠ c, c' ∈ r.pool.tlsCaches → c' ∈ caches)
    (hothers : ∀ c' ≠ c, c' ∈ orphans → c' ∈ r.pool.orphanTlsCaches) (horphans : ∀ c' ∈ orphans, c' ∈ caches)
    (hnodup : orphans.Nodup) :
    Follows chunks r v ({ r with
      pool := { r.pool with tlsCaches := caches, orphanTlsCaches := orphans } }.setThread t
        { r.threads t with stage := .idle, cache := none }) := by
  refine PoolInv.follows ?_ (fun _ ht => update_of_ne ht _ _) hsettled rfl fun hnodup => hnodup.sublist hsub
  refine h.exchange rfl rfl (fun _ hptr => hptr) (fun _ _ _ _ => rfl) ?_ ?_ hheld ?_ ?_ horphans hnodup ?_ ?_ ?_
  · exact h.stored.congr rfl rfl rfl rfl rfl
  · exact fun c' => (h.counted c').congr ⟨rfl, rfl⟩ rfl rfl
  · intro t' c' ht hc'
    obtain ⟨hmem', hnot'⟩ := h.holder t' c' hc'
    have hne : c' ≠ c := by
      rintro rfl
      exact ht (h.unique t' t c' hc' hcache)
    exact ⟨hcaches c' hne hmem', fun hin => hnot' (hothers c' hne hin), by simp⟩
  · intro c' hc'
    cases hc'
  · intro c' t' hmem' hattached
    have hc' := h.ids c' t' (hsub.subset hmem') hattached
    refine ⟨?_, hc'⟩
    rintro rfl
    rw [hcache] at hc'
    obtain rfl := Option.some.inj hc'
    have hnone : (r.pool.caches c).threadId = some t' := hattached
    rw [hdetached] at hnone
    cases hnone
  · exact Or.inl rfl
  · intro ptr hp
    cases hp

lemma PoolInv.leave (h : PoolInv chunks r v) (hcache : (r.threads t).cache = some c)
    (hstage : (r.threads t).stage = .leave) : Follows chunks r v (r.leave t c) := by
  have hdetached : (r.pool.caches c).threadId = none := h.stageFits hcache hstage
  obtain ⟨hmem, hnot⟩ := h.holder t c hcache
  have hsettled : Settled (r.threads t).stage := by rw [hstage]; trivial
  unfold PoolRun.leave
  split
  · rename_i hrecyclable
    have hnums := beq_iff_eq.mp hrecyclable
    have htotal := (h.counted c).total
    refine h.follows_goto hcache hsettled ⟨hdetached, by omega⟩ ?_
    intro ptr hp
    cases hp
  · refine h.giveUp hcache hsettled hdetached h.registered (Sublist.refl _) (fun _ _ hc' => hc') ?_ ?_ ?_
    · intro c' hne hc'
      simpa [hne] using hc'
    · exact forall_mem_append.mpr ⟨h.orphan, forall_mem_singleton.mpr hmem⟩
    · refine nodup_append'.mpr ⟨h.orphans_nodup, nodup_singleton c, ?_⟩
      intro c' hc' hc''
      rw [mem_singleton.mp hc''] at hc'
      exact hnot hc'

lemma Released.not_held (h : Released v c kBlockNum) (hused : v.usedNum c = 0) : ¬ v.Held c i a := by
  have hzero := Finset.sum_eq_zero_iff.mp hused i (Finset.mem_univ i)
  rintro ⟨place, howner, ha⟩
  have hpos := length_pos_of_mem ha
  cases place with
  | central => cases howner
  | recyclable c' i' =>
    cases howner
    rw [h i i.isLt] at ha
    cases ha
  | available c' i' =>
    cases howner
    omega
  | full c' i' =>
    cases howner
    omega

lemma PoolInv.remove (h : PoolInv chunks r v) (hcache : (r.threads t).cache = some c)
    (hstage : (r.threads t).stage = .remove) : Follows chunks r v (r.remove t c) := by
  obtain ⟨hdetached, hused, hreleased⟩ := h.stageFits hcache hstage
  obtain ⟨hmem, hnot⟩ := h.holder t c hcache
  have hsettled : Settled (r.threads t).stage := by rw [hstage]; trivial
  unfold PoolRun.remove
  refine h.giveUp hcache hsettled hdetached ?_ erase_sublist (fun _ hne => (mem_erase_of_ne hne).mpr)
    (fun _ _ hc' => hc') ?_ h.orphans_nodup
  · intro c' i a hheld
    have hne : c' ≠ c := by
      rintro rfl
      exact hreleased.not_held hused hheld
    exact (mem_erase_of_ne hne).mpr (h.registered c' i a hheld)
  · intro c' hc'
    have hne : c' ≠ c := by
      rintro rfl
      exact hnot hc'
    exact (mem_erase_of_ne hne).mpr (h.orphan c' hc')

variable {fresh : Nat}

lemma booked_newCache {caches : List Nat} (hnone : ∀ i a, ¬ v.Held fresh i a) (h : Booked p v) :
    Booked { p.setCache fresh TLSCache.new with tlsCaches := caches } v := by
  intro c i
  show ClassBooks ((p.setCache fresh TLSCache.new).blockCache c i) v c i
  by_cases hc : c = fresh
  · subst hc
    rw [blockCache, caches_setCache_self]
    apply classBooks_empty rfl
    exact eq_nil_iff_forall_not_mem.mpr fun a ha => hnone i a (mem_heldChunks.mp ha)
  · rw [blockCache, caches_setCache_of_ne hc]
    exact h c i

lemma nums_newCache {caches : List Nat} (hnone : ∀ i a, ¬ v.Held fresh i a) (c : Nat) :
    (Counted p v c → Counted { p.setCache fresh TLSCache.new with tlsCaches := caches } v c) ∧
      (Exact p v c → Exact { p.setCache fresh TLSCache.new with tlsCaches := caches } v c) := by
  obtain ⟨p', hp'⟩ : ∃ p', p' = { p.setCache fresh TLSCache.new with tlsCaches := caches } := ⟨_, rfl⟩
  rw [← hp']
  by_cases hc : c = fresh
  · subst hc
    have hnew : p'.caches c = TLSCache.new := by rw [hp']; exact caches_setCache_self
    have hlists : ∀ place i, Place.owner place = some (c, i) → v.lists place = [] := by
      intro place i howner
      exact eq_nil_iff_forall_not_mem.mpr fun a ha => hnone i a ⟨place, howner, ha⟩
    have hused : v.usedNum c = 0 := Finset.sum_eq_zero fun i _ => by
      rw [hlists (.available c i) i rfl, hlists (.full c i) i rfl]
      rfl
    have hrecyclable : v.recyclableNum c = 0 := Finset.sum_eq_zero fun i _ => by
      rw [hlists (.recyclable c i) i rfl]
      rfl
    refine ⟨fun _ => ⟨?_, ?_⟩, fun _ => ?_⟩
    · rw [hnew, hused]
      rfl
    · rw [hrecyclable]
      exact Nat.zero_le _
    · rw [Exact, hnew, hrecyclable]
      rfl
  · have hsame : SameNums p p' c := by
      rw [SameNums, hp']
      exact ⟨congrArg _ (caches_setCache_of_ne hc), congrArg _ (caches_setCache_of_ne hc)⟩
    exact ⟨fun h => h.congr hsame rfl rfl, fun h => h.congr hsame rfl⟩

lemma PoolInv.other_of_uncached (h : PoolInv chunks r v) (hcache : (r.threads t).cache = none) {t' : Nat}
    (hmem : c ∈ r.pool.tlsCaches) (hattached : Attached r.pool t' c) : t' ≠ t ∧ (r.threads t').cache = some c := by
  have hc := h.ids c t' hmem hattached
  refine ⟨?_, hc⟩
  rintro rfl
  rw [hcache] at hc
  cases hc

lemma PoolInv.adopt (h : PoolInv chunks r v) (hcache : (r.threads t).cache = none)
    (hstage : (r.threads t).stage = .adopt call) (hcall : CallFits (liveOf r) call)
    (hfresh : fresh ∉ r.pool.tlsCaches) : Follows chunks r v (r.adoptOrNewTlsCache t fresh call) := by
  have hsettled : Settled (r.threads t).stage := by rw [hstage]; trivial
  have hpending : pendingPtr (r.threads t).stage = pendingPtr (.attach call) := by
    rw [hstage]
    cases call <;> rfl
  unfold adoptOrNewTlsCache
  cases hlast : r.pool.orphanTlsCaches.getLast? with
  | none =>
    have hnone : ∀ i a, ¬ v.Held fresh i a := fun i a hheld => hfresh (h.registered fresh i a hheld)
    have hother : ∀ c, c ∈ r.pool.tlsCaches → c ≠ fresh := fun c hmem heq => hfresh (heq ▸ hmem)
    refine ⟨v, h.exchange rfl rfl (fun _ hptr => hptr) ?_ ?_ (fun c => (nums_newCache hnone c).1 (h.counted c)) ?_ ?_ ?_ ?_
        h.orphans_nodup ?_ hcall ?_,
      fun hb => hb.frame (fun _ ht => update_of_ne ht _ _) hsettled (booked_newCache hnone hb.booked)
        (fun c => (nums_newCache hnone c).2) (nodup_cons.mpr ⟨hfresh, hb.caches_nodup⟩)⟩
    · intro t' c _ hc
      show ((r.pool.setCache fresh TLSCache.new).caches c).threadId = _
      rw [caches_setCache_of_ne (hother c (h.holder t' c hc).1)]
    · exact (h.stored.newCache hnone).congr rfl rfl rfl rfl rfl
    · intro c i a hheld
      exact mem_cons_of_mem fresh (h.registered c i a hheld)
    · intro t' c _ hc
      obtain ⟨hmem, hnot⟩ := h.holder t' c hc
      exact ⟨mem_cons_of_mem fresh hmem, hnot, fun heq => hother c hmem (Option.some.inj heq).symm⟩
    · intro c hc
      obtain rfl := Option.some.inj hc
      exact ⟨mem_cons_self, fun hmem => hfresh (h.orphan fresh hmem)⟩
    · intro c hc
      exact mem_cons_of_mem fresh (h.orphan c hc)
    · intro c t' hmem hattached
      have hattached : ((r.pool.setCache fresh TLSCache.new).caches c).threadId = some t' := hattached
      by_cases hc : c = fresh
      · rw [hc, caches_setCache_self] at hattached
        cases hattached
      · rw [caches_setCache_of_ne hc] at hattached
        rcases mem_cons.mp hmem with heq | hmem
        · exact absurd heq hc
        · exact h.other_of_uncached hcache hmem hattached
    · intro ptr hp
      rw [← hpending] at hp
      exact ⟨h.freeing t ptr hp, Or.inl hp⟩
  | some c =>
    have hsplit := dropLast_append_getLast? c hlast
    have hmem : c ∈ r.pool.orphanTlsCaches := mem_of_getLast? hlast
    have hnodup := h.orphans_nodup
    rw [← hsplit] at hnodup
    obtain ⟨hnodup', _, hdisj⟩ := nodup_append'.mp hnodup
    have hsub : ∀ c' ∈ r.pool.orphanTlsCaches.dropLast, c' ∈ r.pool.orphanTlsCaches :=
      fun c' hc' => mem_of_mem_dropLast hc'
    refine PoolInv.follows ?_ (fun _ ht => update_of_ne ht _ _) hsettled rfl fun hnodup => hnodup
    refine h.exchange rfl rfl (fun _ hptr => hptr) (fun _ _ _ _ => rfl) ?_ ?_ h.registered ?_ ?_ ?_ hnodup' ?_ hcall ?_
    · exact h.stored.congr rfl rfl rfl rfl rfl
    · exact fun c' => (h.counted c').congr ⟨rfl, rfl⟩ rfl rfl
    · intro t' c' _ hc'
      obtain ⟨hmem', hnot'⟩ := h.holder t' c' hc'
      refine ⟨hmem', fun hin => hnot' (hsub c' hin), fun heq => ?_⟩
      obtain rfl := Option.some.inj heq
      exact hnot' hmem
    · intro c' hc'
      obtain rfl := Option.some.inj hc'
      exact ⟨h.orphan c hmem, fun hin => hdisj hin (mem_singleton_self c)⟩
    · exact fun c' hc' => h.orphan c' (hsub c' hc')
    · exact fun c' t' hmem' hattached => h.other_of_uncached hcache hmem' hattached
    · intro ptr hp
      rw [← hpending] at hp
      exact ⟨h.freeing t ptr hp, Or.inl hp⟩

end Caching

section Calls

section

variable (h : PoolInv chunks r v)
include h

lemma PoolInv.idle_cases (hidle : (r.threads t).stage = .idle) :
    (r.threads t).cache = none ∨ ∃ c, (r.threads t).cache = some c ∧ Attached r.pool t c := by
  have hfits := h.thread t
  unfold ThreadFits at hfits
  cases hcache : (r.threads t).cache with
  | none => exact Or.inl rfl
  | some c =>
    rw [hcache, hidle] at hfits
    exact Or.inr ⟨c, rfl, hfits⟩

variable {freeing' : List Nat} {ev : PoolEvent}

lemma PoolInv.uncached (hcache : (r.threads t).cache = none) {thread : PoolThread} (hthread : thread.cache = none)
    (hfits : thread.stage = .idle ∨ ∃ call, thread.stage = .adopt call ∧ CallFits (liveOf r) call)
    (hfreeing : ∀ ptr ∈ r.freeing, ptr ∈ freeing') (hpending : ∀ ptr, pendingPtr thread.stage = some ptr →
      ptr ∈ freeing' ∧ (pendingPtr (r.threads t).stage = some ptr ∨ ptr ∉ r.freeing)) :
    PoolInv chunks ⟨r.pool, Function.update r.threads t thread, r.live, freeing'⟩ v := by
  refine h.exchange rfl rfl hfreeing (fun _ _ _ _ => rfl) h.stored h.counted h.registered ?_ ?_ h.orphan h.orphans_nodup
    ?_ ?_ hpending
  · intro t' c _ hc
    obtain ⟨hmem, hnot⟩ := h.holder t' c hc
    exact ⟨hmem, hnot, by rw [hthread]; simp⟩
  · intro c hc
    rw [hthread] at hc
    cases hc
  · exact fun c t' hmem hattached => h.other_of_uncached hcache hmem hattached
  · unfold ThreadFits
    rw [hthread]
    exact hfits

lemma PoolInv.enter (hidle : (r.threads t).stage = .idle) (hfreeing : ∀ ptr ∈ r.freeing, ptr ∈ freeing')
    (hcall : CallFits (liveOf r) call) (hfresh : ∀ ptr, call = .deallocate ptr → ptr ∈ freeing' ∧ ptr ∉ r.freeing) :
    Follows chunks r v ({ r with freeing := freeing' }.enter t call) := by
  have hsettled : Settled (r.threads t).stage := by rw [hidle]; trivial
  unfold PoolRun.enter
  dsimp only
  rcases h.idle_cases hidle with hcache | ⟨c, hcache, hattached⟩
  · rw [hcache]
    refine PoolInv.follows ?_ (fun _ ht => threads_goto_of_ne ht) hsettled rfl fun hnodup => hnodup
    refine h.uncached hcache hcache (Or.inr ⟨call, rfl, hcall⟩) hfreeing ?_
    intro ptr hp
    cases call with
    | allocate size => cases hp
    | deallocate ptr' =>
      obtain rfl := Option.some.inj hp
      exact ⟨(hfresh _ rfl).1, Or.inr (hfresh _ rfl).2⟩
  · rw [hcache]
    refine PoolInv.follows ?_ (fun _ ht => threads_goto_of_ne ht) hsettled rfl fun hnodup => hnodup
    refine h.touch hcache (Touches.refl c (liveOf r) r.pool v) h.stored (h.counted c) (fun _ hptr _ => hptr)
      (fun ptr hptr _ _ => hfreeing ptr hptr) ?_ ?_ fun _ hb => Or.inl hb
    · cases call with
      | allocate size => exact ⟨hattached, hcall⟩
      | deallocate ptr => exact ⟨hattached, hcall⟩
    · intro ptr hp
      cases call with
      | allocate size => cases hp
      | deallocate ptr' =>
        obtain rfl := Option.some.inj hp
        exact ⟨(hfresh _ rfl).1, Or.inr (hfresh _ rfl).2⟩

lemma PoolInv.refuse (hidle : (r.threads t).stage = .idle) (size : Nat) :
    Follows chunks r v (r.giveBlock t size 0) := by
  have hsettled : Settled (r.threads t).stage := by rw [hidle]; trivial
  refine PoolInv.follows ?_ (fun _ ht => update_of_ne ht _ _) hsettled rfl fun hnodup => hnodup
  have hnone : ∀ ptr, pendingPtr PoolStage.idle = some ptr →
      ptr ∈ r.freeing ∧ (pendingPtr (r.threads t).stage = some ptr ∨ ptr ∉ r.freeing) := by
    intro ptr hp
    cases hp
  rcases h.idle_cases hidle with hcache | ⟨c, hcache, hattached⟩
  · exact h.uncached hcache hcache (Or.inl rfl) (fun _ hptr => hptr) hnone
  · exact h.touch hcache (Touches.refl c (liveOf r) r.pool v) h.stored (h.counted c) (fun _ hptr _ => hptr)
      (fun _ hptr _ _ => hptr) hattached hnone fun _ hb => Or.inl hb

lemma PoolInv.advance_safe (hchunks : ChunksApart chunks) (hfetch : 0 < opt.fetchChunkNum)
    (hcache : (r.threads t).cache = some c) (hidle : (r.threads t).stage ≠ .idle) :
    SafeFrom chunks r v (r.advance opt t c) := by
  have hfits := h.thread t
  unfold ThreadFits at hfits
  rw [hcache] at hfits
  dsimp only at hfits
  unfold PoolRun.advance
  cases hstage : (r.threads t).stage with
  | idle => exact absurd hstage hidle
  | adopt call =>
    rw [hstage] at hfits
    exact hfits.elim
  | attach call =>
    rw [hstage] at hfits
    have hstart : ∀ ptr, pendingPtr call.start = some ptr → pendingPtr (r.threads t).stage = some ptr := by
      intro ptr hp
      rw [hstage]
      cases call <;> exact hp
    have hsettled : Settled (r.threads t).stage := by rw [hstage]; trivial
    refine ⟨_, rfl, h.setThreadId hcache (fun t' heq => (Option.some.inj heq).symm) hsettled ?_ hstart⟩
    have hattached : Attached (r.pool.setThreadId c (some t)) t c := threadId_setThreadId_self
    cases call with
    | allocate size => exact ⟨hattached, hfits⟩
    | deallocate ptr => exact ⟨hattached, hfits⟩
  | getBlock size =>
    rw [hstage] at hfits
    exact h.getBlock hchunks hfetch hcache hfits.1 hfits.2 (by rw [hstage]; trivial) false
  | takeBlock size =>
    rw [hstage] at hfits
    exact h.getBlock hchunks hfetch hcache hfits.1 hfits.2 (by rw [hstage]; trivial) true
  | deferred k => exact h.deferred hchunks hcache hstage
  | putBlock ptr => exact h.putBlock hchunks hcache hstage
  | push owner ptr k => exact h.push hchunks hcache hstage
  | recycle j k => exact h.recycle hcache hstage
  | detach =>
    have hsettled : Settled (r.threads t).stage := by rw [hstage]; trivial
    refine ⟨_, rfl, h.setThreadId hcache (fun _ heq => by cases heq) hsettled threadId_setThreadId_self ?_⟩
    intro ptr hp
    cases hp
  | leave => exact ⟨_, rfl, h.leave hcache hstage⟩
  | reset j => exact h.reset hcache hstage
  | remove => exact ⟨_, rfl, h.remove hcache hstage⟩

/-- Every event that is allowed succeeds and keeps the invariant and the books. -/
theorem PoolInv.step_follows (hchunks : ChunksApart chunks) (hfetch : 0 < opt.fetchChunkNum)
    (hallowed : poolAllowed r ev = true) : SafeFrom chunks r v (poolStep opt r ev) := by
  have hsame : Follows chunks r v r := ⟨v, h, fun hb => hb⟩
  cases ev with
  | allocate t size =>
    have hidle : (r.threads t).stage = .idle := by simpa [poolAllowed] using hallowed
    simp only [poolStep, hidle, ne_eq, not_true_eq_false, if_false]
    split
    · exact ⟨_, rfl, h.refuse hidle size⟩
    · split
      · exact ⟨_, rfl, h.refuse hidle size⟩
      · rename_i hmax hzero
        refine ⟨_, rfl, h.enter hidle (fun _ hptr => hptr) ⟨Nat.pos_of_ne_zero hzero, Nat.le_of_not_lt hmax⟩ ?_⟩
        intro ptr heq
        cases heq
  | deallocate t ptr =>
    simp only [poolAllowed, Bool.and_eq_true, Bool.or_eq_true, beq_iff_eq, any_eq_true,
      Bool.not_eq_true', contains_eq_mem, decide_eq_false_iff_not] at hallowed
    obtain ⟨hidle, hptr⟩ := hallowed
    simp only [poolStep, hidle, ne_eq, not_true_eq_false, if_false]
    split
    · exact ⟨r, rfl, hsame⟩
    · rename_i hzero
      rcases hptr with hptr | ⟨⟨b, hb, hptr⟩, hfresh⟩
      · exact absurd hptr hzero
      · refine ⟨_, rfl, h.enter hidle (fun _ hptr => mem_cons_of_mem ptr hptr) ?_ ?_⟩
        · exact hptr ▸ mem_map_of_mem hb
        · intro ptr' heq
          obtain rfl := PoolCall.deallocate.inj heq
          exact ⟨mem_cons_self, hfresh⟩
  | exit t =>
    have hidle : (r.threads t).stage = .idle := by simpa [poolAllowed] using hallowed
    simp only [poolStep, hidle, ne_eq, not_true_eq_false, if_false]
    rcases h.idle_cases hidle with hcache | ⟨c, hcache, hattached⟩
    · rw [hcache]
      exact ⟨r, rfl, hsame⟩
    · rw [hcache]
      refine ⟨_, rfl, h.follows_goto hcache (by rw [hidle]; trivial) hattached ?_⟩
      intro ptr hp
      cases hp
  | adopt t fresh =>
    cases hstage : (r.threads t).stage with
    | adopt call =>
      have hfits := h.thread t
      unfold ThreadFits at hfits
      cases hcache : (r.threads t).cache with
      | some c =>
        rw [hcache, hstage] at hfits
        exact hfits.elim
      | none =>
        rw [hcache, hstage] at hfits
        rcases hfits with hidle | ⟨call', heq, hcall⟩
        · cases hidle
        · obtain rfl := PoolStage.adopt.inj heq
          have hfresh : fresh ∉ r.pool.tlsCaches := by simpa [poolAllowed, hstage] using hallowed
          refine ⟨_, ?_, h.adopt hcache hstage hcall hfresh⟩
          simp only [poolStep, hstage]
    | _ => simp [poolAllowed, hstage] at hallowed
  | advance t =>
    have hfits := h.thread t
    unfold ThreadFits at hfits
    cases hcache : (r.threads t).cache with
    | none =>
      rw [hcache] at hfits
      rcases hfits with hidle | ⟨call, hstage, _⟩
      · simp [poolAllowed, hidle] at hallowed
      · simp [poolAllowed, hstage] at hallowed
    | some c =>
      simp only [poolStep, hcache]
      refine h.advance_safe hchunks hfetch hcache ?_
      intro hidle
      simp [poolAllowed, hidle] at hallowed

/-- Every event that is allowed succeeds and keeps the invariant. -/
theorem PoolInv.step (hchunks : ChunksApart chunks) (hfetch : 0 < opt.fetchChunkNum)
    (hallowed : poolAllowed r ev = true) : Safe chunks (poolStep opt r ev) := by
  obtain ⟨r', hstep, v', hinv, _⟩ := h.step_follows hchunks hfetch hallowed
  exact ⟨r', v', hstep, hinv⟩

end

end Calls

end Vesal.Proofs
