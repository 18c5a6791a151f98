import Vesal.Codec
import Vesal.Proofs.InFlightRing

/-! # Accepted requests, their results and their memory -/

namespace Vesal.Proofs

open List Function InFlight

variable {π κ R : Type} [IORequest R]

structure StoresMemory (m : RequestMeta π) (r : R) : Prop where
  numBlocks : m.srcNumBlocks = (IORequest.src r).length
  block : ∀ i b, (IORequest.src r)[i]? = some b → m.srcBlocks i = b
  dst : m.dst = IORequest.dst r

structure Stores (userCtx : π → Nat) (m : RequestMeta π) (r : R) : Prop extends StoresMemory m r where
  ctx : userCtx m.info = IORequest.ctx r

structure SameRequest (m m' : RequestMeta π) : Prop where
  srcBlocks : m'.srcBlocks = m.srcBlocks
  srcNumBlocks : m'.srcNumBlocks = m.srcNumBlocks
  dst : m'.dst = m.dst
  info : m'.info = m.info

lemma SameRequest.refl (m : RequestMeta π) : SameRequest m m := ⟨rfl, rfl, rfl, rfl⟩

variable {r : R}

variable {userCtx : π → Nat} {size : RingSize} {s' : InFlight π κ} {done : List (StatusCode × Nat)}

lemma SameRequest.stores {m m' : RequestMeta π} (h : SameRequest m m') (hm : Stores userCtx m r) :
    Stores userCtx m' r where
  numBlocks := h.srcNumBlocks.trans hm.numBlocks
  block i b hb := by
    rw [h.srcBlocks]
    exact hm.block i b hb
  dst := h.dst.trans hm.dst
  ctx := by
    rw [h.info]
    exact hm.ctx

lemma storesMemory_storeMemory (m : RequestMeta π) (r : R) :
    StoresMemory (m.storeMemory (IORequest.src r) (IORequest.dst r)) r where
  numBlocks := rfl
  block i b hb := by simp [RequestMeta.storeMemory, hb]
  dst := rfl

lemma sameRequest_invalidated (s : InFlight π κ) (slot a : Nat) :
    SameRequest (s.metas a) ((invalidated s slot).metas a) := by
  by_cases heq : a = slot
  · subst heq
    simp only [invalidated, InFlight.setMeta, update_self]
    exact ⟨rfl, rfl, rfl, rfl⟩
  · simp only [invalidated, InFlight.setMeta, update_of_ne heq]
    exact ⟨rfl, rfl, rfl, rfl⟩

lemma sameRequest_cleanUpReqData [CallbackContext κ] (dev : DmaUnit) (slot : Option Nat) (c a : Nat)
    (s : InFlight π κ) : SameRequest (s.metas a) ((s.cleanUpReqData dev slot (some c)).metas a) := by
  have hreset : ∀ s : InFlight π κ, (s.resetCb dev c).metas = s.metas :=
    fun s => resetCb_proj (·.metas) (fun _ _ _ _ => rfl) dev c s
  cases slot with
  | none =>
    simp only [cleanUpReqData, hreset]
    exact SameRequest.refl _
  | some slot =>
    simp only [cleanUpReqData, hreset]
    unfold InFlight.dropMeta
    split
    · exact sameRequest_invalidated s slot a
    · exact SameRequest.refl _

structure Books (π κ R : Type) where
  inFlight : InFlight π κ
  timers : List (TimeoutContext Nat)
  accepted : List R
  done : List (StatusCode × Nat)

/-- A step of the books. A guarded step takes no slot that a free timer points to, gives a
timeout only to a request whose timer expired, and does not hide that it did. -/
inductive BookStep (userCtx : π → Nat) (guarded : Prop) : Books π κ R → Books π κ R → Prop
  | keep (b : Books π κ R) (s' : InFlight π κ)
      (hmetas : ∀ slot, SameRequest (b.inFlight.metas slot) (s'.metas slot))
      (hfree : s'.freeTimers.timers = b.inFlight.freeTimers.timers)
      (hdeleted : s'.deleted = b.inFlight.deleted) :
      BookStep userCtx guarded b { b with inFlight := s' }
  | write (b : Books π κ R) (slot : Nat) (m : RequestMeta π)
      (hslot : ∀ t ∈ b.timers, t.timerArg ≠ slot)
      (hguard : guarded → ∀ t ∈ b.inFlight.freeTimers.timers, t.timerArg.slot ≠ slot) :
      BookStep userCtx guarded b { b with inFlight := b.inFlight.setMeta slot m }
  | accept (b : Books π κ R) (t : TimeoutContext Nat) (r : R)
      (hr : Stores userCtx (b.inFlight.metas t.timerArg) r) :
      BookStep userCtx guarded b
        { b with timers := b.timers ++ [t], accepted := b.accepted ++ [r] }
  | finish (b : Books π κ R) (t : TimeoutContext Nat) (ts : List (TimeoutContext Nat))
      (status : StatusCode) (hts : b.timers = t :: ts) (hguard : guarded → status ≠ .kTimeout) :
      BookStep userCtx guarded b
        { b with
          timers := ts
          done := b.done ++ [(status, userCtx (b.inFlight.metas t.timerArg).info)] }
  | expire (b : Books π κ R) (t : TimeoutContext Nat) (ts : List (TimeoutContext Nat)) (now : Nat)
      (hts : b.timers = t :: ts) :
      BookStep userCtx guarded b
        { b with
          inFlight := b.inFlight.addFreeTimer now t.timerArg
          timers := ts
          done := b.done ++ [(.kTimeout, userCtx (b.inFlight.metas t.timerArg).info)] }
  | free (b : Books π κ R) (t : TimeoutContext FreeEntry) (rest : List (TimeoutContext FreeEntry))
      (hfree : b.inFlight.freeTimers.timers = t :: rest) :
      BookStep userCtx guarded b
        { b with
          inFlight := InFlight.freeBlocks t.timerArg
            { b.inFlight with freeTimers := { b.inFlight.freeTimers with timers := rest } } }
  | rewrite (b : Books π κ R) (done' : List (StatusCode × Nat))
      (hctx : done'.map Prod.snd = b.done.map Prod.snd)
      (hguard : guarded → done'.map (fun p => p.1 == .kTimeout) = b.done.map fun p => p.1 == .kTimeout) :
      BookStep userCtx guarded b { b with done := done' }

/-- What a piece of code does to the books of a ring: some steps, after which it is a ring
again. -/
structure Advances [CallbackContext κ] (userCtx : π → Nat) (size : RingSize) (guarded : Prop)
    (b b' : Books π κ R) : Prop where
  ring : Ring size b'.inFlight b'.timers
  steps : Relation.ReflTransGen (BookStep userCtx guarded) b b'

variable {b : Books π κ R}

variable {guarded : Prop} {β : Type} {old : List R} {s : InFlight π κ} {e : FreeEntry}

lemma Advances.trans [CallbackContext κ] {b' b'' : Books π κ R} (h : Advances userCtx size guarded b b')
    (h' : Advances userCtx size guarded b' b'') :
    Advances userCtx size guarded b b'' :=
  ⟨h'.ring, h.steps.trans h'.steps⟩

lemma Advances.keep [CallbackContext κ] (hring : Ring size s' b.timers)
    (hmetas : ∀ slot, SameRequest (b.inFlight.metas slot) (s'.metas slot))
    (hfree : s'.freeTimers.timers = b.inFlight.freeTimers.timers) (hdeleted : s'.deleted = b.inFlight.deleted) :
    Advances userCtx size guarded b { b with inFlight := s' } :=
  ⟨hring, Relation.ReflTransGen.single (BookStep.keep b s' hmetas hfree hdeleted)⟩

lemma handleFreeTimeout_advances [CallbackContext κ] (userCtx : π → Nat) (guarded : Prop)
    (hring : Ring size b.inFlight b.timers) (now : Nat) :
    Advances userCtx size guarded b { b with inFlight := b.inFlight.handleFreeTimeout now } := by
  -- the timers that are left are those in the state, the others fire in turn
  have hfold : ∀ (fired : List (TimeoutContext FreeEntry)) (s : InFlight π κ)
      (rest : List (TimeoutContext FreeEntry)), Ring size s b.timers → s.freeTimers.timers = rest →
      Advances userCtx size guarded
        { b with inFlight := { s with freeTimers := { s.freeTimers with timers := fired ++ rest } } }
        { b with inFlight := fired.foldl (fun s t => s.freeBlocks t.timerArg) s } := by
    intro fired
    induction fired with
    | nil =>
      intro s rest hring hrest
      subst hrest
      exact ⟨hring, Relation.ReflTransGen.refl⟩
    | cons t fired ih =>
      intro s rest hring hrest
      have hnext := ih (s.freeBlocks t.timerArg) rest (hring.congr rfl rfl rfl rfl rfl rfl rfl) hrest
      refine ⟨hnext.ring, Relation.ReflTransGen.head (BookStep.free _ t (fired ++ rest) rfl) ?_⟩
      exact hnext.steps
  have hdue := b.inFlight.freeTimers.due_append_handleTimeout now
  have hall := hfold (b.inFlight.freeTimers.due now)
    { b.inFlight with freeTimers := b.inFlight.freeTimers.handleTimeout now } _
    (hring.congr rfl rfl rfl rfl rfl rfl rfl) rfl
  rw [hdue] at hall
  exact hall

lemma handleFreeTimeout_eq (now : Nat) (s : InFlight π κ) : ∃ freeTimers deleted,
    s.handleFreeTimeout now = { s with freeTimers := freeTimers, deleted := deleted } := by
  have hfold : ∀ (fired : List (TimeoutContext FreeEntry)) (s : InFlight π κ), ∃ deleted,
      fired.foldl (fun s t => s.freeBlocks t.timerArg) s = { s with deleted := deleted } := by
    intro fired
    induction fired with
    | nil => exact fun s => ⟨s.deleted, rfl⟩
    | cons t fired ih =>
      intro s
      obtain ⟨deleted, heq⟩ := ih (s.freeBlocks t.timerArg)
      exact ⟨deleted, heq⟩
  obtain ⟨deleted, heq⟩ := hfold (s.freeTimers.due now)
    { s with freeTimers := s.freeTimers.handleTimeout now }
  exact ⟨s.freeTimers.handleTimeout now, deleted, heq⟩

lemma handleFreeTimeout_proj (p : InFlight π κ → β) (now : Nat)
    (hp : ∀ s freeTimers deleted, p { s with freeTimers := freeTimers, deleted := deleted } = p s)
    (s : InFlight π κ) : p (s.handleFreeTimeout now) = p s := by
  obtain ⟨freeTimers, deleted, heq⟩ := handleFreeTimeout_eq now s
  rw [heq]
  exact hp s freeTimers deleted

section Requests

variable [CallbackContext κ] (userCtx : π → Nat) {size : RingSize} (guarded : Prop) {b : Books π κ R}

omit [CallbackContext κ] in
lemma sameRequest_intercept (size : RingSize) (newCb : κ → κ) (slot a : Nat) (s : InFlight π κ) :
    SameRequest (s.metas a) ((s.interceptInflightReq size newCb slot).metas a) :=
  sameRequest_invalidated s (size.slotOf (s.metas slot).reqId) a

variable {t : TimeoutContext Nat} {ts : List (TimeoutContext Nat)} {slot : Nat}

section

variable (hring : Ring size b.inFlight b.timers)
include hring

lemma intercept_advances (hts : b.timers = t :: ts) (newCb : κ → κ) (code : StatusCode)
    (hcode : guarded → code ≠ .kTimeout) :
    Advances userCtx size guarded b
      { b with
        inFlight := b.inFlight.interceptInflightReq size newCb t.timerArg
        timers := ts
        done := b.done ++ [(code, userCtx (b.inFlight.metas t.timerArg).info)] } := by
  rw [hts] at hring
  have hfinish : BookStep userCtx guarded b _ := BookStep.finish b t ts code hts hcode
  refine ⟨hring.intercept newCb, (Relation.ReflTransGen.single hfinish).tail ?_⟩
  exact BookStep.keep _ _ (sameRequest_intercept size newCb t.timerArg · b.inFlight) rfl rfl

lemma expire_advances (hts : b.timers = t :: ts) (newCb : κ → κ) (now : Nat) :
    Advances userCtx size guarded b
      { b with
        inFlight := (b.inFlight.interceptInflightReq size newCb t.timerArg).addFreeTimer now t.timerArg
        timers := ts
        done := b.done ++ [(.kTimeout, userCtx (b.inFlight.metas t.timerArg).info)] } := by
  rw [hts] at hring
  let s' := b.inFlight.interceptInflightReq size newCb t.timerArg
  have hsame := fun a => sameRequest_intercept size newCb t.timerArg a b.inFlight
  have hkeep : BookStep userCtx guarded b { b with inFlight := s' } :=
    BookStep.keep b s' hsame rfl rfl
  have hexpire : BookStep userCtx guarded { b with inFlight := s' } _ :=
    BookStep.expire { b with inFlight := s' } t ts now hts
  have hinfo : (s'.metas t.timerArg).info = (b.inFlight.metas t.timerArg).info :=
    (hsame t.timerArg).info
  rw [hinfo] at hexpire
  exact ⟨(hring.intercept newCb).congr rfl rfl rfl rfl rfl rfl rfl,
    (Relation.ReflTransGen.single hkeep).tail hexpire⟩

lemma resetCb_advances {c : Nat} (hc : c ∉ b.inFlight.hw) (dev : DmaUnit) :
    Advances userCtx size guarded b { b with inFlight := b.inFlight.resetCb dev c } := by
  have hmetas := resetCb_proj (·.metas) (fun _ _ _ _ => rfl) dev c b.inFlight
  refine Advances.keep (hring.resetCb hc dev) (fun slot => ?_)
    (resetCb_proj (·.freeTimers.timers) (fun _ _ _ _ => rfl) _ _ _)
    (resetCb_proj (·.deleted) (fun _ _ _ _ => rfl) _ _ _)
  rw [hmetas]
  exact SameRequest.refl _

lemma write_advances (hroom : b.inFlight.inQatNum < size.maxInQatSize)
    (hslot : slot = size.slotOf b.inFlight.nextReqId) {m : RequestMeta π} (hm : m.valid = false)
    (hguard : guarded → ∀ t ∈ b.inFlight.freeTimers.timers, t.timerArg.slot ≠ slot) :
    Advances userCtx size guarded b { b with inFlight := b.inFlight.setMeta slot m } := by
  have hfree := hring.slot_free hroom
  rw [← hslot] at hfree
  exact ⟨hring.setMeta hfree hm, Relation.ReflTransGen.single (BookStep.write b slot m hfree hguard)⟩

lemma accept_advances {r : R} (hroom : b.inFlight.inQatNum < size.maxInQatSize)
    (hslot : slot = size.slotOf b.inFlight.nextReqId)
    (howner : CallbackContext.owner (b.inFlight.cbs (b.inFlight.cbPool slot)) = true)
    (hid : CallbackContext.reqId (b.inFlight.cbs (b.inFlight.cbPool slot)) = b.inFlight.nextReqId)
    (hreqId : (b.inFlight.metas slot).reqId = b.inFlight.nextReqId)
    (hstores : Stores userCtx (b.inFlight.metas slot) r) (now : Nat) :
    Advances userCtx size guarded b
      { b with
        inFlight := (b.inFlight.submit (b.inFlight.cbPool slot)).tagInFlight now slot
        timers := b.timers ++ [newTimer b.inFlight now slot]
        accepted := b.accepted ++ [r] } := by
  let s' := (b.inFlight.submit (b.inFlight.cbPool slot)).tagInFlight now slot
  have hmetas : ∀ a, SameRequest (b.inFlight.metas a) (s'.metas a) := by
    intro a
    by_cases heq : a = slot
    · subst heq
      simp only [s', tagInFlight, InFlight.setMeta, update_self]
      exact ⟨rfl, rfl, rfl, rfl⟩
    · simp only [s', tagInFlight, InFlight.setMeta, update_of_ne heq]
      exact SameRequest.refl _
  have hkeep : BookStep userCtx guarded b { b with inFlight := s' } := BookStep.keep b s' hmetas rfl rfl
  have hstored : Stores userCtx (s'.metas (newTimer b.inFlight now slot).timerArg) r :=
    (hmetas slot).stores hstores
  refine ⟨hring.accept hroom now hslot howner hid hreqId, (Relation.ReflTransGen.single hkeep).tail ?_⟩
  exact BookStep.accept { b with inFlight := s' } (newTimer b.inFlight now slot) r hstored

end

end Requests

section Completion

variable [CallbackContext κ] (userCtx : π → Nat) {size : RingSize} (guarded : Prop)
  {b : Books π κ R} {c n : Nat} {hw : List Nat} (pool : PoolState)

def popped (s : InFlight π κ) (hw : List Nat) (n : Nat) (pool : PoolState) : InFlight π κ :=
  { s with hw := hw, inQatNum := n, pool := pool }

lemma late_advances (hring : Ring size b.inFlight b.timers) (hhw : b.inFlight.hw = c :: hw)
    (hlow : hw.length ≤ n) (hhigh : n ≤ b.inFlight.inQatNum) (dev : DmaUnit)
    (hinvalid : (b.inFlight.metas (size.slotOf (CallbackContext.reqId (b.inFlight.cbs c)))).valid = false) :
    Advances userCtx size guarded b
      { b with inFlight := (popped b.inFlight hw n pool).cleanUpReqData dev none (some c) } := by
  have hpop := ((hring.pop hhw (hring.head_invalid hhw hinvalid)).setInQatNum hlow hhigh)
  have hring' : Ring size (popped b.inFlight hw n pool) b.timers := hpop.congr rfl rfl rfl rfl rfl rfl rfl
  exact Advances.keep (hring'.resetCb (hring.head_not_mem hhw) dev)
    (sameRequest_cleanUpReqData dev none c · (popped b.inFlight hw n pool))
    (resetCb_proj (·.freeTimers.timers) (fun _ _ _ _ => rfl) _ _ _)
    (resetCb_proj (·.deleted) (fun _ _ _ _ => rfl) _ _ _)

variable {t : TimeoutContext Nat} {ts : List (TimeoutContext Nat)}

lemma dropMeta_eq {s : InFlight π κ} (hring : Ring size s (t :: ts)) (htimers : s.timers.timers = t :: ts)
    (hw : List Nat) (n : Nat) (pool : PoolState) :
    (popped s hw n pool).dropMeta t.timerArg =
      { invalidated (popped s hw n pool) t.timerArg with timers := { s.timers with timers := ts } } := by
  have hfirst := hring.timer 0 t rfl
  have hvalid : ((popped s hw n pool).metas t.timerArg).valid = true := hfirst.valid
  have hremove : s.timers.removeTimer (s.metas t.timerArg).timerCtx = { s.timers with timers := ts } := by
    unfold TimerManager.removeTimer
    rw [htimers, hfirst.timerCtx, eraseP_cons_of_pos (by simp)]
  unfold InFlight.dropMeta
  rw [if_pos hvalid]
  change { invalidated (popped s hw n pool) t.timerArg with
    timers := s.timers.removeTimer (s.metas t.timerArg).timerCtx } = _
  rw [hremove]

lemma complete_advances (hring : Ring size b.inFlight b.timers) (hb : b.timers = t :: ts)
    (htimers : b.inFlight.timers.timers = t :: ts) (hhw : b.inFlight.hw = c :: hw) (hlen : ts.length = hw.length)
    (hlow : hw.length ≤ n) (hhigh : n ≤ b.inFlight.inQatNum) (dev : DmaUnit) (status : StatusCode)
    (hguard : guarded → status ≠ .kTimeout) :
    let s' := (popped b.inFlight hw n pool).cleanUpReqData dev (some t.timerArg) (some c)
    Advances userCtx size guarded b
      { b with
        inFlight := s'
        timers := ts
        done := b.done ++ [(status, userCtx (b.inFlight.metas t.timerArg).info)] } ∧
      s'.timers.timers = ts := by
  intro s'
  rw [hb] at hring
  have hs' : s' = ({ invalidated (popped b.inFlight hw n pool) t.timerArg with
      timers := { b.inFlight.timers with timers := ts } } : InFlight π κ).resetCb dev c := by
    rw [← dropMeta_eq hring htimers]
    rfl
  have hdone := ((hring.complete hhw hlen).setInQatNum hlow hhigh)
  have hring' : Ring size { invalidated (popped b.inFlight hw n pool) t.timerArg with
      timers := { b.inFlight.timers with timers := ts } } ts := hdone.congr rfl rfl rfl rfl rfl rfl rfl
  have hfinish : BookStep userCtx guarded b _ := BookStep.finish b t ts status hb hguard
  have hmetas : ∀ slot, SameRequest (b.inFlight.metas slot) (s'.metas slot) :=
    (sameRequest_cleanUpReqData dev (some t.timerArg) c · (popped b.inFlight hw n pool))
  refine ⟨⟨?_, (Relation.ReflTransGen.single hfinish).tail (BookStep.keep _ s' hmetas ?_ ?_)⟩, ?_⟩
  · rw [hs']
    exact hring'.resetCb (hring.head_not_mem hhw) dev
  · rw [hs', resetCb_proj (·.freeTimers.timers) (fun _ _ _ _ => rfl)]
    rfl
  · rw [hs', resetCb_proj (·.deleted) (fun _ _ _ _ => rfl)]
    rfl
  · rw [hs', resetCb_proj (·.timers.timers) (fun _ _ _ _ => rfl)]

end Completion

lemma forall₂_imp_of_mem {α : Type} {P Q : α → β → Prop} {xs : List α} {ys : List β} (h : Forall₂ P xs ys)
    (himp : ∀ x ∈ xs, ∀ y, P x y → Q x y) : Forall₂ Q xs ys := by
  induction h with
  | nil => exact Forall₂.nil
  | cons hhead _ ih =>
    exact Forall₂.cons (himp _ mem_cons_self _ hhead)
      (ih fun x hx => himp x (mem_cons_of_mem _ hx))

def Ledger (userCtx : π → Nat) (b : Books π κ R) : Prop :=
  ∃ old live, b.accepted = old ++ live ∧ old.map IORequest.ctx = b.done.map Prod.snd ∧
    List.Forall₂ (fun t r => Stores userCtx (b.inFlight.metas t.timerArg) r) b.timers live

variable {userCtx : π → Nat} {guarded : Prop} {b b' : Books π κ R}

section

variable (h : Ledger userCtx b)
include h

lemma Ledger.prefix_ctx : b.done.map Prod.snd <+: b.accepted.map IORequest.ctx := by
  obtain ⟨old, live, hacc, hctx, -⟩ := h
  rw [hacc, map_append, hctx]
  exact prefix_append _ _

lemma Ledger.length : b.accepted.length = b.done.length + b.timers.length := by
  obtain ⟨old, live, hacc, hctx, hall⟩ := h
  have hlen := congrArg List.length hctx
  rw [length_map, length_map] at hlen
  rw [hacc, length_append, hlen, hall.length_eq]

lemma Ledger.congr (s' : InFlight π κ)
    (hmetas : ∀ t ∈ b.timers, SameRequest (b.inFlight.metas t.timerArg) (s'.metas t.timerArg)) :
    Ledger userCtx { b with inFlight := s' } := by
  obtain ⟨old, live, hacc, hctx, hall⟩ := h
  exact ⟨old, live, hacc, hctx, forall₂_imp_of_mem hall fun t ht r hr => (hmetas t ht).stores hr⟩

lemma Ledger.finish {t : TimeoutContext Nat} {ts : List (TimeoutContext Nat)} (hts : b.timers = t :: ts)
    (status : StatusCode) :
    Ledger userCtx { b with
      timers := ts
      done := b.done ++ [(status, userCtx (b.inFlight.metas t.timerArg).info)] } := by
  obtain ⟨old, live, hacc, hctx, hall⟩ := h
  rw [hts] at hall
  cases hall with
  | cons hhead htail =>
    rename_i r live
    refine ⟨old ++ [r], live, by simp [hacc], ?_, htail⟩
    rw [map_append, map_append, hctx]
    simp [hhead.ctx]

lemma Ledger.step (hstep : BookStep userCtx guarded b b') : Ledger userCtx b' := by
  cases hstep with
  | keep s' hmetas _ _ => exact h.congr s' fun t _ => hmetas t.timerArg
  | write slot m hslot _ =>
    refine h.congr _ fun t ht => ?_
    simp only [InFlight.setMeta, update_of_ne (hslot t ht)]
    exact SameRequest.refl _
  | accept t r hr =>
    obtain ⟨old, live, hacc, hctx, hall⟩ := h
    refine ⟨old, live ++ [r], by simp [hacc], hctx, ?_⟩
    exact rel_append hall (Forall₂.cons hr Forall₂.nil)
  | finish t ts status hts _ => exact h.finish hts status
  | expire t ts now hts => exact (h.finish hts .kTimeout).congr _ fun _ _ => SameRequest.refl _
  | free t rest _ => exact h.congr _ fun _ _ => SameRequest.refl _
  | rewrite done' hdone _ =>
    obtain ⟨old, live, hacc, hctx, hall⟩ := h
    exact ⟨old, live, hacc, hctx.trans hdone.symm, hall⟩

lemma Ledger.steps (hsteps : Relation.ReflTransGen (BookStep userCtx guarded) b b') : Ledger userCtx b' := by
  induction hsteps with
  | refl => exact h
  | tail _ hstep ih => exact ih.step hstep

end

lemma BookStep.done_length_le (h : BookStep userCtx guarded b b') :
    b.done.length ≤ b'.done.length := by
  cases h with
  | keep s' _ _ _ => exact Nat.le_refl _
  | write slot m _ _ => exact Nat.le_refl _
  | accept t r _ => exact Nat.le_refl _
  | finish t ts status _ _ => simp
  | expire t ts now _ => simp
  | free t rest _ => exact Nat.le_refl _
  | rewrite done' hctx _ =>
    have hlen := congrArg List.length hctx
    simp only [length_map] at hlen
    exact hlen.ge

lemma Ledger.timers_nil (h : Ledger userCtx b)
    (hsteps : Relation.ReflTransGen (BookStep userCtx guarded) b b') (haccepted : b'.accepted = b.accepted)
    (hnil : b.timers = []) : b'.timers = [] := by
  have hdone : b.done.length ≤ b'.done.length := by
    clear haccepted
    induction hsteps with
    | refl => exact Nat.le_refl _
    | tail _ hstep ih => exact ih.trans hstep.done_length_le
  have hlen := h.length
  have hlen' := (h.steps hsteps).length
  rw [haccepted, hlen, hnil, length_nil] at hlen'
  exact length_eq_zero_iff.mp (by omega)

def deleterCalls (r : R) : List (Nat × Nat) :=
  InFlight.deleterCall (IORequest.dst r) ++ (IORequest.src r).flatMap InFlight.deleterCall

def timedOut (accepted : List R) (done : List (StatusCode × Nat)) : List R :=
  ((accepted.zip done).filter fun p => p.2.1 == .kTimeout).map Prod.fst

omit [IORequest R] in
lemma timedOut_append_live {live : List R} (hlen : old.length = done.length) :
    timedOut (old ++ live) done = timedOut old done := by
  unfold timedOut
  rw [← append_nil done, zip_append hlen]
  simp

omit [IORequest R] in
lemma timedOut_append_done {x : StatusCode × Nat} (hlen : old.length = done.length) :
    timedOut (old ++ [r]) (done ++ [x]) = timedOut old done ++ if x.1 == .kTimeout then [r] else [] := by
  unfold timedOut
  rw [zip_append hlen, filter_append, map_append]
  cases hx : x.1 == .kTimeout <;> simp [hx]

omit [IORequest R] in
lemma timedOut_congr (accepted : List R) {done' : List (StatusCode × Nat)}
    (h : done'.map (fun p => p.1 == .kTimeout) = done.map fun p => p.1 == .kTimeout) :
    timedOut accepted done' = timedOut accepted done := by
  induction accepted generalizing done done' with
  | nil => simp [timedOut]
  | cons r accepted ih =>
    cases done with
    | nil =>
      have hnil : done' = [] := by simpa using h
      rw [hnil]
    | cons x done =>
      cases done' with
      | nil => simp at h
      | cons x' done' =>
        simp only [map_cons, cons.injEq] at h
        have htail := ih h.2
        unfold timedOut at htail ⊢
        simp only [zip_cons_cons, filter_cons, h.1]
        split
        · rw [map_cons, map_cons, htail]
        · exact htail

structure Frees (s : InFlight π κ) (e : FreeEntry) (r : R) : Prop where
  numBlocks : e.numBlocks = (IORequest.src r).length
  block : ∀ i b, (IORequest.src r)[i]? = some b → (s.metas e.slot).srcBlocks i = b
  dst : e.dst = IORequest.dst r

lemma Frees.congr (h : Frees s e r) (hblocks : (s'.metas e.slot).srcBlocks = (s.metas e.slot).srcBlocks) :
    Frees s' e r where
  numBlocks := h.numBlocks
  block i b hb := by
    rw [hblocks]
    exact h.block i b hb
  dst := h.dst

lemma Frees.deleted_freeBlocks (h : Frees s e r) :
    (s.freeBlocks e).deleted = s.deleted ++ deleterCalls r := by
  have hsrc : (range e.numBlocks).map (s.metas e.slot).srcBlocks = IORequest.src r := by
    rw [h.numBlocks]
    refine ext_getElem (by simp) ?_
    intro i hi hi'
    simp [h.block i _ (getElem?_eq_getElem hi')]
  simp only [InFlight.freeBlocks, hsrc, h.dst, deleterCalls]

def Owned (b : Books π κ R) : Prop :=
  ∃ freed pending, timedOut b.accepted b.done = freed ++ pending ∧
    b.inFlight.deleted = freed.flatMap deleterCalls ∧
    List.Forall₂ (fun t r => Frees b.inFlight t.timerArg r) b.inFlight.freeTimers.timers pending

lemma Owned.congr (h : Owned b) (hfree : s'.freeTimers.timers = b.inFlight.freeTimers.timers)
    (hdeleted : s'.deleted = b.inFlight.deleted) (hmetas : ∀ t ∈ b.inFlight.freeTimers.timers,
      (s'.metas t.timerArg.slot).srcBlocks = (b.inFlight.metas t.timerArg.slot).srcBlocks) :
    Owned { b with inFlight := s' } := by
  obtain ⟨freed, pending, hout, hdel, hall⟩ := h
  refine ⟨freed, pending, hout, hdeleted.trans hdel, ?_⟩
  rw [hfree]
  exact forall₂_imp_of_mem hall fun t ht r hr => hr.congr (hmetas t ht)

lemma Owned.step (h : Owned b) (hledger : Ledger userCtx b) (hstep : BookStep userCtx True b b') :
    Owned b' := by
  obtain ⟨old, live, hacc, hctx, hstored⟩ := hledger
  have hlen : old.length = b.done.length := by
    have := congrArg List.length hctx
    simpa using this
  cases hstep with
  | keep s' hmetas hfree hdeleted =>
    exact h.congr hfree hdeleted fun t _ => (hmetas t.timerArg.slot).srcBlocks
  | write slot m _ hguard =>
    refine h.congr rfl rfl fun t ht => ?_
    simp only [InFlight.setMeta, update_of_ne (hguard trivial t ht)]
  | accept t r hr =>
    obtain ⟨freed, pending, hout, hdel, hall⟩ := h
    refine ⟨freed, pending, ?_, hdel, hall⟩
    rw [← hout, hacc, append_assoc, timedOut_append_live hlen, timedOut_append_live hlen]
  | finish t ts status hts hguard =>
    obtain ⟨freed, pending, hout, hdel, hall⟩ := h
    refine ⟨freed, pending, ?_, hdel, hall⟩
    rw [hts] at hstored
    cases hstored with
    | cons hhead htail =>
      rename_i r live
      rw [← hout, hacc, timedOut_append_live hlen, append_cons, timedOut_append_live (by simp [hlen]),
        timedOut_append_done hlen]
      simp [hguard trivial]
  | expire t ts now hts =>
    obtain ⟨freed, pending, hout, hdel, hall⟩ := h
    rw [hts] at hstored
    cases hstored with
    | cons hhead htail =>
      rename_i r live
      refine ⟨freed, pending ++ [r], ?_, hdel, ?_⟩
      · rw [← append_assoc, ← hout, hacc, timedOut_append_live hlen, append_cons,
          timedOut_append_live (by simp [hlen]), timedOut_append_done hlen]
        simp
      · refine rel_append ?_ (Forall₂.cons ?_ Forall₂.nil)
        · exact forall₂_imp_of_mem hall fun t' _ r' hr' => hr'.congr rfl
        · exact ⟨hhead.numBlocks, hhead.block, hhead.dst⟩
  | free t rest hfree =>
    obtain ⟨freed, pending, hout, hdel, hall⟩ := h
    rw [hfree] at hall
    cases hall with
    | cons hhead htail =>
      rename_i r pending
      refine ⟨freed ++ [r], pending, by simp [hout], ?_, ?_⟩
      · have hhead' : Frees { b.inFlight with
            freeTimers := { b.inFlight.freeTimers with timers := rest } } t.timerArg r := hhead.congr rfl
        rw [hhead'.deleted_freeBlocks, flatMap_append]
        simp [hdel]
      · exact forall₂_imp_of_mem htail fun t' _ r' hr' => hr'.congr rfl
  | rewrite done' _ hguard =>
    obtain ⟨freed, pending, hout, hdel, hall⟩ := h
    exact ⟨freed, pending, (timedOut_congr b.accepted (hguard trivial)).trans hout, hdel, hall⟩

lemma Owned.steps (h : Owned b) (hledger : Ledger userCtx b)
    (hsteps : Relation.ReflTransGen (BookStep userCtx True) b b') : Owned b' := by
  induction hsteps with
  | refl => exact h
  | tail hsteps hstep ih => exact ih.step (hledger.steps hsteps) hstep

end Vesal.Proofs
