import Vesal.Library.EventRuns
import Vesal.Proofs.DataFlowChecks

/-! # Delivery on a data flow channel -/

namespace Vesal.Proofs

open Library DataFlowChannelImpl List Function DataFlowRun

variable {E : Type} (eng : DataFlowEngine E)

def SameRequests (request request' : Nat → DataFlowRequest) : Prop :=
  ∀ obj, (request' obj).userCtx = (request obj).userCtx ∧ (request' obj).num = (request obj).num

lemma SameRequests.refl (request : Nat → DataFlowRequest) : SameRequests request request :=
  fun _ => ⟨rfl, rfl⟩

lemma SameRequests.trans {r₁ r₂ r₃ : Nat → DataFlowRequest} (h : SameRequests r₁ r₂) (h' : SameRequests r₂ r₃) :
    SameRequests r₁ r₃ :=
  fun obj => ⟨(h' obj).1.trans (h obj).1, (h' obj).2.trans (h obj).2⟩

lemma SameRequests.update {request : Nat → DataFlowRequest} {obj : Nat} {req : DataFlowRequest}
    (hctx : req.userCtx = (request obj).userCtx) (hnum : req.num = (request obj).num) :
    SameRequests request (Function.update request obj req) := by
  intro o
  by_cases ho : o = obj
  · subst ho
    rw [update_self]
    exact ⟨hctx, hnum⟩
  · rw [update_of_ne ho]
    exact ⟨rfl, rfl⟩

lemma sameRequests_expire (request : Nat → DataFlowRequest) (objs : List Nat) :
    SameRequests request (objs.foldl expire request) := by
  induction objs generalizing request with
  | nil => exact .refl _
  | cons obj objs ih =>
    have hobj : SameRequests request (expire request obj) := SameRequests.update rfl rfl
    exact hobj.trans (ih (expire request obj))

/-- The answers of the engine to calls one after the other, each in the state that the call before it
has left, from `e` to `e'`. -/
def EngineAnswers (eng : DataFlowEngine E) : E → List (CompletionCheck E) → E → Prop
  | e, [], e' => e' = e
  | e, c :: cs, e' => c.engine = e ∧ ∃ e₁,
    eng.checkCompletion e c.obj c.request c.before = (c.completed, c.after, e₁) ∧ EngineAnswers eng e₁ cs e'

/-- The calls of `CheckCompletion` on the way from `ch` to `ch'`, each for the request of its object. -/
structure Asked (eng : DataFlowEngine E) (ch ch' : DataFlowChannelImpl E) (cs : List (CompletionCheck E)) : Prop where
  answers : EngineAnswers eng ch.engine cs ch'.engine
  own : ∀ c ∈ cs, c.request.userCtx = (ch.request c.obj).userCtx ∧ c.request.num = (ch.request c.obj).num

structure Wrote (c : CompletionCheck E) (f : Filled) : Prop where
  obj : c.obj = f.obj
  completed : c.completed = true
  before : c.before = f.before
  after : c.after = f.after

/-- An entry is filled for a request that has expired, or with what the engine has written in a call
that `P` holds for. -/
structure Reports (P : CompletionCheck E → Prop) (userCtx : Nat) (f : Filled) : Prop where
  ctx : f.after.ctx = userCtx
  timeout : f.expired = true → f.after.status = .kTimeout
  engine : f.expired = false → ∃ c, P c ∧ Wrote c f

lemma Reports.mono {P Q : CompletionCheck E → Prop} {userCtx : Nat} {f : Filled} (h : Reports P userCtx f)
    (hPQ : ∀ c, P c → c.obj = f.obj → Q c) : Reports Q userCtx f where
  ctx := h.ctx
  timeout := h.timeout
  engine hexpired := by
    obtain ⟨c, hc, hwrote⟩ := h.engine hexpired
    exact ⟨c, hPQ c hc hwrote.obj, hwrote⟩

section

variable {eng}

lemma EngineAnswers.append {e e₁ e' : E} {cs cs' : List (CompletionCheck E)} (h : EngineAnswers eng e cs e₁)
    (h' : EngineAnswers eng e₁ cs' e') : EngineAnswers eng e (cs ++ cs') e' := by
  induction cs generalizing e with
  | nil =>
    subst h
    exact h'
  | cons c cs ih =>
    obtain ⟨hengine, e₂, hanswer, hrest⟩ := h
    exact ⟨hengine, e₂, hanswer, ih hrest⟩

lemma Asked.trans {ch ch₁ ch₂ ch' : DataFlowChannelImpl E} {cs cs' : List (CompletionCheck E)}
    (h : Asked eng ch ch₁ cs) (h' : Asked eng ch₂ ch' cs') (hsame : SameRequests ch.request ch₂.request)
    (hengine : ch₂.engine = ch₁.engine) : Asked eng ch ch' (cs ++ cs') where
  answers := h.answers.append (hengine ▸ h'.answers)
  own c hc := by
    rcases mem_append.mp hc with hc | hc
    · exact h.own c hc
    · rw [← (hsame c.obj).1, ← (hsame c.obj).2]
      exact h'.own c hc

end

structure Checked (eng : DataFlowEngine E) (ch ch' : DataFlowChannelImpl E) (cs : List (CompletionCheck E)) : Prop where
  queue : ch'.queue = ch.queue
  order : ch'.orderType = ch.orderType
  expired : ch'.expiredQueue = ch.expiredQueue
  cached : ch'.cachedResource = ch.cachedResource
  same : SameRequests ch.request ch'.request
  log : ch'.checks = ch.checks ++ cs
  asked : Asked eng ch ch' cs

lemma Checked.refl (ch : DataFlowChannelImpl E) : Checked eng ch ch [] :=
  ⟨rfl, rfl, rfl, rfl, .refl _, (append_nil _).symm, rfl, fun _ hc => absurd hc not_mem_nil⟩

lemma checked_check (ch : DataFlowChannelImpl E) (obj : Nat) (result : DataFlowResult) :
    ∃ c, Checked eng ch (check eng ch obj result).2.2 [c] ∧
      ((check eng ch obj result).1 = true → Wrote c ⟨obj, result, (check eng ch obj result).2.1, false⟩ ∧
        (check eng ch obj result).2.1.ctx = (ch.request obj).userCtx) := by
  refine ⟨⟨ch.engine, obj, ch.request obj, result, (check eng ch obj result).1, (check eng ch obj result).2.1⟩, ?_, ?_⟩
  · refine ⟨rfl, rfl, rfl, rfl, SameRequests.update rfl rfl, rfl, ⟨rfl, _, rfl, rfl⟩, ?_⟩
    intro c hc
    obtain rfl := mem_singleton.mp hc
    exact ⟨rfl, rfl⟩
  · intro hcompleted
    exact ⟨⟨rfl, hcompleted, rfl, rfl⟩, eng.ctx_of_completed _ _ _ _ hcompleted⟩

structure QueuePolled (eng : DataFlowEngine E) (ch : DataFlowChannelImpl E) (queue rest : List Nat)
    (ch' : DataFlowChannelImpl E) (filled : List Filled) (cs : List (CompletionCheck E)) : Prop where
  queue_same : ch'.queue = ch.queue
  order_same : ch'.orderType = ch.orderType
  same : SameRequests ch.request ch'.request
  log : ch'.checks = ch.checks ++ cs
  asked : Asked eng ch ch' cs
  expired : ch'.expiredQueue = ch.expiredQueue ++ (filled.filter fun f => f.expired).map Filled.obj
  cached : ch'.cachedResource = ch.cachedResource ++ (filled.filter fun f => !f.expired).map Filled.obj
  perm : (filled.map Filled.obj ++ rest).Perm queue
  ordered : ch.orderType = .kOrdered → filled.map Filled.obj ++ rest = queue
  reports : ∀ f ∈ filled, Reports (· ∈ cs) (ch.request f.obj).userCtx f

namespace QueuePolled

variable {eng} {ch ch₁ ch' : DataFlowChannelImpl E} {queue rest : List Nat} {filled : List Filled}
  {cs cs' : List (CompletionCheck E)} {c : CompletionCheck E}

lemma stop (h : Checked eng ch ch' cs) : QueuePolled eng ch queue queue ch' [] cs where
  queue_same := h.queue
  order_same := h.order
  same := h.same
  log := h.log
  asked := h.asked
  expired := by rw [h.expired]; exact (append_nil _).symm
  cached := by rw [h.cached]; exact (append_nil _).symm
  perm := .refl _
  ordered := fun _ => rfl
  reports := fun _ hf => absurd hf not_mem_nil

variable {f : Filled}

lemma reports_mono (hsame : SameRequests ch.request ch₁.request) (hsub : cs ⊆ cs')
    (h : ∀ g ∈ filled, Reports (· ∈ cs) (ch₁.request g.obj).userCtx g) :
    ∀ g ∈ filled, Reports (· ∈ cs') (ch.request g.obj).userCtx g := by
  intro g hg
  rw [← (hsame g.obj).1]
  exact (h g hg).mono fun c hc _ => hsub hc

lemma timeout (hexpired : f.expired = true) (hf : Reports (· ∈ cs) (ch.request f.obj).userCtx f)
    (h : QueuePolled eng { ch with expiredQueue := ch.expiredQueue ++ [f.obj] } queue rest ch' filled cs) :
    QueuePolled eng ch (f.obj :: queue) rest ch' (f :: filled) cs where
  queue_same := h.queue_same
  order_same := h.order_same
  same := h.same
  log := h.log
  asked := ⟨h.asked.answers, h.asked.own⟩
  expired := by
    rw [h.expired, filter_cons_of_pos hexpired, map_cons, append_assoc]
    rfl
  cached := by
    rw [h.cached, filter_cons_of_neg]
    simp [hexpired]
  perm := h.perm.cons _
  ordered := fun hord => congrArg (f.obj :: ·) (h.ordered hord)
  reports := forall_mem_cons.mpr ⟨hf, h.reports⟩

lemma done {timers : TimerManager Nat} (hexpired : f.expired = false) (hctx : f.after.ctx = (ch.request f.obj).userCtx)
    (hwrote : Wrote c f) (hch : Checked eng ch ch₁ [c])
    (h : QueuePolled eng { ch₁ with timerManager := timers, cachedResource := ch₁.cachedResource ++ [f.obj] }
      queue rest ch' filled cs) :
    QueuePolled eng ch (f.obj :: queue) rest ch' (f :: filled) ([c] ++ cs) where
  queue_same := h.queue_same.trans hch.queue
  order_same := h.order_same.trans hch.order
  same := hch.same.trans h.same
  log := by
    rw [h.log, ← append_assoc]
    exact congrArg (· ++ _) hch.log
  asked := hch.asked.trans h.asked hch.same rfl
  expired := by
    rw [h.expired, filter_cons_of_neg (by simp [hexpired])]
    exact congrArg (· ++ _) hch.expired
  cached := by
    rw [h.cached, filter_cons_of_pos (by simp [hexpired]), map_cons, append_assoc, hch.cached]
    rfl
  perm := h.perm.cons _
  ordered := fun hord => congrArg (f.obj :: ·) (h.ordered (hch.order.trans hord))
  reports := by
    refine forall_mem_cons.mpr ⟨⟨hctx, ?_, fun _ => ⟨c, mem_cons_self, hwrote⟩⟩, ?_⟩
    · intro htrue
      rw [hexpired] at htrue
      exact Bool.noConfusion htrue
    · exact reports_mono hch.same (subset_append_right _ _) h.reports

lemma skip {obj : Nat} (hord : ch.orderType ≠ .kOrdered) (hch : Checked eng ch ch₁ cs')
    (h : QueuePolled eng ch₁ queue rest ch' filled cs) :
    QueuePolled eng ch (obj :: queue) (obj :: rest) ch' filled (cs' ++ cs) where
  queue_same := h.queue_same.trans hch.queue
  order_same := h.order_same.trans hch.order
  same := hch.same.trans h.same
  log := by rw [h.log, hch.log, append_assoc]
  asked := hch.asked.trans h.asked hch.same rfl
  expired := by rw [h.expired, hch.expired]
  cached := by rw [h.cached, hch.cached]
  perm := perm_middle.trans (h.perm.cons _)
  ordered := fun hord' => absurd hord' hord
  reports := reports_mono hch.same (subset_append_right _ _) h.reports

end QueuePolled

theorem queuePolled_pollLoop (queue : List Nat) (results : List DataFlowResult) (ch : DataFlowChannelImpl E) :
    ∃ cs, QueuePolled eng ch queue (pollLoop eng queue results ch).1 (pollLoop eng queue results ch).2.1
      (pollLoop eng queue results ch).2.2 cs := by
  induction queue generalizing results ch with
  | nil => exact ⟨[], .stop (.refl eng ch)⟩
  | cons obj queue ih =>
    cases results with
    | nil => exact ⟨[], .stop (.refl eng ch)⟩
    | cons entry results =>
      unfold pollLoop
      by_cases hexpired : (ch.request obj).expired = true
      · rw [if_pos hexpired]
        let after := { entry with status := .kTimeout, ctx := (ch.request obj).userCtx }
        obtain ⟨cs, h⟩ := ih results { ch with expiredQueue := ch.expiredQueue ++ [obj] }
        exact ⟨cs, .timeout (f := ⟨obj, entry, after, true⟩) rfl ⟨rfl, fun _ => rfl, fun h => Bool.noConfusion h⟩ h⟩
      · rw [if_neg hexpired]
        obtain ⟨c, hch, hwrote⟩ := checked_check eng ch obj entry
        generalize check eng ch obj entry = out at hch hwrote
        obtain ⟨completed, after, ch₁⟩ := out
        cases completed with
        | true =>
          obtain ⟨hwrote, hctx⟩ := hwrote rfl
          obtain ⟨cs, h⟩ := ih results
            { ch₁ with timerManager := ch₁.removeTimer obj, cachedResource := ch₁.cachedResource ++ [obj] }
          exact ⟨_, .done (f := ⟨obj, entry, after, false⟩) rfl hctx hwrote hch h⟩
        | false =>
          dsimp only
          by_cases hord : ch₁.orderType = .kOrdered
          · rw [if_pos hord]
            exact ⟨_, .stop hch⟩
          · rw [if_neg hord]
            obtain ⟨cs, h⟩ := ih (after :: results) ch₁
            exact ⟨_, .skip (fun h => hord (hch.order.trans h)) hch h⟩

structure Drained (eng : DataFlowEngine E) (ch : DataFlowChannelImpl E) (queue rest : List Nat)
    (ch' : DataFlowChannelImpl E) (finished : List Nat) (cs : List (CompletionCheck E)) : Prop where
  queue_same : ch'.queue = ch.queue
  order_same : ch'.orderType = ch.orderType
  same : SameRequests ch.request ch'.request
  log : ch'.checks = ch.checks ++ cs
  asked : Asked eng ch ch' cs
  cached : ch'.cachedResource = ch.cachedResource ++ finished
  perm : (finished ++ rest).Perm queue
  completed : ∀ obj ∈ finished, ∃ c ∈ cs, c.obj = obj ∧ c.completed = true

theorem drained_expiredLoop (queue : List Nat) (ch : DataFlowChannelImpl E) :
    ∃ finished cs, Drained eng ch queue (expiredLoop eng queue ch).1 (expiredLoop eng queue ch).2 finished cs := by
  induction queue generalizing ch with
  | nil =>
    have h := Checked.refl eng ch
    exact ⟨[], [], rfl, rfl, .refl _, h.log, h.asked, (append_nil _).symm, .refl _, fun _ ho => absurd ho not_mem_nil⟩
  | cons obj queue ih =>
    unfold expiredLoop
    obtain ⟨c, hch, hwrote⟩ := checked_check eng ch obj discardedResult
    generalize check eng ch obj discardedResult = out at hch hwrote
    obtain ⟨completed, after, ch₁⟩ := out
    cases completed with
    | true =>
      obtain ⟨hwrote, -⟩ := hwrote rfl
      obtain ⟨finished, cs, h⟩ := ih { ch₁ with cachedResource := ch₁.cachedResource ++ [obj] }
      refine ⟨obj :: finished, [c] ++ cs, h.queue_same.trans hch.queue, h.order_same.trans hch.order,
        hch.same.trans h.same, ?_, hch.asked.trans h.asked hch.same rfl, ?_, h.perm.cons _, ?_⟩
      · rw [← append_assoc, ← hch.log]
        exact h.log
      · dsimp only
        rw [h.cached, hch.cached, append_assoc]
        rfl
      · refine forall_mem_cons.mpr ⟨⟨c, mem_cons_self, hwrote.obj, hwrote.completed⟩, ?_⟩
        intro o ho
        obtain ⟨c', hc', hdone⟩ := h.completed o ho
        exact ⟨c', mem_cons_of_mem _ hc', hdone⟩
    | false =>
      obtain ⟨finished, cs, h⟩ := ih ch₁
      refine ⟨finished, [c] ++ cs, h.queue_same.trans hch.queue, h.order_same.trans hch.order, hch.same.trans h.same,
        ?_, hch.asked.trans h.asked hch.same rfl, h.cached.trans (congrArg (· ++ _) hch.cached),
        perm_middle.trans (h.perm.cons _), ?_⟩
      · rw [← append_assoc, ← hch.log]
        exact h.log
      · intro o ho
        obtain ⟨c', hc', hdone⟩ := h.completed o ho
        exact ⟨c', mem_cons_of_mem _ hc', hdone⟩

structure PollDone (eng : DataFlowEngine E) (ch : DataFlowChannelImpl E) (filled : List Filled)
    (finished : List Nat) (ch' : DataFlowChannelImpl E) : Prop where
  order_same : ch'.orderType = ch.orderType
  same : SameRequests ch.request ch'.request
  asked : Asked eng ch ch' ch'.checks
  queue : (filled.map Filled.obj ++ ch'.queue).Perm ch.queue
  ordered : ch.orderType = .kOrdered → filled.map Filled.obj ++ ch'.queue = ch.queue
  expired : (finished ++ ch'.expiredQueue).Perm
    (ch.expiredQueue ++ (filled.filter fun f => f.expired).map Filled.obj)
  cached : ch'.cachedResource =
    ch.cachedResource ++ (filled.filter fun f => !f.expired).map Filled.obj ++ finished
  reports : ∀ f ∈ filled, Reports (· ∈ ch'.checks) (ch.request f.obj).userCtx f
  completed : ∀ obj ∈ finished, ∃ c ∈ ch'.checks, c.obj = obj ∧ c.completed = true

theorem pollDone_poll (ch : DataFlowChannelImpl E) (results : List DataFlowResult) (now : Nat) :
    ∃ finished, PollDone eng ch (ch.poll eng results now).1 finished (ch.poll eng results now).2 := by
  unfold DataFlowChannelImpl.poll
  obtain ⟨cs, hpolled⟩ := queuePolled_pollLoop eng ch.queue results { ch with checks := [] }
  generalize pollLoop eng ch.queue results { ch with checks := [] } = out at hpolled
  obtain ⟨queue, ch₁, filled⟩ := out
  dsimp only at hpolled ⊢
  have hexpire := sameRequests_expire ch₁.request ((ch₁.timerManager.due now).map TimeoutContext.timerArg)
  generalize ((ch₁.timerManager.due now).map TimeoutContext.timerArg).foldl expire ch₁.request = request at hexpire
  obtain ⟨finished, cs', hdrained⟩ := drained_expiredLoop eng ch₁.expiredQueue
    { ch₁ with queue := queue, request := request, timerManager := ch₁.timerManager.handleTimeout now }
  generalize expiredLoop eng ch₁.expiredQueue _ = out at hdrained
  obtain ⟨expiredQueue, ch₂⟩ := out
  have hqueue : ch₂.queue = queue := hdrained.queue_same
  have hlog : ch₂.checks = cs ++ cs' := hdrained.log.trans (congrArg (· ++ cs') hpolled.log)
  have hasked := hpolled.asked.trans hdrained.asked (hpolled.same.trans hexpire) rfl
  refine ⟨finished, {
    order_same := hdrained.order_same.trans hpolled.order_same
    same := (hpolled.same.trans hexpire).trans hdrained.same
    asked := ?_
    queue := hqueue ▸ hpolled.perm
    ordered := fun hord => hqueue ▸ hpolled.ordered hord
    expired := hpolled.expired ▸ hdrained.perm
    cached := by rw [hdrained.cached, hpolled.cached]
    reports := ?_
    completed := ?_ }⟩
  · rw [hlog]
    exact ⟨hasked.answers, hasked.own⟩
  · dsimp only
    rw [hlog]
    exact QueuePolled.reports_mono (.refl _) (subset_append_left _ _) hpolled.reports
  · dsimp only
    rw [hlog]
    intro obj hobj
    obtain ⟨c, hc, hdone⟩ := hdrained.completed obj hobj
    exact ⟨c, mem_append_right _ hc, hdone⟩

namespace PollDone

variable {eng} {ch ch' : DataFlowChannelImpl E} {filled : List Filled} {finished : List Nat}

lemma perm_filter_expired (filled : List Filled) :
    ((filled.filter fun f => f.expired).map Filled.obj ++ (filled.filter fun f => !f.expired).map Filled.obj).Perm
      (filled.map Filled.obj) := by
  rw [← map_append]
  exact (filter_append_perm _ filled).map _

lemma objects (h : PollDone eng ch filled finished ch') :
    (ch'.queue ++ ch'.expiredQueue ++ ch'.cachedResource).Perm
      (ch.queue ++ ch.expiredQueue ++ ch.cachedResource) := by
  have hqueue := Multiset.coe_eq_coe.mpr h.queue
  have hexpired := Multiset.coe_eq_coe.mpr h.expired
  have hfilled := Multiset.coe_eq_coe.mpr (perm_filter_expired filled)
  apply Multiset.coe_eq_coe.mp
  rw [h.cached]
  simp only [← Multiset.coe_add] at hqueue hexpired hfilled ⊢
  rw [← hqueue, ← hfilled]
  generalize (↑((filled.filter fun f => f.expired).map Filled.obj) : Multiset Nat) = timedOut at hexpired ⊢
  generalize (↑((filled.filter fun f => !f.expired).map Filled.obj) : Multiset Nat) = done
  calc (ch'.queue : Multiset Nat) + ch'.expiredQueue + (ch.cachedResource + done + finished)
      = ch'.queue + (finished + ch'.expiredQueue) + (ch.cachedResource + done) := by abel
    _ = ch'.queue + (ch.expiredQueue + timedOut) + (ch.cachedResource + done) := by rw [hexpired]
    _ = timedOut + done + ch'.queue + ch.expiredQueue + ch.cachedResource := by abel

lemma completed_of_mem (h : PollDone eng ch filled finished ch') {obj : Nat}
    (hobj : obj ∈ (filled.filter fun f => !f.expired).map Filled.obj ++ finished) :
    ∃ c ∈ ch'.checks, c.obj = obj ∧ c.completed = true := by
  rcases mem_append.mp hobj with hfilled | hfinished
  · obtain ⟨f, hf, rfl⟩ := mem_map.mp hfilled
    obtain ⟨hf, hexpired⟩ := mem_filter.mp hf
    obtain ⟨c, hc, hwrote⟩ := (h.reports f hf).engine (by simpa using hexpired)
    exact ⟨c, hc, hwrote.obj, hwrote.completed⟩
  · exact h.completed obj hfinished

lemma where_is (h : PollDone eng ch filled finished ch') {obj : Nat}
    (hobj : obj ∈ ch.queue ++ ch.expiredQueue) :
    obj ∈ (filled.filter fun f => !f.expired).map Filled.obj ++ finished ∨ obj ∈ ch'.queue ++ ch'.expiredQueue := by
  have hlate : obj ∈ ch.expiredQueue ++ (filled.filter fun f => f.expired).map Filled.obj →
      obj ∈ (filled.filter fun f => !f.expired).map Filled.obj ++ finished ∨
        obj ∈ ch'.queue ++ ch'.expiredQueue := by
    intro hmem
    rcases mem_append.mp (h.expired.symm.subset hmem) with hdone | hrest
    · exact .inl (mem_append_right _ hdone)
    · exact .inr (mem_append_right _ hrest)
  rcases mem_append.mp hobj with hqueue | hexpired
  · rcases mem_append.mp (h.queue.symm.subset hqueue) with hfilled | hrest
    · rcases mem_append.mp ((perm_filter_expired filled).symm.subset hfilled) with htimeout | hdone
      · exact hlate (mem_append_right _ htimeout)
      · exact .inl (mem_append_left _ hdone)
    · exact .inr (mem_append_left _ hrest)
  · exact hlate (mem_append_left _ hexpired)

end PollDone

structure NotQueued (ch ch' : DataFlowChannelImpl E) : Prop where
  order : ch'.orderType = ch.orderType
  queue : ch'.queue = ch.queue
  expired : ch'.expiredQueue = ch.expiredQueue
  cached : ch'.cachedResource.Perm ch.cachedResource
  request : ∀ obj ∉ ch.cachedResource, ch'.request obj = ch.request obj

structure RequestQueued (eng : DataFlowEngine E) (ch : DataFlowChannelImpl E) (ops : DataFlowOperations)
    (userCtx obj : Nat) (cached : List Nat)
    (ch' : DataFlowChannelImpl E) : Prop where
  order : ch'.orderType = ch.orderType
  queue : ch'.queue = ch.queue ++ [obj]
  expired : ch'.expiredQueue = ch.expiredQueue
  cached_before : ch.cachedResource = obj :: cached
  cached_after : ch'.cachedResource = cached
  owner : (ch'.request obj).userCtx = userCtx ∧ (ch'.request obj).num = ops.num
  request : ∀ o ≠ obj, ch'.request o = ch.request o
  engine : ch'.engine = (eng.submit ch.engine obj (.build ops.num userCtx) ops).2

lemma NotQueued.refl (ch : DataFlowChannelImpl E) : NotQueued ch ch := ⟨rfl, rfl, rfl, .refl _, fun _ _ => rfl⟩

lemma submitRequest_cases (ch : DataFlowChannelImpl E) (ops : DataFlowOperations) (userCtx now : Nat) :
    ((submitRequest eng ch ops userCtx now).1 ≠ .kOk → NotQueued ch (submitRequest eng ch ops userCtx now).2) ∧
      ((submitRequest eng ch ops userCtx now).1 = .kOk →
        ∃ obj cached, RequestQueued eng ch ops userCtx obj cached (submitRequest eng ch ops userCtx now).2) := by
  unfold submitRequest
  cases hcached : ch.cachedResource with
  | nil => exact ⟨fun _ => .refl ch, fun h => StatusCode.noConfusion h⟩
  | cons obj cached =>
    dsimp only
    by_cases hresult : (eng.submit ch.engine obj (.build ops.num userCtx) ops).1 = .kOk
    · rw [if_pos hresult]
      refine ⟨fun hne => absurd hresult hne, fun _ => ⟨obj, cached, ?_⟩⟩
      refine ⟨rfl, rfl, rfl, hcached, rfl, ?_, ?_, rfl⟩
      · dsimp only
        rw [update_self]
        exact ⟨rfl, rfl⟩
      · intro o ho
        exact update_of_ne ho _ _
    · rw [if_neg hresult]
      refine ⟨fun _ => ?_, fun h => absurd h hresult⟩
      refine ⟨rfl, rfl, rfl, ?_, ?_⟩
      · rw [hcached]
        exact perm_append_singleton obj cached
      · intro o ho
        rw [hcached] at ho
        exact update_of_ne (ne_of_not_mem_cons ho) _ _

theorem submit_cases (ch : DataFlowChannelImpl E) (ops : DataFlowOperations) (userCtx now : Nat) :
    ((ch.submit eng ops userCtx now).1 ≠ .kOk → NotQueued ch (ch.submit eng ops userCtx now).2) ∧
      ((ch.submit eng ops userCtx now).1 = .kOk →
        ∃ obj cached, RequestQueued eng ch ops userCtx obj cached (ch.submit eng ops userCtx now).2) := by
  rw [submit_eq]
  by_cases h : PassesChecks ops
  · rw [if_pos h]
    exact submitRequest_cases eng ch ops userCtx now
  · rw [if_neg h]
    exact ⟨fun _ => .refl ch, fun hok => StatusCode.noConfusion hok⟩

def IsRequestOf (req : DataFlowRequest) (a : Accepted E) : Prop := req.userCtx = a.userCtx ∧ req.num = a.ops.num

structure DeliveryInv (order : DataFlowPollOrderType) (run : DataFlowRun E) : Prop where
  orderType : run.channel.orderType = order
  objects : (run.channel.queue ++ run.channel.expiredQueue ++ run.channel.cachedResource).Perm
    (List.range kIoDepthMaximum)
  account : (run.reported.map Prod.fst ++ run.channel.queue.map run.holder).Perm
    ((List.range run.accepted.length).map some)
  ordered : order = .kOrdered → run.reported.map Prod.fst ++ run.channel.queue.map run.holder =
    (List.range run.accepted.length).map some
  owner : ∀ obj ∈ run.channel.queue, ∃ i a, run.holder obj = some i ∧ run.accepted[i]? = some a ∧
    IsRequestOf (run.channel.request obj) a
  reports : ∀ r ∈ run.reported, ∃ i a, r.1 = some i ∧ run.accepted[i]? = some a ∧
    Reports (fun c => (some i, c) ∈ run.checks ∧ IsRequestOf c.request a) a.userCtx r.2
  kept : ∀ i < run.accepted.length, (∃ c, (some i, c) ∈ run.checks ∧ c.completed = true) ∨
    ∃ obj ∈ run.channel.queue ++ run.channel.expiredQueue, run.holder obj = some i

namespace DeliveryInv

variable {eng} {order : DataFlowPollOrderType} {run : DataFlowRun E}

lemma new (timeoutTs : Nat) (e : E) : DeliveryInv order (.new order timeoutTs e) where
  orderType := rfl
  objects := .refl _
  account := .refl _
  ordered := fun _ => rfl
  owner := fun _ hobj => absurd hobj not_mem_nil
  reports := fun _ hr => absurd hr not_mem_nil
  kept := fun _ hi => absurd hi (Nat.not_lt_zero _)

variable {obj : Nat}

lemma not_cached (h : DeliveryInv order run) (hobj : obj ∈ run.channel.queue ++ run.channel.expiredQueue) :
    obj ∉ run.channel.cachedResource := by
  have hnodup := h.objects.nodup_iff.mpr nodup_range
  intro hcached
  exact (nodup_append.mp hnodup).2.2 obj hobj obj hcached rfl

variable {ch' : DataFlowChannelImpl E}

lemma notQueued (h : DeliveryInv order run) (hch : NotQueued run.channel ch') :
    DeliveryInv order { run with channel := ch' } where
  orderType := hch.order.trans h.orderType
  objects := by
    rw [hch.queue, hch.expired]
    exact (hch.cached.append_left _).trans h.objects
  account := by
    rw [hch.queue]
    exact h.account
  ordered := by
    rw [hch.queue]
    exact h.ordered
  owner := by
    dsimp only
    rw [hch.queue]
    intro obj hobj
    rw [hch.request obj (h.not_cached (mem_append_left _ hobj))]
    exact h.owner obj hobj
  reports := h.reports
  kept := by
    dsimp only
    rw [hch.queue, hch.expired]
    exact h.kept

lemma map_holder {holder : Nat → Option Nat} {tag : Option Nat} {objs : List Nat} (h : obj ∉ objs) :
    objs.map (Function.update holder obj tag) = objs.map holder := by
  apply map_congr_left
  intro o ho
  exact update_of_ne (ne_of_mem_of_not_mem ho h) _ _

lemma range_succ_map (n : Nat) : (range (n + 1)).map some = (range n).map some ++ [some n] := by
  rw [range_succ, map_append, map_singleton]

section

variable (h : DeliveryInv order run)
include h

lemma queued {ops : DataFlowOperations} {userCtx : Nat} {cached : List Nat}
    (hch : RequestQueued eng run.channel ops userCtx obj cached ch') :
    DeliveryInv order
      { run with
        channel := ch'
        accepted := run.accepted ++ [⟨ops, userCtx, run.channel.engine⟩]
        holder := Function.update run.holder obj (some run.accepted.length) } := by
  have hnotin : obj ∉ run.channel.queue ++ run.channel.expiredQueue := by
    intro hobj
    apply h.not_cached hobj
    rw [hch.cached_before]
    exact mem_cons_self
  have hqueue : obj ∉ run.channel.queue := fun hobj => hnotin (mem_append_left _ hobj)
  have hmap : ch'.queue.map (Function.update run.holder obj (some run.accepted.length)) =
      run.channel.queue.map run.holder ++ [some run.accepted.length] := by
    rw [hch.queue, map_append, map_holder hqueue, map_singleton, update_self]
  let sub : Accepted E := ⟨ops, userCtx, run.channel.engine⟩
  have hrange : (range (run.accepted ++ [sub]).length).map some =
      (range run.accepted.length).map some ++ [some run.accepted.length] := by
    rw [length_append, length_singleton, range_succ_map]
  have hold : ∀ {i : Nat} {a}, run.accepted[i]? = some a → (run.accepted ++ [sub])[i]? = some a := by
    intro i a hi
    rw [getElem?_append_left (List.getElem?_eq_some_iff.mp hi).1]
    exact hi
  refine ⟨hch.order.trans h.orderType, ?_, ?_, ?_, ?_, ?_, ?_⟩
  · dsimp only
    rw [hch.queue, hch.expired, hch.cached_after]
    have hobjects := h.objects
    rw [hch.cached_before] at hobjects
    refine Perm.trans ?_ hobjects
    simp only [append_assoc, singleton_append]
    apply Perm.append_left
    exact List.perm_middle.symm
  · dsimp only
    rw [hmap, hrange, ← append_assoc]
    exact h.account.append_right _
  · intro hord
    dsimp only
    rw [hmap, hrange, ← append_assoc, h.ordered hord]
  · intro o ho
    dsimp only at ho ⊢
    by_cases heq : o = obj
    · subst heq
      refine ⟨run.accepted.length, sub, update_self _ _ _, ?_, hch.owner⟩
      exact getElem?_concat_length
    · rw [hch.queue] at ho
      have ho' : o ∈ run.channel.queue := by simpa [heq] using ho
      obtain ⟨i, a, hholder, ha, hctx⟩ := h.owner o ho'
      rw [update_of_ne heq, hch.request o heq]
      exact ⟨i, a, hholder, hold ha, hctx⟩
  · intro r hr
    obtain ⟨i, a, hi, ha, hreports⟩ := h.reports r hr
    exact ⟨i, a, hi, hold ha, hreports⟩
  · intro i hi
    dsimp only at hi ⊢
    rw [hch.queue, hch.expired]
    rw [length_append, length_singleton] at hi
    by_cases hlast : i = run.accepted.length
    · refine .inr ⟨obj, by simp, ?_⟩
      rw [update_self, hlast]
    · rcases h.kept i (by omega) with hdone | ⟨o, ho, hholder⟩
      · exact .inl hdone
      · refine .inr ⟨o, ?_, ?_⟩
        · rcases List.mem_append.mp ho with ho | ho
          · exact mem_append_left _ (mem_append_left _ ho)
          · exact mem_append_right _ ho
        · rw [update_of_ne (ne_of_mem_of_not_mem ho hnotin)]
          exact hholder

lemma submit (ops : DataFlowOperations) (userCtx now : Nat) :
    DeliveryInv order (run.submit eng ops userCtx now) := by
  obtain ⟨hfail, hok⟩ := submit_cases eng run.channel ops userCtx now
  unfold DataFlowRun.submit
  generalize run.channel.submit eng ops userCtx now = out at hfail hok
  obtain ⟨result, ch'⟩ := out
  dsimp only at hfail hok ⊢
  by_cases hresult : result = .kOk
  · obtain ⟨obj, cached, hch⟩ := hok hresult
    rw [if_pos hresult, hch.cached_before]
    exact h.queued hch
  · rw [if_neg hresult]
    exact h.notQueued (hfail hresult)

lemma poll (results : List DataFlowResult) (now : Nat) :
    DeliveryInv order (run.poll eng results now) := by
  obtain ⟨finished, hpoll⟩ := pollDone_poll eng run.channel results now
  unfold DataFlowRun.poll
  generalize run.channel.poll eng results now = out at hpoll
  obtain ⟨filled, ch'⟩ := out
  dsimp only at hpoll ⊢
  have htags : (filled.map fun f => (run.holder f.obj, f)).map Prod.fst = (filled.map Filled.obj).map run.holder := by
    rw [map_map, map_map]
    rfl
  have hfilled : ∀ f ∈ filled, f.obj ∈ run.channel.queue := by
    intro f hf
    apply hpoll.queue.subset
    exact mem_append_left _ (mem_map_of_mem hf)
  refine ⟨hpoll.order_same.trans h.orderType, ?_, ?_, ?_, ?_, ?_, ?_⟩
  · exact hpoll.objects.trans h.objects
  · dsimp only
    rw [map_append, htags, append_assoc, ← map_append]
    exact ((hpoll.queue.map run.holder).append_left _).trans h.account
  · intro hord
    dsimp only
    rw [map_append, htags, append_assoc, ← map_append,
      hpoll.ordered (h.orderType.trans hord), h.ordered hord]
  · intro obj hobj
    dsimp only at hobj ⊢
    unfold IsRequestOf
    rw [(hpoll.same obj).1, (hpoll.same obj).2]
    exact h.owner obj (hpoll.queue.subset (mem_append_right _ hobj))
  · intro r hr
    rcases mem_append.mp hr with hr | hr
    · obtain ⟨i, a, hi, ha, hreports⟩ := h.reports r hr
      exact ⟨i, a, hi, ha, hreports.mono fun c hc _ => ⟨mem_append_left _ hc.1, hc.2⟩⟩
    · obtain ⟨f, hf, rfl⟩ := mem_map.mp hr
      obtain ⟨i, a, hholder, ha, howner⟩ := h.owner f.obj (hfilled f hf)
      refine ⟨i, a, hholder, ha, ?_⟩
      rw [← howner.1]
      refine (hpoll.reports f hf).mono fun c hc hobj => ⟨mem_append_right _ (mem_map.mpr ⟨c, hc, ?_⟩), ?_⟩
      · rw [hobj, hholder]
      · obtain ⟨hctx, hnum⟩ := hpoll.asked.own c hc
        rw [hobj] at hctx hnum
        exact ⟨hctx.trans howner.1, hnum.trans howner.2⟩
  · intro i hi
    dsimp only
    rcases h.kept i hi with hdone | ⟨obj, hobj, hholder⟩
    · obtain ⟨c, hc, hcompleted⟩ := hdone
      exact .inl ⟨c, mem_append_left _ hc, hcompleted⟩
    · rcases hpoll.where_is hobj with hdone | hkept
      · obtain ⟨c, hc, rfl, hcompleted⟩ := hpoll.completed_of_mem hdone
        refine .inl ⟨c, mem_append_right _ (mem_map.mpr ⟨c, hc, ?_⟩), hcompleted⟩
        rw [hholder]
      · exact .inr ⟨obj, hkept, hholder⟩

lemma step {ev : DataFlowEvent E} {run' : DataFlowRun E} (hev : run.step eng ev = .ok run') :
    DeliveryInv order run' := by
  cases ev with
  | submit ops userCtx now => exact Except.ok.inj hev ▸ h.submit ops userCtx now
  | poll results now => exact Except.ok.inj hev ▸ h.poll results now
  | engine change => exact Except.ok.inj hev ▸ h.notQueued ⟨rfl, rfl, rfl, .refl _, fun _ _ => rfl⟩

end

end DeliveryInv

variable {order : DataFlowPollOrderType} {run : DataFlowRun E}

theorem deliveryInv_of_runs {timeoutTs : Nat} {e : E}
    (h : Runs (step eng) (fun _ _ => True) (.new order timeoutTs e) run) : DeliveryInv order run :=
  h.invariant (.new timeoutTs e) fun _ _ _ hinv _ hev => hinv.step hev

structure Delivers (order : DataFlowPollOrderType) (run : DataFlowRun E) : Prop where
  /-- `queue_`, `expired_queue_` and `cached_resource_` partition the objects. -/
  partition : (run.channel.queue ++ run.channel.expiredQueue ++ run.channel.cachedResource).Perm
    (List.range kIoDepthMaximum)
  /-- No submission is reported twice. -/
  once : (run.reported.map Prod.fst).Nodup
  /-- What is reported is an accepted submission, with its own `user_ctx`, and with what the engine has
  written for this submission unless it has expired. -/
  own : ∀ r ∈ run.reported, ∃ i a, r.1 = some i ∧ run.accepted[i]? = some a ∧
    Reports (fun c => (some i, c) ∈ run.checks ∧ IsRequestOf c.request a) a.userCtx r.2
  /-- The calls of `CheckCompletion` by a poll are answered by the engine, from its state at the call. -/
  asked : ∀ results now, Asked eng run.channel (run.poll eng results now).channel
    (run.poll eng results now).channel.checks
  /-- What is reported is no longer in the queue. -/
  gone : ∀ r ∈ run.reported, ∀ obj ∈ run.channel.queue, run.holder obj ≠ r.1
  /-- A submission that fails leaves no object behind. -/
  refused : ∀ ops userCtx now, (run.channel.submit eng ops userCtx now).1 ≠ .kOk →
    (run.submit eng ops userCtx now).accepted = run.accepted ∧
      (run.submit eng ops userCtx now).channel.queue = run.channel.queue ∧
      (run.submit eng ops userCtx now).channel.expiredQueue = run.channel.expiredQueue ∧
      (run.submit eng ops userCtx now).channel.cachedResource.Perm run.channel.cachedResource
  /-- An object stays with its submission until the engine has reported it completed. -/
  kept : ∀ i < run.accepted.length, (∃ c, (some i, c) ∈ run.checks ∧ c.completed = true) ∨
    ∃ obj ∈ run.channel.queue ++ run.channel.expiredQueue, run.holder obj = some i
  ordered : order = .kOrdered →
    run.reported.map (fun r => r.2.after.ctx) <+: run.accepted.map Accepted.userCtx

lemma DeliveryInv.nodup (h : DeliveryInv order run) :
    (run.reported.map Prod.fst ++ run.channel.queue.map run.holder).Nodup :=
  h.account.nodup_iff.mpr (nodup_range.map (Option.some_injective Nat))

lemma submit_refused (run : DataFlowRun E) (ops : DataFlowOperations) (userCtx now : Nat)
    (hfail : (run.channel.submit eng ops userCtx now).1 ≠ .kOk) :
    run.submit eng ops userCtx now = { run with channel := (run.channel.submit eng ops userCtx now).2 } ∧
      NotQueued run.channel (run.channel.submit eng ops userCtx now).2 := by
  constructor
  · unfold DataFlowRun.submit
    exact if_neg hfail
  · exact (submit_cases eng run.channel ops userCtx now).1 hfail

lemma DeliveryInv.ctxs (h : DeliveryInv order run) (hord : order = .kOrdered) :
    run.reported.map (fun r => r.2.after.ctx) <+: run.accepted.map Accepted.userCtx := by
  have hlen : run.reported.length ≤ run.accepted.length := by
    have := congrArg List.length (h.ordered hord)
    simp only [length_append, length_map, length_range] at this
    omega
  rw [prefix_iff_eq_take]
  apply ext_getElem
  · simp [hlen]
  · intro k hk hk'
    rw [length_map] at hk
    obtain ⟨i, a, hi, ha, hreports⟩ := h.reports run.reported[k] (getElem_mem hk)
    -- the k-th report is of the k-th submission
    have htag : (run.reported.map Prod.fst ++ run.channel.queue.map run.holder)[k]? =
        ((range run.accepted.length).map some)[k]? := by rw [h.ordered hord]
    rw [getElem?_append_left (by simpa using hk)] at htag
    have hik : i = k := by
      simp [hk, hlen.trans_lt', hi] at htag
      exact htag
    subst hik
    rw [getElem_map, getElem_take, getElem_map, hreports.ctx]
    have := (List.getElem?_eq_some_iff.mp ha).2
    rw [this]

/-- In every run, with any engine and any clock, the channel delivers. -/
theorem dataFlow_channel_delivers {order : DataFlowPollOrderType} {timeoutTs : Nat} {e : E} {run : DataFlowRun E}
    (h : Runs (step eng) (fun _ _ => True) (.new order timeoutTs e) run) : Delivers eng order run := by
  have hinv := deliveryInv_of_runs eng h
  have hnodup := List.nodup_append.mp hinv.nodup
  refine ⟨hinv.objects, hnodup.1, hinv.reports, ?_, ?_, ?_, hinv.kept, hinv.ctxs⟩
  · intro results now
    obtain ⟨finished, hpoll⟩ := pollDone_poll eng run.channel results now
    exact hpoll.asked
  · intro r hr obj hobj heq
    exact hnodup.2.2 r.1 (List.mem_map_of_mem hr) (run.holder obj) (List.mem_map_of_mem hobj) heq.symm
  · intro ops userCtx now hfail
    obtain ⟨heq, hch⟩ := submit_refused eng run ops userCtx now hfail
    rw [heq]
    exact ⟨rfl, hch.queue, hch.expired, hch.cached⟩

def slowEngine : DataFlowEngine Bool where
  submit := fun ready _ _ _ => (.kOk, ready)
  checkCompletion := fun ready _ req _ => (ready, ⟨.kOk, [], req.userCtx⟩, ready)
  ctx_of_completed := fun _ _ _ _ _ => rfl

/-- Two requests expire, are reported, and come back when the engine has finished them. -/
theorem dataFlow_channel_delivers_late :
    ∃ run, Runs (step slowEngine) (fun _ _ => True) (.new .kOrdered 3000 false) run ∧
      (run.reported.map fun r => r.2.after.status) = [.kTimeout, .kTimeout] ∧
      run.channel.cachedResource.length = kIoDepthMaximum ∧ Delivers slowEngine .kOrdered run := by
  obtain ⟨run, hruns, _, hgoal⟩ := exists_runs_of_reaches (step slowEngine)
    (.new .kOrdered 3000 false)
    [.submit (.crc [⟨0x1000, 8, 0⟩]) 7 0, .submit (.crc [⟨0x2000, 8, 0⟩]) 8 1,
      .poll [discardedResult, discardedResult] 3001, .poll [discardedResult, discardedResult] 3002,
      .engine (fun _ => true), .poll [discardedResult] 3003]
    (fun _ _ => true)
    (fun run => decide ((run.reported.map fun r => r.2.after.status) = [.kTimeout, .kTimeout] ∧
      run.channel.cachedResource.length = kIoDepthMaximum))
    (fun _ _ _ => trivial) (by decide +kernel)
  have hgoal := of_decide_eq_true hgoal
  exact ⟨run, hruns, hgoal.1, hgoal.2, dataFlow_channel_delivers slowEngine hruns⟩

end Vesal.Proofs
