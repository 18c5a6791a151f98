import Vesal.Proofs.ChecksumCompute
import Vesal.Proofs.DataFlowDelivery

/-! # CRC results of the software engine -/

namespace Vesal.Proofs

open Library DataFlowChannelImpl List Function SwEngine DataFlowRun

variable (ch : DataFlowChannelImpl SwState) (mem : Memory) (ops : DataFlowOperations)
  (op : DataFlowMoveOperation)

def performMove : Memory :=
  (SwEngine.moveSegments op.dst (op.src.zip op.srcLen) 0 mem).2

def movedLength : Nat := ((op.src.zip op.srcLen).map Prod.snd).sum

def registerCrc (seed : BitVec 64) (bytes : List UInt8) : BitVec 64 :=
  (crcUpdate (seed.setWidth 32) bytes).setWidth 64

def moveCrc : BitVec 64 :=
  if op.enableCrc then registerCrc op.seed (readBytes (performMove mem op) op.dst (movedLength op)) else 0

def operationCrc : DataFlowOperations → Nat → BitVec 64
  | .move ops, i =>
    match ops[i]? with
    | some op => moveCrc ((ops.take i).foldl performMove mem) op
    | none => 0
  | .crc ops, i =>
    match ops[i]? with
    | some op => registerCrc op.seed (readBytes mem op.src op.len)
    | none => 0

def operationCrcs : List (BitVec 64) :=
  (List.range ops.num).map (operationCrc mem ops)

lemma crcOf_eq (seed : BitVec 64) (mem : Memory) (addr len : Nat) :
    SwEngine.crcOf seed mem addr len = registerCrc seed (readBytes mem addr len) := by
  unfold SwEngine.crcOf registerCrc
  rw [computeCRC32_eq]

lemma moveSegments_offset (dst : Nat) (segments : List (Nat × Nat)) (offset : Nat) (mem : Memory) :
    (moveSegments dst segments offset mem).1 = offset + (segments.map Prod.snd).sum := by
  induction segments generalizing offset mem with
  | nil => rfl
  | cons segment segments ih =>
    unfold moveSegments
    rw [ih, map_cons, sum_cons, Nat.add_assoc]

lemma moveSegments_outside (dst : Nat) (segments : List (Nat × Nat)) (offset : Nat) (mem : Memory) {a : Nat}
    (ha : a < dst + offset ∨ dst + offset + (segments.map Prod.snd).sum ≤ a) :
    (moveSegments dst segments offset mem).2 a = mem a := by
  induction segments generalizing offset mem with
  | nil => rfl
  | cons segment segments ih =>
    obtain ⟨src, len⟩ := segment
    rw [map_cons, sum_cons] at ha
    refine (ih (offset + len) _ (by omega)).trans (writeBytes_outside _ _ _ ?_)
    rw [readBytes_length]
    omega

lemma readBytes_moveSegments {dst : Nat} {segments : List (Nat × Nat)} (offset : Nat) {mem : Memory}
    (happart : ∀ s ∈ segments, Extent.Disjoint ⟨s.1, s.2⟩ ⟨dst + offset, (segments.map Prod.snd).sum⟩) :
    readBytes (moveSegments dst segments offset mem).2 (dst + offset) (segments.map Prod.snd).sum =
      segments.flatMap fun s => readBytes mem s.1 s.2 := by
  induction segments generalizing offset mem with
  | nil => rfl
  | cons segment segments ih =>
    obtain ⟨src, len⟩ := segment
    unfold Extent.Disjoint at happart ih
    simp only [map_cons, sum_cons] at happart ⊢
    rw [readBytes_add, flatMap_cons, Nat.add_assoc dst offset len]
    congr 1
    · -- the segments behind this one leave its bytes alone
      have hwritten := readBytes_writeBytes mem (dst + offset) (readBytes mem src len)
      rw [readBytes_length] at hwritten
      refine (readBytes_congr ?_).trans hwritten
      intro a _ hhi
      exact moveSegments_outside dst segments (offset + len) _ (.inl (by omega))
    · refine (ih (offset + len) fun s hs => ?_).trans ?_
      · have := happart s (mem_cons_of_mem _ hs)
        dsimp only
        omega
      · apply flatMap_congr
        intro s hs
        apply readBytes_writeBytes_disjoint
        have := happart s (mem_cons_of_mem _ hs)
        unfold Extent.Disjoint
        rw [readBytes_length]
        dsimp only
        omega

/-- A move from memory apart from its destination leaves there the bytes of its sources, one behind
the other. -/
theorem readBytes_performMove
    (happart : ∀ s ∈ op.src.zip op.srcLen, Extent.Disjoint ⟨s.1, s.2⟩ ⟨op.dst, movedLength op⟩) :
    readBytes (performMove mem op) op.dst (movedLength op) =
      (op.src.zip op.srcLen).flatMap fun s => readBytes mem s.1 s.2 :=
  readBytes_moveSegments 0 happart

lemma submitMoves_cons (ops : List DataFlowMoveOperation) (i : Nat)
    (swCtx : Nat → BitVec 64) (mem : Memory) :
    submitMoves (op :: ops) i swCtx mem =
      submitMoves ops (i + 1) (Function.update swCtx i (moveCrc mem op)) (performMove mem op) := by
  have hoffset := moveSegments_offset op.dst (op.src.zip op.srcLen) 0 mem
  rw [Nat.zero_add] at hoffset
  conv_lhs => unfold submitMoves
  dsimp only
  rw [hoffset, crcOf_eq]
  rfl

lemma submitMoves_apply (ops : List DataFlowMoveOperation) (i : Nat) (swCtx : Nat → BitVec 64) (mem : Memory) :
    (∀ k < i, (submitMoves ops i swCtx mem).1 k = swCtx k) ∧
      ∀ k < ops.length, (submitMoves ops i swCtx mem).1 (i + k) = operationCrc mem (.move ops) k := by
  induction ops generalizing i swCtx mem with
  | nil => exact ⟨fun _ _ => rfl, fun _ hk => absurd hk (Nat.not_lt_zero _)⟩
  | cons op ops ih =>
    obtain ⟨hbefore, hops⟩ := ih (i + 1) (Function.update swCtx i (moveCrc mem op)) (performMove mem op)
    rw [submitMoves_cons]
    constructor
    · intro k hk
      rw [hbefore k (by omega)]
      exact update_of_ne (by omega) _ _
    · intro k hk
      cases k with
      | zero =>
        exact (hbefore i (by omega)).trans (update_self _ _ _)
      | succ k =>
        rw [show i + (k + 1) = i + 1 + k by omega, hops k (by simpa using hk)]
        rfl

lemma submitCrcs_apply (ops : List DataFlowCrcOperation) (i : Nat) (swCtx : Nat → BitVec 64) :
    (∀ k < i, submitCrcs mem ops i swCtx k = swCtx k) ∧
      ∀ k < ops.length, submitCrcs mem ops i swCtx (i + k) = operationCrc mem (.crc ops) k := by
  induction ops generalizing i swCtx with
  | nil => exact ⟨fun _ _ => rfl, fun _ hk => absurd hk (Nat.not_lt_zero _)⟩
  | cons op ops ih =>
    unfold submitCrcs
    obtain ⟨hbefore, hops⟩ := ih (i + 1) (Function.update swCtx i (SwEngine.crcOf op.seed mem op.src op.len))
    constructor
    · intro k hk
      rw [hbefore k (by omega)]
      exact update_of_ne (by omega) _ _
    · intro k hk
      cases k with
      | zero =>
        refine (hbefore i (by omega)).trans ?_
        rw [update_self, crcOf_eq]
        rfl
      | succ k =>
        rw [show i + (k + 1) = i + 1 + k by omega, hops k (by simpa using hk)]
        rfl

/-- `sw_ctx` holds the CRC of each operation. -/
theorem swCtx_submit (e : SwState) (obj : Nat) (req : DataFlowRequest) (ops : DataFlowOperations) :
    (range ops.num).map ((SwEngine.submit e obj req ops).2.swCtx obj) = operationCrcs e.mem ops := by
  apply map_congr_left
  intro k hk
  rw [mem_range] at hk
  cases ops with
  | move ops =>
    have h := (submitMoves_apply ops 0 (e.swCtx obj) e.mem).2 k hk
    rw [Nat.zero_add] at h
    unfold SwEngine.submit
    dsimp only
    rw [update_self]
    exact h
  | crc ops =>
    have h := (submitCrcs_apply e.mem ops 0 (e.swCtx obj)).2 k hk
    rw [Nat.zero_add] at h
    unfold SwEngine.submit
    dsimp only
    rw [update_self]
    exact h

lemma swCtx_submit_of_ne (e : SwState) {obj o : Nat} (req : DataFlowRequest) (ops : DataFlowOperations) (h : o ≠ obj) :
    (SwEngine.submit e obj req ops).2.swCtx o = e.swCtx o := by
  cases ops <;> exact update_of_ne h _ _

def Appends (f : Filled) : Prop :=
  f.expired = false → f.after.crcOutput =
    f.before.crcOutput ++ (List.range (ch.request f.obj).num).map (ch.engine.swCtx f.obj)

lemma Appends.congr {ch ch' : DataFlowChannelImpl SwState} {f : Filled} (h : Appends ch' f)
    (hsame : SameRequests ch.request ch'.request) (hengine : ch'.engine = ch.engine) : Appends ch f := by
  intro hexpired
  rw [h hexpired, hengine, (hsame f.obj).2]

lemma appends_pollLoop (queue : List Nat) (results : List DataFlowResult) (ch : DataFlowChannelImpl SwState) :
    (pollLoop swEngine queue results ch).2.1.engine = ch.engine ∧
      ∀ f ∈ (pollLoop swEngine queue results ch).2.2, Appends ch f := by
  induction queue generalizing results ch with
  | nil =>
    exact ⟨rfl, fun _ hf => absurd hf not_mem_nil⟩
  | cons obj queue ih =>
    cases results with
    | nil =>
      exact ⟨rfl, fun _ hf => absurd hf not_mem_nil⟩
    | cons entry results =>
      unfold pollLoop
      by_cases hexpired : (ch.request obj).expired = true
      · rw [if_pos hexpired]
        obtain ⟨hengine, hfilled⟩ := ih results { ch with expiredQueue := ch.expiredQueue ++ [obj] }
        refine ⟨hengine, ?_⟩
        exact forall_mem_cons.mpr ⟨fun h => Bool.noConfusion h, hfilled⟩
      · rw [if_neg hexpired]
        -- the software engine has completed every request
        obtain ⟨c, hchecked, -⟩ := checked_check swEngine ch obj entry
        have hsame := hchecked.same
        have hengine₁ : (check swEngine ch obj entry).2.2.engine = ch.engine := rfl
        have hentry : Appends ch ⟨obj, entry, (check swEngine ch obj entry).2.1, false⟩ := fun _ => rfl
        have hcompleted : (check swEngine ch obj entry).1 = true := rfl
        clear hchecked
        generalize check swEngine ch obj entry = out at hsame hengine₁ hentry hcompleted
        obtain ⟨completed, after, ch₁⟩ := out
        subst hcompleted
        obtain ⟨hengine, hfilled⟩ := ih results
          { ch₁ with timerManager := ch₁.removeTimer obj, cachedResource := ch₁.cachedResource ++ [obj] }
        refine ⟨hengine.trans hengine₁, ?_⟩
        exact forall_mem_cons.mpr ⟨hentry, fun f hf => (hfilled f hf).congr hsame hengine₁⟩

lemma engine_expiredLoop (queue : List Nat) (ch : DataFlowChannelImpl SwState) :
    (expiredLoop swEngine queue ch).2.engine = ch.engine := by
  induction queue generalizing ch with
  | nil => rfl
  | cons obj queue ih => exact ih _

lemma appends_poll (results : List DataFlowResult) (now : Nat) :
    (ch.poll swEngine results now).2.engine = ch.engine ∧
      ∀ f ∈ (ch.poll swEngine results now).1, Appends ch f := by
  obtain ⟨hengine, hfilled⟩ := appends_pollLoop ch.queue results { ch with checks := [] }
  exact ⟨(engine_expiredLoop _ _).trans hengine, hfilled⟩

def KeepsSwCtx (_run : DataFlowRun SwState) : DataFlowEvent SwState → Prop
  | .engine change => ∀ e, (change e).swCtx = e.swCtx
  | _ => True

def StoresCrcs (a : Accepted SwState) (f : Filled) : Prop :=
  f.after.status = .kOk → (f.after.crcOutput = operationCrcs a.engine.mem a.ops ↔ f.before.crcOutput = [])

structure CrcInv (run : DataFlowRun SwState) : Prop where
  waiting : ∀ obj ∈ run.channel.queue, ∃ i a, run.holder obj = some i ∧ run.accepted[i]? = some a ∧
    (run.channel.request obj).num = a.ops.num ∧
    (List.range a.ops.num).map (run.channel.engine.swCtx obj) = operationCrcs a.engine.mem a.ops
  stored : ∀ r ∈ run.reported, ∃ i a, r.1 = some i ∧ run.accepted[i]? = some a ∧ StoresCrcs a r.2

lemma sw_submit_refused (userCtx now : Nat)
    (hfail : (ch.submit swEngine ops userCtx now).1 ≠ .kOk) : (ch.submit swEngine ops userCtx now).2 = ch := by
  rw [submit_eq] at hfail ⊢
  by_cases h : PassesChecks ops
  · rw [if_pos h] at hfail ⊢
    unfold submitRequest at hfail ⊢
    cases hcached : ch.cachedResource with
    | nil => rfl
    | cons obj cached =>
      rw [hcached] at hfail
      have hok : (swEngine.submit ch.engine obj (.build ops.num userCtx) ops).1 = .kOk := by cases ops <;> rfl
      exact absurd (by dsimp only; rw [if_pos hok]; exact hok) hfail
  · rw [if_neg h]

namespace CrcInv

variable {run : DataFlowRun SwState}

lemma queued (h : CrcInv run) {ops : DataFlowOperations} {userCtx obj : Nat} {cached : List Nat}
    {ch' : DataFlowChannelImpl SwState}
    (hch : RequestQueued swEngine run.channel ops userCtx obj cached ch') :
    CrcInv
      { run with
        channel := ch'
        accepted := run.accepted ++ [⟨ops, userCtx, run.channel.engine⟩]
        holder := Function.update run.holder obj (some run.accepted.length) } := by
  let sub : Accepted SwState := ⟨ops, userCtx, run.channel.engine⟩
  have hold : ∀ {i : Nat} {a}, run.accepted[i]? = some a → (run.accepted ++ [sub])[i]? = some a := by
    intro i a hi
    rw [getElem?_append_left (List.getElem?_eq_some_iff.mp hi).1]
    exact hi
  constructor
  · intro o ho
    dsimp only at ho ⊢
    rw [hch.engine]
    by_cases heq : o = obj
    · subst heq
      refine ⟨run.accepted.length, sub, update_self _ _ _, getElem?_concat_length, hch.owner.2, ?_⟩
      exact swCtx_submit run.channel.engine o (.build ops.num userCtx) ops
    · have ho' : o ∈ run.channel.queue := by
        rw [hch.queue] at ho
        simpa [heq] using ho
      obtain ⟨i, a, hholder, ha, hnum, hcrcs⟩ := h.waiting o ho'
      refine ⟨i, a, ?_, hold ha, ?_, ?_⟩
      · rw [update_of_ne heq]
        exact hholder
      · rw [hch.request o heq]
        exact hnum
      · rw [← hcrcs]
        exact congrArg (List.map · _) (swCtx_submit_of_ne run.channel.engine (.build ops.num userCtx) ops heq)
  · intro r hr
    obtain ⟨i, a, hi, ha, hstores⟩ := h.stored r hr
    exact ⟨i, a, hi, hold ha, hstores⟩

lemma submit (h : CrcInv run) (ops : DataFlowOperations)
    (userCtx now : Nat) : CrcInv (run.submit swEngine ops userCtx now) := by
  by_cases hok : (run.channel.submit swEngine ops userCtx now).1 = .kOk
  · obtain ⟨obj, cached, hch⟩ := (submit_cases swEngine run.channel ops userCtx now).2 hok
    unfold DataFlowRun.submit
    dsimp only
    rw [if_pos hok, hch.cached_before]
    exact h.queued hch
  · rw [(submit_refused swEngine run ops userCtx now hok).1, sw_submit_refused _ _ _ _ hok]
    exact h

lemma storesCrcs {f : Filled} {a : Accepted SwState} {P : CompletionCheck SwState → Prop} (happends : Appends run.channel f)
    (hreports : Reports P (run.channel.request f.obj).userCtx f)
    (hnum : (run.channel.request f.obj).num = a.ops.num)
    (hcrcs : (range a.ops.num).map (run.channel.engine.swCtx f.obj) = operationCrcs a.engine.mem a.ops) :
    StoresCrcs a f := by
  intro hok
  cases hexpired : f.expired with
  | true =>
    rw [hreports.timeout hexpired] at hok
    exact StatusCode.noConfusion hok
  | false =>
    rw [happends hexpired, hnum, hcrcs]
    exact append_left_eq_self

lemma poll (h : CrcInv run) (results : List DataFlowResult) (now : Nat) :
    CrcInv (run.poll swEngine results now) := by
  obtain ⟨finished, hpoll⟩ := pollDone_poll swEngine run.channel results now
  obtain ⟨hengine, hfilled⟩ := appends_poll run.channel results now
  unfold DataFlowRun.poll
  generalize run.channel.poll swEngine results now = out at hpoll hengine hfilled
  constructor
  · intro obj hobj
    rw [hengine, (hpoll.same obj).2]
    exact h.waiting obj (hpoll.queue.subset (mem_append_right _ hobj))
  · intro r hr
    rcases mem_append.mp hr with hr | hr
    · exact h.stored r hr
    · obtain ⟨f, hf, rfl⟩ := mem_map.mp hr
      have hobj : f.obj ∈ run.channel.queue := hpoll.queue.subset (mem_append_left _ (mem_map_of_mem hf))
      obtain ⟨i, a, hholder, ha, hnum, hcrcs⟩ := h.waiting f.obj hobj
      exact ⟨i, a, hholder, ha, storesCrcs (hfilled f hf) (hpoll.reports f hf) hnum hcrcs⟩

lemma step (h : CrcInv run) {ev : DataFlowEvent SwState}
    {run' : DataFlowRun SwState} (hallowed : KeepsSwCtx run ev) (hev : run.step swEngine ev = .ok run') :
    CrcInv run' := by
  cases ev with
  | submit ops userCtx now => exact Except.ok.inj hev ▸ h.submit ops userCtx now
  | poll results now => exact Except.ok.inj hev ▸ h.poll results now
  | engine change =>
    rw [← Except.ok.inj hev]
    refine ⟨?_, h.stored⟩
    dsimp only
    rw [hallowed]
    exact h.waiting

end CrcInv

lemma crcInv_of_runs {order : DataFlowPollOrderType} {timeoutTs : Nat} {e : SwState} {run : DataFlowRun SwState}
    (h : Runs (step swEngine) KeepsSwCtx (.new order timeoutTs e) run) : CrcInv run :=
  h.invariant ⟨fun _ hobj => absurd hobj not_mem_nil, fun _ hr => absurd hr not_mem_nil⟩
    fun _ _ _ hinv hallowed hev => hinv.step hallowed hev

lemma eq_operationCrcs_iff (out : List (BitVec 64)) :
    out = operationCrcs mem ops ↔
      out.length = ops.num ∧ ∀ k < ops.num, out[k]? = some (operationCrc mem ops k) := by
  unfold operationCrcs
  constructor
  · rintro rfl
    refine ⟨by simp, ?_⟩
    intro k hk
    simp [hk]
  · rintro ⟨hlen, hget⟩
    apply ext_getElem?
    intro k
    by_cases hk : k < ops.num
    · rw [hget k hk]
      simp [hk]
    · rw [getElem?_eq_none (by omega), getElem?_eq_none (by simpa using hk)]

/-- In every run on the software engine, an entry that `Poll` fills with `kOk` has one CRC for each
operation of its request, and nothing else, exactly when its `crc_output` was empty before. -/
theorem polled_crcs_iff_entry_empty {order : DataFlowPollOrderType} {timeoutTs : Nat} {e : SwState}
    {run : DataFlowRun SwState} (h : Runs (step swEngine) KeepsSwCtx (.new order timeoutTs e) run)
    (r : Option Nat × Filled) (hr : r ∈ run.reported) (hok : r.2.after.status = .kOk) :
    ∃ i a, r.1 = some i ∧ run.accepted[i]? = some a ∧
      ((r.2.after.crcOutput.length = a.ops.num ∧
          ∀ k < a.ops.num, r.2.after.crcOutput[k]? = some (operationCrc a.engine.mem a.ops k)) ↔
        r.2.before.crcOutput = []) := by
  obtain ⟨i, a, hi, ha, hstores⟩ := (crcInv_of_runs h).stored r hr
  refine ⟨i, a, hi, ha, ?_⟩
  rw [← eq_operationCrcs_iff]
  exact hstores hok

/-- Two requests with one operation each; the second poll gets the entry as the first has left it. -/
def reusedEntry : List (DataFlowEvent SwState) :=
  [.submit (.crc [⟨0x1000, 1, 0⟩]) 7 0, .poll [discardedResult] 1,
    .submit (.crc [⟨0x1000, 1, 0⟩]) 8 2, .poll [⟨.kOk, [0], 7⟩] 3]

def isCall : DataFlowEvent SwState → Bool
  | .engine _ => false
  | _ => true

lemma keepsSwCtx_of_isCall (run : DataFlowRun SwState) (ev : DataFlowEvent SwState) (h : isCall ev = true) :
    KeepsSwCtx run ev := by
  cases ev with
  | submit => trivial
  | poll => trivial
  | engine => exact Bool.noConfusion h

lemma reusedEntry_runs :
    ∃ run, Runs (step swEngine) KeepsSwCtx (.new .kOrdered 3000 ⟨fun _ => 0, fun _ _ => 0⟩) run ∧
      (run.accepted.map fun a => a.ops.num) = [1, 1] ∧
      (run.reported.map fun r => (r.1, r.2.after)) =
        [(some 0, ⟨.kOk, [0], 7⟩), (some 1, ⟨.kOk, [0, 0], 8⟩)] := by
  obtain ⟨run, hruns, _, hgoal⟩ := exists_runs_of_reaches (step swEngine)
    (.new .kOrdered 3000 ⟨fun _ => 0, fun _ _ => 0⟩) reusedEntry
    (fun _ ev => isCall ev)
    (fun run => decide ((run.accepted.map fun a => a.ops.num) = [1, 1] ∧
      (run.reported.map fun r => (r.1, r.2.after)) =
        [(some 0, ⟨.kOk, [0], 7⟩), (some 1, ⟨.kOk, [0, 0], 8⟩)]))
    keepsSwCtx_of_isCall (by decide +kernel)
  exact ⟨run, hruns, of_decide_eq_true hgoal⟩

/-- The second entry has two CRCs for the one operation of its request. -/
theorem reused_entry_keeps_old_crc :
    ∃ run, Runs (step swEngine) KeepsSwCtx (.new .kOrdered 3000 ⟨fun _ => 0, fun _ _ => 0⟩) run ∧
      ∃ r ∈ run.reported, ∃ a, r.1 = some 1 ∧ run.accepted[1]? = some a ∧ r.2.after.status = .kOk ∧
        a.ops.num = 1 ∧ r.2.after.crcOutput.length = 2 := by
  obtain ⟨run, hruns, haccepted, hreported⟩ := reusedEntry_runs
  have hmem : (some 1, (⟨.kOk, [0, 0], 8⟩ : DataFlowResult)) ∈ run.reported.map fun r => (r.1, r.2.after) := by
    rw [hreported]
    exact List.mem_cons_of_mem _ List.mem_cons_self
  obtain ⟨r, hr, heq⟩ := List.mem_map.mp hmem
  obtain ⟨htag, hafter⟩ := Prod.mk.inj heq
  have hsecond : (run.accepted.map fun a => a.ops.num)[1]? = some 1 := by rw [haccepted]; rfl
  rw [List.getElem?_map] at hsecond
  obtain ⟨a, ha, hnum⟩ := Option.map_eq_some_iff.mp hsecond
  refine ⟨run, hruns, r, hr, a, htag, ha, ?_, hnum, ?_⟩
  · rw [hafter]
  · rw [hafter]
    rfl

theorem polled_crcs_iff_entry_empty_reused :
    ∃ run r, Runs (step swEngine) KeepsSwCtx (.new .kOrdered 3000 ⟨fun _ => 0, fun _ _ => 0⟩) run ∧
      r ∈ run.reported ∧ r.2.after.status = .kOk ∧ ∃ i a, r.1 = some i ∧ run.accepted[i]? = some a ∧
      ((r.2.after.crcOutput.length = a.ops.num ∧
          ∀ k < a.ops.num, r.2.after.crcOutput[k]? = some (operationCrc a.engine.mem a.ops k)) ↔
        r.2.before.crcOutput = []) := by
  obtain ⟨run, hruns, _, hreported⟩ := reusedEntry_runs
  have hmem : (some 0, (⟨.kOk, [0], 7⟩ : DataFlowResult)) ∈ run.reported.map fun r => (r.1, r.2.after) := by
    rw [hreported]
    exact List.mem_cons_self
  obtain ⟨r, hr, heq⟩ := List.mem_map.mp hmem
  have hok : r.2.after.status = .kOk := by rw [(Prod.mk.inj heq).2]
  exact ⟨run, r, hruns, hr, hok, polled_crcs_iff_entry_empty hruns r hr hok⟩

end Vesal.Proofs
