import Vesal.QatPollerWorker

/-! # The order of the callbacks of a worker -/

namespace Vesal.Proofs

open Library QatPollerWorker List

variable {E : Type}

def IsFailed (task : WorkerTask) : Bool := decide (task.submitR ≠ .kOk)

def failedOf (tasks : List WorkerTask) : List WorkerTask := tasks.filter IsFailed

def acceptedOf (tasks : List WorkerTask) : List WorkerTask := tasks.filter fun task => !IsFailed task

structure Pending (w : QatPollerWorker E) (waiting rest : List WorkerTask) : Prop where
  ids : rest.map WorkerTask.reqId = List.range' w.expectedReqId rest.length
  next : w.reqId = w.expectedReqId + rest.length
  failed : w.submitFailedTasks = failedOf rest
  accepted : waiting = acceptedOf rest
  inflight : w.inflightNum = waiting.length

namespace Pending

variable {w : QatPollerWorker E} {waiting rest : List WorkerTask} {task : WorkerTask}

section

variable (h : Pending w waiting (task :: rest))
include h

lemma head_id : task.reqId = w.expectedReqId := by
  have hids := h.ids
  rw [map_cons, length_cons, range'_succ] at hids
  exact (List.cons.inj hids).1

lemma tail_ids :
    rest.map WorkerTask.reqId = range' (w.expectedReqId + 1) rest.length := by
  have hids := h.ids
  exact (List.cons.inj hids).2

lemma tail_next : w.reqId = w.expectedReqId + 1 + rest.length := by
  rw [h.next, length_cons]
  omega

lemma tryProcess_of_failed (htask : IsFailed task = true) :
    w.tryProcessOneFailedTask = some (⟨task, submitFailedResult task⟩,
      { w with expectedReqId := w.expectedReqId + 1, submitFailedTasks := failedOf rest }) := by
  have hfailed : w.submitFailedTasks = task :: failedOf rest := by
    rw [h.failed]
    exact filter_cons_of_pos htask
  unfold tryProcessOneFailedTask matchedExpReqId
  rw [hfailed]
  dsimp only
  rw [if_neg (not_not.mpr h.head_id)]
  rfl

lemma tail_of_failed (htask : IsFailed task = true) :
    Pending { w with expectedReqId := w.expectedReqId + 1, submitFailedTasks := failedOf rest } waiting rest where
  ids := h.tail_ids
  next := h.tail_next
  failed := rfl
  accepted := by
    rw [h.accepted]
    exact filter_cons_of_neg (by simp [htask])
  inflight := h.inflight

lemma tryProcess_of_accepted (htask : IsFailed task = false) :
    w.tryProcessOneFailedTask = none := by
  unfold tryProcessOneFailedTask
  split
  · rfl
  · rename_i failedTask tasks htasks
    have hmem : failedTask ∈ failedOf (task :: rest) := by
      rw [← h.failed, htasks]
      exact mem_cons_self
    obtain ⟨hmem, hfailed⟩ := mem_filter.mp hmem
    have hid : failedTask.reqId ≠ w.expectedReqId := by
      rcases mem_cons.mp hmem with rfl | hrest
      · rw [htask] at hfailed
        cases hfailed
      · have hid := mem_map_of_mem (f := WorkerTask.reqId) hrest
        rw [h.tail_ids, mem_range'_1] at hid
        omega
    unfold matchedExpReqId
    rw [if_pos hid]
    rfl

end

lemma tryProcess_of_nil (h : Pending w waiting []) : w.tryProcessOneFailedTask = none := by
  unfold tryProcessOneFailedTask
  rw [h.failed]
  rfl

lemma tail_of_accepted {tail : List WorkerTask} {t : WorkerTask} (h : Pending w (t :: tail) (task :: rest))
    (htask : IsFailed task = false) :
    t = task ∧ (w.matchedExpReqId t.reqId).2 = { w with expectedReqId := w.expectedReqId + 1 } ∧
      Pending { w with expectedReqId := w.expectedReqId + 1, inflightNum := w.inflightNum - 1 } tail rest := by
  have haccepted := h.accepted
  unfold acceptedOf at haccepted
  rw [filter_cons_of_pos (by simp [htask])] at haccepted
  obtain ⟨rfl, htail⟩ := List.cons.inj haccepted
  refine ⟨rfl, ?_, h.tail_ids, h.tail_next, ?_, htail, ?_⟩
  · unfold matchedExpReqId
    rw [if_neg (not_not.mpr h.head_id)]
  · change w.submitFailedTasks = _
    rw [h.failed]
    exact filter_cons_of_neg (by simp [htask])
  · change w.inflightNum - 1 = _
    rw [h.inflight]
    rfl

end Pending

/-- The result of a task: that of its submission when it failed, and one that the engine reported
for it otherwise. -/
def TaskAnswered (reported : List (WorkerTask × CodecResult)) (h : Handled) : Prop :=
  if IsFailed h.task then h.result = submitFailedResult h.task
  else ∃ result, (h.task, result) ∈ reported ∧ h.result = { result with ctx := h.task.req.userCtx }

variable {reported : List (WorkerTask × CodecResult)} {h : Handled} {w' : QatPollerWorker E} {pass : Pass E}

lemma TaskAnswered.mono {reported' : List (WorkerTask × CodecResult)} (hans : TaskAnswered reported h)
    (hsub : reported ⊆ reported') : TaskAnswered reported' h := by
  unfold TaskAnswered at *
  split
  · rename_i hfailed
    rwa [if_pos hfailed] at hans
  · rename_i hfailed
    rw [if_neg hfailed] at hans
    obtain ⟨result, hmem, heq⟩ := hans
    exact ⟨result, hsub hmem, heq⟩

structure Progress (w : QatPollerWorker E) (rest waiting' : List WorkerTask)
    (reported : List (WorkerTask × CodecResult)) (handled : List Handled) (w' : QatPollerWorker E)
    (rest' : List WorkerTask) : Prop where
  split : rest = handled.map Handled.task ++ rest'
  answered : ∀ h ∈ handled, TaskAnswered reported h
  pending : Pending w' waiting' rest'
  engine : w'.worker = w.worker
  queue : w'.workerTasks = w.workerTasks
  next : w'.reqId = w.reqId

variable {w : QatPollerWorker E} {rest buffer : List WorkerTask} {run : WorkerRun E}

variable {waiting rest' : List WorkerTask}

lemma Progress.expected {waiting' : List WorkerTask} {handled : List Handled} (h : Pending w waiting rest)
    (hprogress : Progress w rest waiting' reported handled w' rest') :
    w'.expectedReqId = w.expectedReqId + handled.length := by
  have hnext := h.next
  have hnext' := hprogress.pending.next
  rw [hprogress.next] at hnext'
  rw [hprogress.split, length_append, length_map] at hnext
  omega

lemma processFailedTasks_of_none (h : w.tryProcessOneFailedTask = none) :
    w.processFailedTasks = ([], w) := by
  unfold processFailedTasks
  split
  · rfl
  · rename_i heq
    rw [h] at heq
    cases heq

lemma processFailedTasks_of_some (heq : w.tryProcessOneFailedTask = some (h, w')) :
    w.processFailedTasks = (h :: w'.processFailedTasks.1, w'.processFailedTasks.2) := by
  conv_lhs => unfold processFailedTasks
  split
  · rename_i hnone
    rw [heq] at hnone
    cases hnone
  · rename_i h' w'' hsome
    rw [heq] at hsome
    cases hsome
    rfl

lemma processFailedTasks_spec (h : Pending w waiting rest) (reported : List (WorkerTask × CodecResult)) :
    ∃ rest', Progress w rest waiting reported w.processFailedTasks.1 w.processFailedTasks.2 rest' ∧
      ∀ task ∈ rest'.head?, IsFailed task = false := by
  induction rest generalizing w with
  | nil =>
    rw [processFailedTasks_of_none h.tryProcess_of_nil]
    refine ⟨[], ⟨rfl, fun _ hmem => absurd hmem not_mem_nil, h, rfl, rfl, rfl⟩, ?_⟩
    intro task htask
    cases htask
  | cons task rest ih =>
    cases htask : IsFailed task with
    | false =>
      rw [processFailedTasks_of_none (h.tryProcess_of_accepted htask)]
      refine ⟨task :: rest, ⟨rfl, fun _ hmem => absurd hmem not_mem_nil, h, rfl, rfl, rfl⟩, ?_⟩
      intro t ht
      rw [← Option.some.inj ht]
      exact htask
    | true =>
      rw [processFailedTasks_of_some (h.tryProcess_of_failed htask)]
      obtain ⟨rest', hprogress, hhead⟩ := ih (h.tail_of_failed htask)
      refine ⟨rest', ⟨?_, ?_, hprogress.pending, hprogress.engine, hprogress.queue, hprogress.next⟩, hhead⟩
      · rw [map_cons, cons_append, ← hprogress.split]
      · intro h' hmem
        rcases mem_cons.mp hmem with rfl | hmem
        · unfold TaskAnswered
          rw [if_pos htask]
        · exact hprogress.answered h' hmem

lemma mergeLoop_spec {results : List (WorkerTask × CodecResult)} {tail : List WorkerTask}
    (h : Pending w (results.map Prod.fst ++ tail) rest) :
    ∃ rest', Progress w rest tail results (mergeLoop results w).1 (mergeLoop results w).2 rest' := by
  induction results generalizing w rest with
  | nil => exact ⟨rest, rfl, fun _ hmem => absurd hmem not_mem_nil, h, rfl, rfl, rfl⟩
  | cons report results ih =>
    obtain ⟨task, result⟩ := report
    obtain ⟨rest₁, hfailed, hhead⟩ := processFailedTasks_spec h ((task, result) :: results)
    unfold mergeLoop
    generalize w.processFailedTasks = out at hfailed
    obtain ⟨failed, w₁⟩ := out
    dsimp only at hfailed ⊢
    cases rest₁ with
    | nil =>
      -- a task that the engine reports is one that was not handled
      have := hfailed.pending.accepted
      cases this
    | cons t rest₁ =>
      obtain ⟨rfl, hmatched, hpending⟩ := hfailed.pending.tail_of_accepted (hhead t rfl)
      rw [hmatched]
      obtain ⟨rest', hprogress⟩ := ih hpending
      refine ⟨rest', ?_, ?_, hprogress.pending, hprogress.engine.trans hfailed.engine,
        hprogress.queue.trans hfailed.queue, hprogress.next.trans hfailed.next⟩
      · rw [map_append, map_cons, append_assoc, cons_append, ← hprogress.split]
        exact hfailed.split
      · intro h' hmem
        rcases mem_append.mp hmem with hmem | hmem
        · exact hfailed.answered h' hmem
        · rcases mem_cons.mp hmem with rfl | hmem
          · unfold TaskAnswered
            rw [hhead task rfl]
            exact ⟨result, mem_cons_self, rfl⟩
          · exact (hprogress.answered h' hmem).mono (subset_cons_self _ _)

variable (eng : PollerEngine E)

lemma submitOne_spec (h : Pending w (eng.held w.worker) rest) {task : WorkerTask} (hnew : task.submitR = .kOk) :
    Pending (submitOne eng w task).2 (eng.held (submitOne eng w task).2.worker) (rest ++ [(submitOne eng w task).1]) ∧
      (submitOne eng w task).2.workerTasks = w.workerTasks := by
  have hheld := eng.held_submit w.worker { task with reqId := w.reqId }
  unfold submitOne
  dsimp only
  generalize eng.submitAsyncRequest w.worker { task with reqId := w.reqId } = answer at hheld
  obtain ⟨submitR, engine⟩ := answer
  dsimp only at hheld ⊢
  have hids : (rest.map WorkerTask.reqId) ++ [w.reqId] = range' w.expectedReqId (rest.length + 1) := by
    rw [h.ids, h.next, range'_concat, Nat.one_mul]
  have hnext : w.reqId + 1 = w.expectedReqId + (rest.length + 1) := by
    rw [h.next, Nat.add_assoc]
  by_cases hok : submitR = .kOk
  · rw [if_neg (not_not.mpr hok)]
    rw [if_pos hok] at hheld
    have htask : IsFailed { task with reqId := w.reqId } = false := by simp [IsFailed, hnew]
    refine ⟨⟨?_, ?_, ?_, ?_, ?_⟩, rfl⟩
    · rw [map_append, length_append]
      exact hids
    · rw [length_append]
      exact hnext
    · change w.submitFailedTasks = _
      unfold failedOf
      rw [filter_append, filter_cons_of_neg (by simp [htask]), filter_nil, append_nil]
      exact h.failed
    · rw [hheld, h.accepted]
      unfold acceptedOf
      rw [filter_append, filter_cons_of_pos (by simp [htask]), filter_nil]
    · change w.inflightNum + 1 = _
      rw [hheld, length_append, h.inflight]
      rfl
  · rw [if_pos hok]
    rw [if_neg hok] at hheld
    have htask : IsFailed { task with reqId := w.reqId, submitR := submitR } = true := by simp [IsFailed, hok]
    refine ⟨⟨?_, ?_, ?_, ?_, ?_⟩, rfl⟩
    · rw [map_append, length_append]
      exact hids
    · rw [length_append]
      exact hnext
    · change w.submitFailedTasks ++ _ = _
      unfold failedOf
      rw [filter_append, filter_cons_of_pos htask, filter_nil, h.failed]
      rfl
    · rw [hheld, h.accepted]
      unfold acceptedOf
      rw [filter_append, filter_cons_of_neg (by simp [htask]), filter_nil, append_nil]
    · change w.inflightNum = _
      rw [hheld]
      exact h.inflight

def objectOf (task : WorkerTask) : Nat × CodecRequest := (task.addr, task.req)

lemma objectOf_submitOne (w : QatPollerWorker E) (task : WorkerTask) :
    objectOf (submitOne eng w task).1 = objectOf task := by
  unfold submitOne
  dsimp only
  split <;> rfl

lemma submitLoop_spec (hnew : ∀ task ∈ buffer, task.submitR = .kOk) (h : Pending w (eng.held w.worker) rest) :
    Pending (submitLoop eng buffer w).2 (eng.held (submitLoop eng buffer w).2.worker)
        (rest ++ (submitLoop eng buffer w).1) ∧
      (submitLoop eng buffer w).2.workerTasks = w.workerTasks ∧
      (submitLoop eng buffer w).1.map objectOf = buffer.map objectOf := by
  induction buffer generalizing w rest with
  | nil =>
    unfold submitLoop
    rw [append_nil]
    exact ⟨h, rfl, rfl⟩
  | cons task buffer ih =>
    obtain ⟨hpending, hqueue⟩ := submitOne_spec eng h (hnew task mem_cons_self)
    obtain ⟨hrest, hqueue', hobjects⟩ := ih (fun t ht => hnew t (mem_cons_of_mem _ ht)) hpending
    rw [append_assoc] at hrest
    refine ⟨hrest, hqueue'.trans hqueue, ?_⟩
    unfold submitLoop
    dsimp only
    rw [map_cons, map_cons, hobjects, objectOf_submitOne]

lemma submitR_submitLoop (hnew : ∀ task ∈ buffer, task.submitR = .kOk) {num : Nat} {task : WorkerTask}
    (htask : buffer[num]? = some task) :
    ((submitLoop eng buffer w).1[num]?).map WorkerTask.submitR =
      some (eng.submitAsyncRequest (submitLoop eng (buffer.take num) w).2.worker
        { task with reqId := (submitLoop eng (buffer.take num) w).2.reqId }).1 := by
  induction buffer generalizing w num with
  | nil => cases htask
  | cons first buffer ih =>
    cases num with
    | zero =>
      cases htask
      unfold submitLoop submitOne
      dsimp only
      split
      · rfl
      · rename_i hok
        exact congrArg some ((hnew _ mem_cons_self).trans (not_not.mp hok).symm)
    | succ num => exact ih (fun t ht => hnew t (mem_cons_of_mem _ ht)) htask

lemma Pending.with_engine (h : Pending w waiting rest) (engine : E) :
    Pending { w with worker := engine } waiting rest :=
  ⟨h.ids, h.next, h.failed, h.accepted, h.inflight⟩

lemma held_eq_append (e : E) (maxNum : Nat) :
    eng.held e = (eng.poll e maxNum).2.1.map Prod.fst ++ eng.held (eng.poll e maxNum).2.2 := by
  rw [eng.poll_order, eng.held_poll, take_append_drop]

lemma pollingAndMerge_spec (h : Pending w (eng.held w.worker) rest) :
    ∃ rest', Progress { w with worker := (eng.poll w.worker kMaxSubmitNum).2.2 } rest
        (eng.held (eng.poll w.worker kMaxSubmitNum).2.2) (w.pollingAndMerge eng).1 (w.pollingAndMerge eng).2.1
        (w.pollingAndMerge eng).2.2 rest' ∧
      ((eng.poll w.worker kMaxSubmitNum).1 ≤ 0 → ∀ task ∈ rest'.head?, IsFailed task = false) := by
  have hsplit := held_eq_append eng w.worker kMaxSubmitNum
  have hlength := eng.poll_length w.worker kMaxSubmitNum
  unfold pollingAndMerge
  dsimp only
  generalize eng.poll w.worker kMaxSubmitNum = answer at hsplit hlength
  obtain ⟨n, results, engine⟩ := answer
  dsimp only at hsplit hlength ⊢
  rw [hsplit] at h
  by_cases hn : n ≤ 0
  · rw [if_pos hn]
    have hnone : results = [] := by
      rw [← length_eq_zero_iff, hlength]
      exact Int.toNat_of_nonpos hn
    rw [hnone, map_nil, nil_append] at h
    obtain ⟨rest', hprogress, hhead⟩ := processFailedTasks_spec (h.with_engine engine) results
    exact ⟨rest', hprogress, fun _ => hhead⟩
  · rw [if_neg hn]
    obtain ⟨rest', hprogress⟩ := mergeLoop_spec (h.with_engine engine)
    exact ⟨rest', hprogress, fun hle => absurd hle hn⟩

structure PassSpec (w : QatPollerWorker E) (rest buffer : List WorkerTask) (pass : Pass E) (rest' : List WorkerTask) :
    Prop where
  split : rest ++ pass.drained = pass.handled.map Handled.task ++ rest'
  answered : ∀ h ∈ pass.handled, TaskAnswered pass.reported h
  pending : Pending pass.worker (eng.held pass.worker.worker) rest'
  queue : pass.worker.workerTasks = w.workerTasks
  expected : pass.worker.expectedReqId = w.expectedReqId + pass.handled.length
  objects : pass.drained.map objectOf = buffer.map objectOf

lemma expected_submitLoop (buffer : List WorkerTask) (w : QatPollerWorker E) :
    (submitLoop eng buffer w).2.expectedReqId = w.expectedReqId := by
  induction buffer generalizing w with
  | nil => rfl
  | cons task buffer ih =>
    unfold submitLoop
    dsimp only
    rw [ih]
    unfold submitOne
    dsimp only
    split <;> rfl

lemma submitAndPoll_eq (buffer : List WorkerTask) (w : QatPollerWorker E) :
    submitAndPoll eng buffer w =
      ⟨(submitLoop eng buffer w).1, ((submitLoop eng buffer w).2.pollingAndMerge eng).1,
        ((submitLoop eng buffer w).2.pollingAndMerge eng).2.1, ((submitLoop eng buffer w).2.pollingAndMerge eng).2.2⟩ :=
  rfl

theorem submitAndPoll_spec (hnew : ∀ task ∈ buffer, task.submitR = .kOk) (h : Pending w (eng.held w.worker) rest) :
    ∃ rest', PassSpec eng w rest buffer (submitAndPoll eng buffer w) rest' ∧
      ((eng.poll (submitLoop eng buffer w).2.worker kMaxSubmitNum).1 ≤ 0 →
        ∀ task ∈ rest'.head?, IsFailed task = false) := by
  obtain ⟨hpending, hqueue, hobjects⟩ := submitLoop_spec eng hnew h
  obtain ⟨rest', hprogress, hhead⟩ := pollingAndMerge_spec eng hpending
  have hexpected := hprogress.expected (hpending.with_engine _)
  rw [submitAndPoll_eq]
  refine ⟨rest', ⟨hprogress.split, hprogress.answered, ?_, hprogress.queue.trans hqueue, ?_, hobjects⟩, hhead⟩
  · have hengine : ((submitLoop eng buffer w).2.pollingAndMerge eng).2.2.worker =
        (eng.poll (submitLoop eng buffer w).2.worker kMaxSubmitNum).2.2 := hprogress.engine
    have hheld := hprogress.pending
    rw [← hengine] at hheld
    exact hheld
  · rw [← expected_submitLoop eng buffer w]
    exact hexpected

lemma PassSpec.none_waiting (h : PassSpec eng w rest buffer pass rest')
    (hhead : ∀ task ∈ rest'.head?, IsFailed task = false) (hheld : eng.held pass.worker.worker = []) :
    pass.worker.submitFailedTasks = [] := by
  cases rest' with
  | nil => exact h.pending.failed
  | cons task rest' =>
    have haccepted := h.pending.accepted
    unfold acceptedOf at haccepted
    rw [hheld, filter_cons_of_pos (by simp [hhead task rfl])] at haccepted
    cases haccepted

structure WorkerInv (run : WorkerRun E) (rest : List WorkerTask) : Prop where
  split : run.drained = run.handled.map Handled.task ++ rest
  pending : Pending run.worker (eng.held run.worker.worker) rest
  expected : run.worker.expectedReqId = run.handled.length + 1
  ids : (run.handled.map fun h => h.task.reqId) = List.range' 1 run.handled.length
  answered : ∀ h ∈ run.handled, TaskAnswered run.reported h
  fresh : ∀ task ∈ run.worker.workerTasks, task.submitR = .kOk

lemma PassSpec.ids
    (hids : (rest ++ pass.drained).map WorkerTask.reqId = range' w.expectedReqId (rest ++ pass.drained).length)
    (h : PassSpec eng w rest buffer pass rest') :
    (pass.handled.map fun h => h.task.reqId) = range' w.expectedReqId pass.handled.length := by
  rw [h.split, map_append, length_append, length_map, map_map, ← range'_append] at hids
  exact (append_inj hids (by simp)).1

lemma WorkerInv.with_queue {queue : List WorkerTask} (h : WorkerInv eng run rest)
    (hnew : ∀ task ∈ queue, task.submitR = .kOk) :
    WorkerInv eng { run with worker := { run.worker with workerTasks := queue } } rest :=
  ⟨h.split, ⟨h.pending.ids, h.pending.next, h.pending.failed, h.pending.accepted, h.pending.inflight⟩, h.expected,
    h.ids, h.answered, hnew⟩

lemma WorkerInv.append (h : WorkerInv eng run rest) (hnew : ∀ task ∈ buffer, task.submitR = .kOk) :
    ∃ rest', WorkerInv eng (run.append (submitAndPoll eng buffer run.worker)) rest' := by
  obtain ⟨rest', hpass, -⟩ := submitAndPoll_spec eng hnew h.pending
  have hsubmitted := (submitLoop_spec eng hnew h.pending).1.ids
  rw [expected_submitLoop] at hsubmitted
  have hids := hpass.ids eng hsubmitted
  generalize submitAndPoll eng buffer run.worker = pass at hpass hids
  have hexpected := h.expected
  refine ⟨rest', ?_, hpass.pending, ?_, ?_, ?_, ?_⟩
  · change run.drained ++ pass.drained = (run.handled ++ pass.handled).map Handled.task ++ rest'
    rw [h.split, append_assoc, hpass.split, map_append, append_assoc]
  · change pass.worker.expectedReqId = (run.handled ++ pass.handled).length + 1
    rw [hpass.expected, length_append]
    omega
  · change ((run.handled ++ pass.handled).map fun h => h.task.reqId) = range' 1 (run.handled ++ pass.handled).length
    rw [map_append, h.ids, hids, length_append, ← range'_append]
    congr 2
    omega
  · intro a ha
    rcases mem_append.mp ha with ha | ha
    · exact (h.answered a ha).mono (subset_append_left _ _)
    · exact (hpass.answered a ha).mono (subset_append_right _ _)
  · intro task htask
    change task ∈ pass.worker.workerTasks at htask
    rw [hpass.queue] at htask
    exact h.fresh task htask

def KeepsHeld (run : WorkerRun E) : WorkerEvent E → Prop
  | .engine change => eng.held (change run.worker.worker) = eng.held run.worker.worker
  | _ => True

theorem WorkerInv.step {run' : WorkerRun E} {ev : WorkerEvent E} (h : ∃ rest, WorkerInv eng run rest)
    (hkeeps : KeepsHeld eng run ev) (hstep : run.step eng ev = .ok run') : ∃ rest, WorkerInv eng run' rest := by
  obtain ⟨rest, h⟩ := h
  cases ev with
  | push addr req =>
    rw [← Except.ok.inj hstep]
    refine ⟨rest, h.with_queue eng ?_⟩
    exact forall_mem_append.mpr ⟨h.fresh, forall_mem_singleton.mpr rfl⟩
  | loopOnce submitNum =>
    rw [← Except.ok.inj hstep]
    have hqueue : ∀ task ∈ (run.worker.drainTasks submitNum).2.workerTasks, task.submitR = .kOk :=
      fun task htask => h.fresh task (mem_of_mem_drop htask)
    have hdropped := h.with_queue eng hqueue
    exact hdropped.append eng fun task htask => h.fresh task (mem_of_mem_take htask)
  | engine change =>
    rw [← Except.ok.inj hstep]
    have hpending := h.pending.with_engine (change run.worker.worker)
    refine ⟨rest, h.split, ?_, h.expected, h.ids, h.answered, h.fresh⟩
    rw [← hkeeps] at hpending
    exact hpending

theorem workerInv_of_runs {e : E} (hheld : eng.held e = [])
    (h : Runs (WorkerRun.step eng) (KeepsHeld eng) (.new e) run) : ∃ rest, WorkerInv eng run rest := by
  apply h.invariant
  · refine ⟨[], rfl, ⟨rfl, rfl, rfl, hheld, ?_⟩, rfl, rfl, fun _ ha => absurd ha not_mem_nil,
      fun _ ht => absurd ht not_mem_nil⟩
    change 0 = (eng.held e).length
    rw [hheld]
    rfl
  · intro run ev run' hinv hkeeps hstep
    exact WorkerInv.step eng hinv hkeeps hstep

def callbackOf (task : WorkerTask) : Option (Nat × Nat) := task.req.userCb.map fun cb => (cb, task.req.userCtx)

/-- What the worker guarantees. The functions that are called are those of the first drained tasks,
and a task without a function is passed over. -/
structure OrderedCallbacks (run : WorkerRun E) : Prop where
  inOrder : run.handled.map Handled.task <+: run.drained
  callbacks : (run.callbacks.map fun call => (call.1, call.2.ctx)) =
    (run.drained.take run.handled.length).filterMap callbackOf
  once : (run.drained.map WorkerTask.reqId).Nodup
  ctx : ∀ h ∈ run.handled, h.result.ctx = h.task.req.userCtx
  failed : ∀ h ∈ run.handled, h.task.submitR ≠ .kOk → h.result.status = h.task.submitR
  answered : ∀ h ∈ run.handled, h.task.submitR = .kOk →
    ∃ result, (h.task, result) ∈ run.reported ∧ h.result = { result with ctx := h.task.req.userCtx }
  /-- `submitR` is what the engine answers to the submission. -/
  submitted : ∀ submitNum num task, (run.worker.drainTasks submitNum).1[num]? = some task →
    let drain := run.worker.drainTasks submitNum
    let out := submitLoop eng (drain.1.take num) drain.2
    ((run.worker.loopOnce eng submitNum).drained[num]?).map WorkerTask.submitR =
      some (eng.submitAsyncRequest out.2.worker { task with reqId := out.2.reqId }).1
  noneWaiting : ∀ submitNum,
    let drain := run.worker.drainTasks submitNum
    let w := (submitLoop eng drain.1 drain.2).2
    (eng.poll w.worker kMaxSubmitNum).1 ≤ 0 → eng.held w.worker = [] →
      (run.worker.loopOnce eng submitNum).worker.submitFailedTasks = []
  inflight : run.worker.inflightNum = (acceptedOf (run.drained.drop run.handled.length)).length
  submitting : ∀ submitNum num,
    let drain := run.worker.drainTasks submitNum
    let out := submitLoop eng (drain.1.take num) drain.2
    out.2.inflightNum = (acceptedOf ((run.drained ++ out.1).drop run.handled.length)).length
  merging : ∀ submitNum num,
    let drain := run.worker.drainTasks submitNum
    let out := submitLoop eng drain.1 drain.2
    let polled := eng.poll out.2.worker kMaxSubmitNum
    let merged := mergeLoop (polled.2.1.take num) { out.2 with worker := polled.2.2 }
    merged.2.inflightNum = (acceptedOf ((run.drained ++ out.1).drop (run.handled ++ merged.1).length)).length

namespace WorkerInv

variable {run : WorkerRun E} {rest : List WorkerTask}

lemma drop_handled (h : WorkerInv eng run rest) (tasks : List WorkerTask) :
    (run.drained ++ tasks).drop run.handled.length = rest ++ tasks := by
  rw [h.split, append_assoc, drop_left' (length_map _)]

lemma drained_ids (h : WorkerInv eng run rest) : run.drained.map WorkerTask.reqId = range' 1 run.drained.length := by
  rw [h.split, map_append, map_map, h.pending.ids, h.expected, length_append, length_map,
    ← range'_append, ← h.ids]
  congr 2
  omega

lemma drained_pending (h : WorkerInv eng run rest) (submitNum : Nat) :
    Pending (run.worker.drainTasks submitNum).2 (eng.held (run.worker.drainTasks submitNum).2.worker) rest :=
  ⟨h.pending.ids, h.pending.next, h.pending.failed, h.pending.accepted, h.pending.inflight⟩

lemma drained_new (h : WorkerInv eng run rest) (submitNum : Nat) :
    ∀ task ∈ (run.worker.drainTasks submitNum).1, task.submitR = .kOk :=
  fun task htask => h.fresh task (mem_of_mem_take htask)

lemma none_waiting (h : WorkerInv eng run rest) (submitNum : Nat)
    (hpoll : (eng.poll (submitLoop eng (run.worker.drainTasks submitNum).1
      (run.worker.drainTasks submitNum).2).2.worker kMaxSubmitNum).1 ≤ 0)
    (hheld : eng.held (submitLoop eng (run.worker.drainTasks submitNum).1
      (run.worker.drainTasks submitNum).2).2.worker = []) :
    (run.worker.loopOnce eng submitNum).worker.submitFailedTasks = [] := by
  obtain ⟨hpending, -, -⟩ := submitLoop_spec eng (h.drained_new eng submitNum) (h.drained_pending eng submitNum)
  obtain ⟨rest', hpass, hhead⟩ := submitAndPoll_spec eng (h.drained_new eng submitNum) (h.drained_pending eng submitNum)
  apply hpass.none_waiting eng (hhead hpoll)
  obtain ⟨rest'', hprogress, -⟩ := pollingAndMerge_spec eng hpending
  have hengine : (run.worker.loopOnce eng submitNum).worker.worker = _ := hprogress.engine
  change eng.held (run.worker.loopOnce eng submitNum).worker.worker = []
  rw [hengine, eng.held_poll, hheld, drop_nil]

lemma submitting (h : WorkerInv eng run rest) (submitNum num : Nat) :
    (submitLoop eng ((run.worker.drainTasks submitNum).1.take num) (run.worker.drainTasks submitNum).2).2.inflightNum =
      (acceptedOf ((run.drained ++ (submitLoop eng ((run.worker.drainTasks submitNum).1.take num)
        (run.worker.drainTasks submitNum).2).1).drop run.handled.length)).length := by
  have hnew : ∀ task ∈ (run.worker.drainTasks submitNum).1.take num, task.submitR = .kOk :=
    fun task htask => h.drained_new eng submitNum task (mem_of_mem_take htask)
  obtain ⟨hpending, -, -⟩ := submitLoop_spec eng hnew (h.drained_pending eng submitNum)
  rw [h.drop_handled, ← hpending.accepted]
  exact hpending.inflight

lemma merging (h : WorkerInv eng run rest) {out : List WorkerTask × QatPollerWorker E}
    (hpending : Pending out.2 (eng.held out.2.worker) (rest ++ out.1)) (num : Nat) :
    let polled := eng.poll out.2.worker kMaxSubmitNum
    let merged := mergeLoop (polled.2.1.take num) { out.2 with worker := polled.2.2 }
    merged.2.inflightNum = (acceptedOf ((run.drained ++ out.1).drop (run.handled ++ merged.1).length)).length := by
  have hsplit := held_eq_append eng out.2.worker kMaxSubmitNum
  generalize eng.poll out.2.worker kMaxSubmitNum = polled at hsplit
  rw [hsplit, ← take_append_drop num polled.2.1, map_append, append_assoc] at hpending
  obtain ⟨rest', hprogress⟩ := mergeLoop_spec (hpending.with_engine polled.2.2)
  dsimp only
  rw [length_append, ← drop_drop, h.drop_handled, hprogress.split, drop_left' (length_map _),
    ← hprogress.pending.accepted]
  exact hprogress.pending.inflight

end WorkerInv

lemma callbacks_eq (hctx : ∀ h ∈ run.handled, h.result.ctx = h.task.req.userCtx) :
    (run.callbacks.map fun call => (call.1, call.2.ctx)) = (run.handled.map Handled.task).filterMap callbackOf := by
  unfold WorkerRun.callbacks
  rw [map_filterMap, filterMap_map]
  apply filterMap_congr
  intro h hh
  unfold handleUserCallback Function.comp callbackOf
  rw [Option.map_map, ← hctx h hh]
  rfl

lemma WorkerInv.ctx {rest : List WorkerTask} (h : WorkerInv eng run rest) :
    ∀ a ∈ run.handled, a.result.ctx = a.task.req.userCtx := by
  intro a ha
  have hthis : TaskAnswered run.reported a := h.answered a ha
  unfold TaskAnswered at hthis
  split at hthis
  · rw [hthis]
    rfl
  · obtain ⟨result, -, heq⟩ := hthis
    rw [heq]

theorem worker_callbacks_in_order {e : E} (hheld : eng.held e = []) {run : WorkerRun E}
    (h : Runs (WorkerRun.step eng) (KeepsHeld eng) (.new e) run) : OrderedCallbacks eng run := by
  obtain ⟨rest, hinv⟩ := workerInv_of_runs eng hheld h
  have hanswer : ∀ a ∈ run.handled, TaskAnswered run.reported a := hinv.answered
  unfold TaskAnswered at hanswer
  have hctx := hinv.ctx eng
  refine ⟨⟨rest, hinv.split.symm⟩, ?_, ?_, hctx, ?_, ?_,
    fun submitNum _ _ => submitR_submitLoop eng (hinv.drained_new eng submitNum), hinv.none_waiting eng, ?_,
    hinv.submitting eng, ?_⟩
  · rw [callbacks_eq hctx, hinv.split, List.take_left' (List.length_map _)]
  · rw [hinv.drained_ids]
    exact List.nodup_range'
  · intro a ha hfailed
    have hthis := hanswer a ha
    rw [if_pos (show IsFailed a.task = true from decide_eq_true hfailed)] at hthis
    rw [hthis]
    rfl
  · intro a ha hok
    have hthis := hanswer a ha
    rw [if_neg (by simp [IsFailed, hok])] at hthis
    exact hthis
  · have hdrop := hinv.drop_handled eng []
    rw [List.append_nil, List.append_nil] at hdrop
    rw [hdrop, ← hinv.pending.accepted]
    exact hinv.pending.inflight
  · intro submitNum num
    apply hinv.merging eng
    exact (submitLoop_spec eng (hinv.drained_new eng submitNum) (hinv.drained_pending eng submitNum)).1

/-- An engine that accepts what has room for a result, and reports all that it holds once it is
ready. -/
def queueEngine : PollerEngine (List WorkerTask × Bool) where
  submitAsyncRequest := fun e task =>
    if task.req.dstLen = 0 then (.kInvalidArgument, e) else (.kOk, (e.1 ++ [task], e.2))
  poll := fun e _ =>
    if e.2 then (e.1.length, e.1.map fun task => (task, ⟨8, 4, 0, 0, .kOk, task.addr⟩), ([], e.2)) else (0, [], e)
  held := Prod.fst
  held_submit := by
    intro e task
    by_cases hlen : task.req.dstLen = 0
    · rw [if_pos hlen]
      rfl
    · rw [if_neg hlen]
      rfl
  poll_length := by
    intro e maxNum
    cases e.2 with
    | true => simp
    | false => rfl
  poll_order := by
    intro e maxNum
    cases e.2 with
    | true => simp [Function.comp_def]
    | false => rfl
  held_poll := by
    intro e maxNum
    cases e.2 with
    | true => simp
    | false => rfl

def queueRequest (dstLen : UInt32) (userCtx : Nat) : CodecRequest := ⟨[0x1000], [8], 0x2000, dstLen, userCtx, some 1, .kComp⟩

/-- The failure of the second task waits for the first. -/
theorem worker_callbacks_in_order_three_tasks :
    ∃ run, Runs (WorkerRun.step queueEngine) (KeepsHeld queueEngine) (.new ([], false)) run ∧
      (run.callbacks.map fun call => (call.2.ctx, call.2.status)) =
        [(7, .kOk), (8, .kInvalidArgument), (9, .kOk)] ∧ OrderedCallbacks queueEngine run := by
  have hcheck : ∀ (run : WorkerRun (List WorkerTask × Bool)) (ev : WorkerEvent (List WorkerTask × Bool)),
      (match ev with
        | .engine change => decide ((change run.worker.worker).1 = run.worker.worker.1)
        | _ => true) = true → KeepsHeld queueEngine run ev := by
    intro run ev hev
    cases ev with
    | push => trivial
    | loopOnce => trivial
    | engine change =>
      have hsame : (change run.worker.worker).1 = run.worker.worker.1 := of_decide_eq_true hev
      exact hsame
  obtain ⟨run, hruns, -, hgoal⟩ := exists_runs_of_reaches (WorkerRun.step queueEngine) (.new ([], false))
    [.push 1 (queueRequest 8 7), .push 2 (queueRequest 0 8), .push 3 (queueRequest 8 9), .loopOnce 128,
      .engine fun e => (e.1, true), .loopOnce 128] _
    (fun run => decide ((run.callbacks.map fun call => (call.2.ctx, call.2.status)) =
      [(7, .kOk), (8, .kInvalidArgument), (9, .kOk)])) hcheck (by decide +kernel)
  exact ⟨run, hruns, of_decide_eq_true hgoal, worker_callbacks_in_order queueEngine rfl hruns⟩

end Vesal.Proofs
