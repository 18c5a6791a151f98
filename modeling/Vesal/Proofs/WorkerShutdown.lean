import Vesal.WorkerThreads
import Vesal.Proofs.WorkerOrder

/-! # The shutdown of a worker -/

namespace Vesal.Proofs

open Library QatPollerWorker WorkerThreads List Except

variable {E : Type} (eng : PollerEngine E)

variable {s s' : WorkerThreads E} {rank : E → Nat}

variable {call : Nat} {e : E} {rest buffer : List WorkerTask}

lemma create_ok (h : s.create call = .ok s') :
    ∃ c, s.calls[call]? = some c ∧ c.phase = .loaded ∧ s' = s.setPhase call c .created := by
  unfold WorkerThreads.create at h
  split at h
  · rename_i c hc
    split at h
    · rename_i hphase
      exact ⟨c, hc, hphase, (ok.inj h).symm⟩
    · cases h
  · cases h

lemma push_ok (h : s.push call = .ok s') :
    ∃ c, s.calls[call]? = some c ∧ c.phase = .created ∧
      s' = (s.setPhase call c (.returned .kOk)).enqueue (.new call c.req) := by
  unfold WorkerThreads.push at h
  split at h
  · rename_i c hc
    split at h
    · rename_i hphase
      exact ⟨c, hc, hphase, (ok.inj h).symm⟩
    · cases h
  · cases h

lemma pop_ok (h : s.pop = .ok s') :
    ∃ uninit buffer task tasks, s.poller = .draining uninit buffer ∧ buffer.length < kMaxSubmitNum ∧
      s.passes.worker.workerTasks = task :: tasks ∧ s' = { s with
        passes := { s.passes with worker := { s.passes.worker with workerTasks := tasks } }
        poller := .draining uninit (buffer ++ [task]) } := by
  unfold WorkerThreads.pop at h
  split at h
  · rename_i uninit buffer task tasks hpoller htasks
    split at h
    · rename_i hroom
      exact ⟨uninit, buffer, task, tasks, hpoller, hroom, htasks, (ok.inj h).symm⟩
    · cases h
  · cases h

lemma submitAndPoll_ok (h : s.submitAndPoll eng = .ok s') :
    ∃ uninit buffer, s.poller = .draining uninit buffer ∧
      s' = { s with
        passes := s.passes.append (QatPollerWorker.submitAndPoll eng buffer s.passes.worker)
        poller := if uninit then .check else .run } := by
  unfold WorkerThreads.submitAndPoll at h
  split at h
  · rename_i uninit buffer hpoller
    split at h
    · exact ⟨uninit, buffer, hpoller, (ok.inj h).symm⟩
    · cases h
  · cases h

lemma advance_ok {phase next : PollerPhase} (h : s.advance phase next = .ok s') :
    s.poller = phase ∧ s' = { s with poller := next } := by
  unfold advance at h
  split at h
  · rename_i hpoller
    exact ⟨hpoller, (ok.inj h).symm⟩
  · cases h

def bufferOf : PollerPhase → List WorkerTask
  | .draining _ buffer => buffer
  | _ => []

def InRun : PollerPhase → Prop
  | .run => True
  | .draining uninit _ => uninit = false
  | _ => False

def LoopLeft : PollerPhase → Prop
  | .close => True
  | .reset => True
  | .returned => True
  | _ => False

def pushedTasks (s : WorkerThreads E) : List WorkerTask :=
  s.passes.drained ++ bufferOf s.poller ++ s.passes.worker.workerTasks

def ReturnedOk (s : WorkerThreads E) (i : Nat) (req : CodecRequest) : Prop := s.calls[i]? = some ⟨req, .returned .kOk⟩

def CallReturned (c : ScheduleCall) : Prop := ∃ status, c.phase = .returned status

structure ThreadInv (s : WorkerThreads E) : Prop where
  worker : ∃ rest, WorkerInv eng s.passes rest
  buffered : ∀ task ∈ bufferOf s.poller, task.submitR = .kOk
  room : (bufferOf s.poller).length ≤ kMaxSubmitNum
  nodup : ((pushedTasks s).map WorkerTask.addr).Nodup
  pushed : ∀ i req, (i, req) ∈ (pushedTasks s).map objectOf ↔ ReturnedOk s i req
  running : s.running = true ↔ InRun s.poller
  returned : LoopLeft s.poller → ∀ c ∈ s.calls, CallReturned c
  finished : LoopLeft s.poller → s.passes.worker.hasUnFinishedReqs = false
  late : s.pushedLate = []

/-- The loop of `Uninit` is left only while no call of `Schedule` is between its load and its push. -/
def NoCallOpen (s : WorkerThreads E) : ThreadEvent → Prop
  | .hasUnFinishedReqs => s.passes.worker.hasUnFinishedReqs = false → ∀ c ∈ s.calls, CallReturned c
  | _ => True

instance (s : WorkerThreads E) (ev : ThreadEvent) : Decidable (NoCallOpen s ev) := by
  cases ev with
  | hasUnFinishedReqs =>
    have hdec : ∀ c : ScheduleCall, Decidable (CallReturned c) := by
      intro c
      cases hphase : c.phase with
      | loaded => exact isFalse fun ⟨_, h⟩ => by rw [hphase] at h; cases h
      | created => exact isFalse fun ⟨_, h⟩ => by rw [hphase] at h; cases h
      | returned status => exact isTrue ⟨status, hphase⟩
    have hall := List.decidableBAll (p := CallReturned) s.calls
    exact inferInstanceAs (Decidable (_ → _))
  | _ => exact isTrue trivial

lemma threadInv_new (hheld : eng.held e = []) : ThreadInv eng (.new e) where
  worker := workerInv_of_runs eng hheld Relation.ReflTransGen.refl
  buffered := fun _ ht => absurd ht not_mem_nil
  room := Nat.zero_le _
  nodup := nodup_nil
  pushed := fun _ _ => ⟨fun hi => absurd hi not_mem_nil, fun hc => by cases hc⟩
  running := ⟨fun _ => trivial, fun _ => rfl⟩
  returned := fun h => h.elim
  finished := fun h => h.elim
  late := rfl

namespace ThreadInv

variable {s s' : WorkerThreads E}

variable {call : Nat}

variable {c : ScheduleCall}

lemma not_left_of_open (h : ThreadInv eng s) (hc : s.calls[call]? = some c) (hopen : ¬ CallReturned c) :
    ¬ LoopLeft s.poller :=
  fun hleft => hopen (h.returned hleft c (mem_of_getElem? hc))

lemma load (h : ThreadInv eng s) (req : CodecRequest) : ThreadInv eng (s.load req) where
  worker := h.worker
  buffered := h.buffered
  room := h.room
  nodup := h.nodup
  pushed := by
    intro i req'
    change (i, req') ∈ (pushedTasks s).map objectOf ↔ _
    rw [h.pushed]
    unfold ReturnedOk WorkerThreads.load
    constructor
    · intro hc
      rw [getElem?_append_left (List.getElem?_eq_some_iff.mp hc).1]
      exact hc
    · intro hc
      by_cases hi : i < s.calls.length
      · rw [getElem?_append_left hi] at hc
        exact hc
      · rw [getElem?_append_right (by omega)] at hc
        have hphase := congrArg ScheduleCall.phase (List.mem_singleton.mp (mem_of_getElem? hc))
        dsimp only at hphase
        split at hphase <;> cases hphase
  running := h.running
  returned := by
    intro hleft c hc
    rcases List.mem_append.mp hc with hc | hc
    · exact h.returned hleft c hc
    · rw [List.mem_singleton.mp hc]
      have hnot : ¬ InRun s.poller := by
        change LoopLeft s.poller at hleft
        cases hpoller : s.poller <;> rw [hpoller] at hleft <;> first | exact hleft.elim | exact fun hrun => hrun
      refine ⟨.kResourceBusy, ?_⟩
      rw [if_neg (h.running.not.mpr hnot)]
  finished := h.finished
  late := h.late

lemma returnedOk_setPhase (hc : s.calls[call]? = some c) (hphase : c.phase ≠ .returned .kOk) (phase : SchedulePhase)
    (i : Nat) (req : CodecRequest) :
    ReturnedOk (s.setPhase call c phase) i req ↔
      ReturnedOk s i req ∨ (i, req) = (call, c.req) ∧ phase = .returned .kOk := by
  have hlt := (List.getElem?_eq_some_iff.mp hc).1
  unfold ReturnedOk setPhase
  by_cases hi : i = call
  · subst hi
    rw [getElem?_set_self hlt, hc]
    simp only [Option.some.injEq, ScheduleCall.mk.injEq, Prod.mk.injEq, true_and]
    constructor
    · rintro ⟨hreq, hphase'⟩
      exact .inr ⟨hreq.symm, hphase'⟩
    · rintro (rfl | ⟨hreq, hphase'⟩)
      · exact absurd rfl hphase
      · exact ⟨hreq.symm, hphase'⟩
  · rw [getElem?_set_ne (Ne.symm hi)]
    constructor
    · exact .inl
    · rintro (h | ⟨h, -⟩)
      · exact h
      · exact absurd (Prod.mk.inj h).1 hi

section

variable (h : ThreadInv eng s)
include h

lemma create (hstep : s.create call = .ok s') : ThreadInv eng s' := by
  obtain ⟨c, hc, hphase, rfl⟩ := create_ok hstep
  have hopen : ¬ CallReturned c := fun ⟨status, hstatus⟩ => by rw [hphase] at hstatus; cases hstatus
  have hnot := h.not_left_of_open eng hc hopen
  refine ⟨h.worker, h.buffered, h.room, h.nodup, ?_, h.running, fun hleft => absurd hleft hnot, h.finished, h.late⟩
  intro i req
  rw [returnedOk_setPhase hc (by rw [hphase]; decide), ← h.pushed]
  refine ⟨.inl, ?_⟩
  rintro (hmem | ⟨-, hphase'⟩)
  · exact hmem
  · cases hphase'

lemma push (hstep : s.push call = .ok s') : ThreadInv eng s' := by
  obtain ⟨c, hc, hphase, rfl⟩ := push_ok hstep
  have hopen : ¬ CallReturned c := fun ⟨status, hstatus⟩ => by rw [hphase] at hstatus; cases hstatus
  have hnot := h.not_left_of_open eng hc hopen
  have hnew : ∀ req, ¬ ReturnedOk s call req := by
    intro req hok
    have hphase' : c.phase = .returned .kOk := congrArg ScheduleCall.phase (Option.some.inj (hc.symm.trans hok))
    rw [hphase] at hphase'
    cases hphase'
  obtain ⟨rest, hinv⟩ := h.worker
  have htasks : pushedTasks ((s.setPhase call c (.returned .kOk)).enqueue (.new call c.req)) =
      pushedTasks s ++ [.new call c.req] := (append_assoc _ _ _).symm
  refine ⟨⟨rest, hinv.with_queue eng ?_⟩, h.buffered, h.room, ?_, ?_, h.running,
    fun hleft => absurd hleft hnot, fun hleft => absurd hleft hnot, ?_⟩
  · exact forall_mem_append.mpr ⟨hinv.fresh, forall_mem_singleton.mpr rfl⟩
  · rw [htasks, map_append]
    apply h.nodup.append (nodup_singleton _)
    intro i hi hi'
    rw [mem_singleton.mp hi'] at hi
    obtain ⟨task, htask, haddr⟩ := mem_map.mp hi
    exact hnew task.req ((h.pushed call task.req).mp (mem_map.mpr ⟨task, htask, Prod.ext haddr rfl⟩))
  · intro i req
    change _ ↔ ReturnedOk (s.setPhase call c (.returned .kOk)) i req
    rw [htasks, map_append, mem_append, h.pushed, returnedOk_setPhase hc (by rw [hphase]; decide)]
    apply or_congr_right
    exact mem_singleton.trans (and_iff_left rfl).symm
  · change (if s.poller = .returned then s.pushedLate ++ [call] else s.pushedLate) = []
    rw [if_neg, h.late]
    intro hreturned
    rw [hreturned] at hnot
    exact hnot trivial

lemma pop (hstep : s.pop = .ok s') : ThreadInv eng s' := by
  obtain ⟨uninit, buffer, task, tasks, hpoller, hroom, htasks, rfl⟩ := pop_ok hstep
  obtain ⟨rest, hinv⟩ := h.worker
  have hfresh := hinv.fresh
  rw [htasks] at hfresh
  have hbuffered := h.buffered
  rw [hpoller] at hbuffered
  have hsame : ∀ (w : WorkerThreads E), pushedTasks { w with
      passes := { s.passes with worker := { s.passes.worker with workerTasks := tasks } }
      poller := .draining uninit (buffer ++ [task]) } = pushedTasks s := by
    unfold pushedTasks
    rw [hpoller, htasks]
    simp [bufferOf]
  refine ⟨⟨rest, hinv.with_queue eng fun t ht => hfresh t (mem_cons_of_mem _ ht)⟩, ?_, ?_, ?_, ?_, ?_,
    fun hleft => hleft.elim, fun hleft => hleft.elim, h.late⟩
  · exact forall_mem_append.mpr ⟨hbuffered, forall_mem_singleton.mpr (hfresh task mem_cons_self)⟩
  · change (buffer ++ [task]).length ≤ _
    rw [length_append]
    exact hroom
  · rw [hsame]
    exact h.nodup
  · rw [hsame]
    exact h.pushed
  · have hrunning := h.running
    rw [hpoller] at hrunning
    exact hrunning

lemma submitAndPoll (hstep : s.submitAndPoll eng = .ok s') : ThreadInv eng s' := by
  obtain ⟨uninit, buffer, hpoller, rfl⟩ := submitAndPoll_ok eng hstep
  obtain ⟨rest, hinv⟩ := h.worker
  have hnew : ∀ task ∈ buffer, task.submitR = .kOk := by
    have hbuffered := h.buffered
    rw [hpoller] at hbuffered
    exact hbuffered
  obtain ⟨rest', hpass, -⟩ := submitAndPoll_spec eng hnew hinv.pending
  have hsame : ∀ phase, bufferOf phase = [] → ∀ (w : WorkerThreads E),
      (pushedTasks { w with
        passes := s.passes.append (QatPollerWorker.submitAndPoll eng buffer s.passes.worker)
        poller := phase }).map objectOf = (pushedTasks s).map objectOf := by
    intro phase hphase w
    unfold pushedTasks
    dsimp only
    rw [hphase, hpoller]
    change (s.passes.drained ++ _ ++ [] ++ _).map objectOf = _
    rw [append_nil, map_append, map_append, hpass.objects]
    change _ ++ List.map _ (QatPollerWorker.submitAndPoll eng buffer s.passes.worker).worker.workerTasks = _
    rw [hpass.queue, map_append, map_append]
    rfl
  have hrunning := h.running
  rw [hpoller] at hrunning
  have hnext : bufferOf (if uninit then .check else .run) = [] := by
    cases uninit <;> rfl
  have hinLoop : ¬ LoopLeft (if uninit then .check else .run) := by
    cases uninit <;> exact fun hleft => hleft
  refine ⟨hinv.append eng hnew, ?_, ?_, ?_, ?_, ?_, fun hleft => absurd hleft hinLoop,
    fun hleft => absurd hleft hinLoop, h.late⟩
  · dsimp only
    rw [hnext]
    exact fun _ ht => absurd ht not_mem_nil
  · dsimp only
    rw [hnext]
    exact Nat.zero_le _
  · have haddrs := congrArg (List.map Prod.fst) (hsame _ hnext s)
    rw [map_map, map_map] at haddrs
    exact haddrs ▸ h.nodup
  · rw [hsame _ hnext]
    exact h.pushed
  · cases uninit
    · exact hrunning.trans ⟨fun _ => trivial, fun _ => rfl⟩
    · exact hrunning.trans ⟨fun hrun => (Bool.noConfusion hrun), fun hrun => hrun.elim⟩

lemma advance {phase next : PollerPhase} (hstep : s.advance phase next = .ok s') (hbuffer : bufferOf phase = [])
    (hbuffer' : bufferOf next = []) (hrun : InRun phase ↔ InRun next)
    (hleft : LoopLeft next → LoopLeft phase ∨
      s.passes.worker.hasUnFinishedReqs = false ∧ ∀ c ∈ s.calls, CallReturned c) : ThreadInv eng s' := by
  obtain ⟨hpoller, rfl⟩ := advance_ok hstep
  have hsame : pushedTasks { s with poller := next } = pushedTasks s := by
    unfold pushedTasks
    dsimp only
    rw [hpoller, hbuffer, hbuffer']
  have hdone : LoopLeft next → s.passes.worker.hasUnFinishedReqs = false ∧ ∀ c ∈ s.calls, CallReturned c := by
    intro hnext
    rcases hleft hnext with hphase | hdone
    · rw [← hpoller] at hphase
      exact ⟨h.finished hphase, h.returned hphase⟩
    · exact hdone
  refine ⟨h.worker, ?_, ?_, ?_, ?_, ?_, fun hnext => (hdone hnext).2, fun hnext => (hdone hnext).1, h.late⟩
  · dsimp only
    rw [hbuffer']
    exact fun _ ht => absurd ht not_mem_nil
  · dsimp only
    rw [hbuffer']
    exact Nat.zero_le _
  · rw [hsame]
    exact h.nodup
  · rw [hsame]
    exact h.pushed
  · have hrunning := h.running
    rw [hpoller] at hrunning
    exact hrunning.trans hrun

lemma store (hstep : s.step eng .store = .ok s') : ThreadInv eng s' := by
  have hstep : (if s.poller = .run then .ok { s with running := false, poller := .check }
      else .error ThreadFault.notEnabled) = ok s' := hstep
  split at hstep
  · rename_i hpoller
    rw [← ok.inj hstep]
    have hsame : ∀ (b : Bool), pushedTasks { s with running := b, poller := .check } = pushedTasks s := by
      intro b
      unfold pushedTasks
      rw [hpoller]
      rfl
    refine ⟨h.worker, fun _ ht => absurd ht not_mem_nil, Nat.zero_le _, ?_, ?_, ?_, fun hleft => hleft.elim,
      fun hleft => hleft.elim, h.late⟩
    · rw [hsame]
      exact h.nodup
    · rw [hsame]
      exact h.pushed
    · exact ⟨fun hrun => Bool.noConfusion hrun, fun hrun => hrun.elim⟩
  · cases hstep

end

end ThreadInv

variable {ev : ThreadEvent} {w : QatPollerWorker E}

theorem ThreadInv.step (h : ThreadInv eng s) (hopen : NoCallOpen s ev) (hstep : s.step eng ev = .ok s') :
    ThreadInv eng s' := by
  cases ev with
  | load req =>
    rw [← ok.inj hstep]
    exact h.load eng req
  | create call => exact h.create eng hstep
  | push call => exact h.push eng hstep
  | loopOnce => exact h.advance eng hstep rfl rfl ⟨fun _ => rfl, fun _ => trivial⟩ fun hleft => hleft.elim
  | pop => exact h.pop eng hstep
  | submitAndPoll => exact h.submitAndPoll eng hstep
  | store => exact h.store eng hstep
  | hasUnFinishedReqs =>
    change s.advance _ _ = _ at hstep
    cases hfinished : s.passes.worker.hasUnFinishedReqs with
    | true =>
      rw [hfinished] at hstep
      exact h.advance eng hstep rfl rfl ⟨fun hrun => hrun.elim, fun hrun => Bool.noConfusion hrun⟩
        fun hleft => hleft.elim
    | false =>
      rw [hfinished] at hstep
      exact h.advance eng hstep rfl rfl ⟨fun hrun => hrun.elim, fun hrun => hrun.elim⟩
        fun _ => .inr ⟨hfinished, hopen hfinished⟩
  | close =>
    exact h.advance eng hstep rfl rfl ⟨fun hrun => hrun.elim, fun hrun => hrun.elim⟩ fun _ => .inl trivial
  | reset =>
    exact h.advance eng hstep rfl rfl ⟨fun hrun => hrun.elim, fun hrun => hrun.elim⟩ fun _ => .inl trivial

theorem threadInv_of_runs (hheld : eng.held e = []) (h : Runs (WorkerThreads.step eng) NoCallOpen (.new e) s) :
    ThreadInv eng s :=
  h.invariant (threadInv_new eng hheld) fun _ _ _ hinv hopen hstep => hinv.step eng hopen hstep

/-- When `Uninit` has returned, every call that returned `kOk` had the callback of its own request once, and
no thread touches the worker after it was reset. -/
structure NoneLost (s : WorkerThreads E) : Prop where
  calledBack : s.poller = .returned → ∀ i req, ReturnedOk s i req → ∃ result, result.ctx = req.userCtx ∧
    (s.passes.handled.filter fun h => h.task.addr = i).map handleUserCallback = [req.userCb.map fun cb => (cb, result)]
  noLateLoop : s.poller = .returned → ∀ ev, (ev = .loopOnce ∨ ev = .pop ∨ ev = .submitAndPoll) →
    s.step eng ev = .error .notEnabled
  noLatePush : s.pushedLate = []

lemma unfinished_eq_false (h : w.hasUnFinishedReqs = false) :
    w.inflightNum = 0 ∧ w.submitFailedTasks = [] ∧ w.workerTasks = [] := by
  unfold hasUnFinishedReqs at h
  simp only [Bool.or_eq_false_iff, decide_eq_false_iff_not, Bool.not_eq_false', List.isEmpty_iff] at h
  exact ⟨by omega, h.1.2, h.2⟩

lemma rest_eq_nil {waiting : List WorkerTask} (h : Pending w waiting rest) (hinflight : w.inflightNum = 0)
    (hfailed : w.submitFailedTasks = []) : rest = [] := by
  have haccepted : acceptedOf rest = [] := by
    rw [← h.accepted, ← length_eq_zero_iff, ← h.inflight]
    exact hinflight
  have hnone : failedOf rest = [] := h.failed.symm.trans hfailed
  cases rest with
  | nil => rfl
  | cons task rest =>
    unfold acceptedOf at haccepted
    unfold failedOf at hnone
    cases htask : IsFailed task with
    | true =>
      rw [filter_cons_of_pos htask] at hnone
      cases hnone
    | false =>
      rw [filter_cons_of_pos (by simp [htask])] at haccepted
      cases haccepted

lemma filter_eq_singleton {α : Type} {f : α → Nat} {l : List α} (hnodup : (l.map f).Nodup) {a : α} (ha : a ∈ l) :
    (l.filter fun b => f b = f a) = [a] := by
  have hcount : (l.map f).count (f a) = l.countP fun b => f b = f a := by
    unfold List.count
    rw [countP_map]
    apply countP_congr
    intro b _
    simp
  have hone : (l.filter fun b => f b = f a).length = 1 := by
    rw [← countP_eq_length_filter, ← hcount]
    exact count_eq_one_of_mem hnodup (mem_map_of_mem ha)
  obtain ⟨b, hb⟩ := length_eq_one_iff.mp hone
  have hmem : a ∈ l.filter fun b => f b = f a := mem_filter.mpr ⟨ha, by simp⟩
  rw [hb] at hmem ⊢
  rw [mem_singleton.mp hmem]

theorem ThreadInv.noneLost (h : ThreadInv eng s) : NoneLost eng s where
  calledBack := by
    intro hreturned i req hi
    obtain ⟨rest, hinv⟩ := h.worker
    obtain ⟨hinflight, hfailed, hqueue⟩ := unfinished_eq_false (h.finished (by rw [hreturned]; trivial))
    have hrest := rest_eq_nil hinv.pending hinflight hfailed
    have hdrained := hinv.split
    rw [hrest, append_nil] at hdrained
    have htasks : pushedTasks s = s.passes.handled.map Handled.task := by
      unfold pushedTasks
      rw [hreturned, hqueue, hdrained]
      exact (append_nil _).trans (append_nil _)
    have hnodup := h.nodup
    have hmem := (h.pushed i req).mpr hi
    rw [htasks, map_map] at hnodup hmem
    obtain ⟨a, ha, hobject⟩ := mem_map.mp hmem
    obtain ⟨rfl, rfl⟩ := Prod.mk.inj hobject
    refine ⟨a.result, hinv.ctx eng a ha, ?_⟩
    rw [filter_eq_singleton (f := fun h => h.task.addr) hnodup ha]
    rfl
  noLateLoop := by
    rintro hreturned ev (rfl | rfl | rfl)
    · change s.advance _ _ = _
      unfold WorkerThreads.advance
      rw [if_neg (by rw [hreturned]; decide)]
    · change s.pop = _
      unfold WorkerThreads.pop
      rw [hreturned]
    · change s.submitAndPoll eng = _
      unfold WorkerThreads.submitAndPoll
      rw [hreturned]
  noLatePush := h.late

/-- An engine that delivers: while it holds a request, each poll reports one or brings it nearer. -/
def Delivering (rank : E → Nat) : Prop :=
  ∀ e, eng.held e ≠ [] → 0 < (eng.poll e kMaxSubmitNum).1 ∨ rank (eng.poll e kMaxSubmitNum).2.2 < rank e

def IsUninit : ThreadEvent → Prop
  | .pop => True
  | .submitAndPoll => True
  | .hasUnFinishedReqs => True
  | .close => True
  | .reset => True
  | _ => False

def UninitRuns : WorkerThreads E → WorkerThreads E → Prop := Runs (WorkerThreads.step eng) fun _ ev => IsUninit ev

lemma uninitRuns_step (hev : IsUninit ev) (hstep : s.step eng ev = .ok s') :
    UninitRuns eng s s' :=
  Relation.ReflTransGen.single ⟨ev, hev, hstep⟩

/-- Steps inside the loop of `Uninit`. -/
def LoopRuns : WorkerThreads E → WorkerThreads E → Prop :=
  Runs (WorkerThreads.step eng) fun s ev => IsUninit ev ∧ NoCallOpen s ev

lemma loopRuns_step (hev : IsUninit ev) (hopen : NoCallOpen s ev) (hstep : s.step eng ev = .ok s') :
    LoopRuns eng s s' :=
  Relation.ReflTransGen.single ⟨ev, ⟨hev, hopen⟩, hstep⟩

lemma LoopRuns.inv (h : LoopRuns eng s s') (hinv : ThreadInv eng s) : ThreadInv eng s' :=
  h.invariant hinv fun _ _ _ hs hev hstep => hs.step eng hev.2 hstep

lemma LoopRuns.uninit (h : LoopRuns eng s s') : UninitRuns eng s s' := h.mono fun _ _ hev => hev.1

structure Emptied (s s' : WorkerThreads E) (buffer' : List WorkerTask) : Prop where
  poller : s'.poller = .draining true buffer'
  done : buffer'.length = kMaxSubmitNum ∨ s'.passes.worker.workerTasks = []
  engine : s'.passes.worker.worker = s.passes.worker.worker
  queue : s'.passes.worker.workerTasks.length ≤ s.passes.worker.workerTasks.length

lemma drain_runs {queue : List WorkerTask} (hpoller : s.poller = .draining true buffer)
    (hroom : buffer.length ≤ kMaxSubmitNum) (hqueue : s.passes.worker.workerTasks = queue) :
    ∃ s' buffer', LoopRuns eng s s' ∧ Emptied s s' buffer' ∧
      (buffer = [] → queue ≠ [] → s'.passes.worker.workerTasks.length < queue.length) ∧
      (queue = [] → buffer' = buffer ∧ s' = s) := by
  induction queue generalizing s buffer with
  | nil =>
    exact ⟨s, buffer, Relation.ReflTransGen.refl, ⟨hpoller, .inr hqueue, rfl, le_rfl⟩, fun _ hne => absurd rfl hne,
      fun _ => ⟨rfl, rfl⟩⟩
  | cons task tasks ih =>
    by_cases hlt : buffer.length < kMaxSubmitNum
    · have hpop : s.step eng .pop = .ok { s with
          passes := { s.passes with worker := { s.passes.worker with workerTasks := tasks } }
          poller := .draining true (buffer ++ [task]) } := by
        change s.pop = _
        unfold WorkerThreads.pop
        rw [hpoller, hqueue]
        exact if_pos hlt
      have hroom' : (buffer ++ [task]).length ≤ kMaxSubmitNum := by
        rw [length_append]
        exact hlt
      obtain ⟨s', buffer', hruns, hemptied, -, -⟩ := ih
        (s := { s with
          passes := { s.passes with worker := { s.passes.worker with workerTasks := tasks } }
          poller := .draining true (buffer ++ [task]) }) rfl hroom' rfl
      have hle : s'.passes.worker.workerTasks.length ≤ tasks.length := hemptied.queue
      refine ⟨s', buffer', (loopRuns_step eng (by trivial) (by trivial) hpop).trans hruns,
        ⟨hemptied.poller, hemptied.done, hemptied.engine, ?_⟩, ?_, fun hnil => by cases hnil⟩
      · rw [hqueue, length_cons]
        omega
      · intro _ _
        rw [length_cons]
        omega
    · refine ⟨s, buffer, Relation.ReflTransGen.refl, ⟨hpoller, .inl (by omega), rfl, le_rfl⟩, ?_,
        fun hnil => by cases hnil⟩
      rintro rfl
      exact absurd (Nat.zero_lt_succ _) hlt

/-- What the loop of `Uninit` has yet to do: the tasks in the queue, the requests of the engine, and
how far they are. -/
def left (rank : E → Nat) (w : QatPollerWorker E) : Nat × Nat × Nat :=
  (w.workerTasks.length, (eng.held w.worker).length, rank w.worker)

def Less : Nat × Nat × Nat → Nat × Nat × Nat → Prop := Prod.Lex (· < ·) (Prod.Lex (· < ·) (· < ·))

lemma less_wf : WellFounded Less := WellFounded.prod_lex Nat.lt_wfRel.wf (WellFounded.prod_lex Nat.lt_wfRel.wf Nat.lt_wfRel.wf)

lemma poll_progress (hdelivers : Delivering eng rank) (h : Pending w (eng.held w.worker) rest)
    (hqueue : w.workerTasks = []) :
    (QatPollerWorker.submitAndPoll eng [] w).worker.hasUnFinishedReqs = false ∨
      Less (left eng rank (QatPollerWorker.submitAndPoll eng [] w).worker) (left eng rank w) := by
  obtain ⟨rest', hpass, hhead⟩ := submitAndPoll_spec eng (fun _ ht => absurd ht not_mem_nil) h
  obtain ⟨rest'', hprogress, _⟩ := pollingAndMerge_spec eng h
  have hengine : (QatPollerWorker.submitAndPoll eng [] w).worker.worker = (eng.poll w.worker kMaxSubmitNum).2.2 :=
    hprogress.engine
  have hheld := eng.held_poll w.worker kMaxSubmitNum
  have hqueue' := hpass.queue.trans hqueue
  by_cases hnone : eng.held w.worker = []
  · left
    have hpoll : (eng.poll w.worker kMaxSubmitNum).1 ≤ 0 := by
      have hlength := congrArg List.length (eng.poll_order w.worker kMaxSubmitNum)
      rw [hnone, take_nil, length_map, eng.poll_length] at hlength
      exact Int.toNat_eq_zero.mp hlength
    have hheld' : eng.held (QatPollerWorker.submitAndPoll eng [] w).worker.worker = [] := by
      rw [hengine, hheld, hnone, drop_nil]
    have hfailed := hpass.none_waiting eng (hhead hpoll) hheld'
    have hinflight := hpass.pending.inflight
    rw [hheld'] at hinflight
    unfold hasUnFinishedReqs
    rw [hfailed, hqueue', hinflight]
    rfl
  · right
    unfold left Less
    rw [hqueue', hqueue, hengine]
    apply Prod.Lex.right
    rcases hdelivers w.worker hnone with hreports | hnearer
    · apply Prod.Lex.left
      have hpos : 0 < (eng.poll w.worker kMaxSubmitNum).1.toNat := Int.lt_toNat.mpr hreports
      have hlen : 0 < (eng.held w.worker).length := length_pos_iff.mpr hnone
      rw [hheld, length_drop]
      omega
    · by_cases hsame : (eng.poll w.worker kMaxSubmitNum).1.toNat = 0
      · rw [hheld, hsame, drop_zero]
        exact Prod.Lex.right _ hnearer
      · apply Prod.Lex.left
        have hlen : 0 < (eng.held w.worker).length := length_pos_iff.mpr hnone
        rw [hheld, length_drop]
        omega

lemma pass_runs (hdelivers : Delivering eng rank) (hinv : ThreadInv eng s)
    (hpoller : s.poller = .draining true buffer) :
    ∃ s', LoopRuns eng s s' ∧ s'.poller = .check ∧ (buffer = [] →
      s'.passes.worker.hasUnFinishedReqs = false ∨ Less (left eng rank s'.passes.worker) (left eng rank s.passes.worker)) := by
  have hroom := hinv.room
  rw [hpoller] at hroom
  obtain ⟨s₁, buffer₁, hruns, hemptied, hshorter, hsame⟩ := drain_runs eng hpoller hroom rfl
  have hinv₁ := hruns.inv eng hinv
  have hstep : s₁.step eng .submitAndPoll = .ok { s₁ with
      passes := s₁.passes.append (QatPollerWorker.submitAndPoll eng buffer₁ s₁.passes.worker)
      poller := .check } := by
    change s₁.submitAndPoll eng = _
    unfold WorkerThreads.submitAndPoll
    rw [hemptied.poller]
    exact if_pos hemptied.done
  refine ⟨_, hruns.trans (loopRuns_step eng (by trivial) (by trivial) hstep), rfl, ?_⟩
  rintro rfl
  change (QatPollerWorker.submitAndPoll eng buffer₁ s₁.passes.worker).worker.hasUnFinishedReqs = false ∨
    Less (left eng rank (QatPollerWorker.submitAndPoll eng buffer₁ s₁.passes.worker).worker) _
  by_cases hqueue : s.passes.worker.workerTasks = []
  · obtain ⟨rfl, rfl⟩ := hsame hqueue
    obtain ⟨rest, hworker⟩ := hinv.worker
    exact poll_progress eng hdelivers hworker.pending hqueue
  · right
    have hbuffered := hinv₁.buffered
    rw [hemptied.poller] at hbuffered
    obtain ⟨rest, hworker⟩ := hinv₁.worker
    obtain ⟨rest', hpass, _⟩ := submitAndPoll_spec eng hbuffered hworker.pending
    apply Prod.Lex.left
    have hkept : (QatPollerWorker.submitAndPoll eng buffer₁ s₁.passes.worker).worker.workerTasks = _ := hpass.queue
    rw [hkept]
    exact hshorter rfl hqueue

lemma returns_of_reset (hpoller : s.poller = .reset) :
    ∃ s', UninitRuns eng s s' ∧ s'.poller = .returned := by
  have hreset : s.step eng .reset = .ok { s with poller := .returned } := if_pos hpoller
  exact ⟨_, uninitRuns_step eng (by trivial) hreset, rfl⟩

lemma returns_of_close (hpoller : s.poller = .close) :
    ∃ s', UninitRuns eng s s' ∧ s'.poller = .returned := by
  have hclose : s.step eng .close = .ok { s with poller := .reset } := if_pos hpoller
  obtain ⟨s', hruns, hreturned⟩ := returns_of_reset eng (s := { s with poller := .reset }) rfl
  exact ⟨s', (uninitRuns_step eng (by trivial) hclose).trans hruns, hreturned⟩

lemma returns_of_finished (hpoller : s.poller = .check) (hfinished : s.passes.worker.hasUnFinishedReqs = false) :
    ∃ s', UninitRuns eng s s' ∧ s'.poller = .returned := by
  have hcheck : s.step eng .hasUnFinishedReqs = .ok { s with poller := .close } := by
    change s.advance _ _ = _
    rw [hfinished]
    exact if_pos hpoller
  obtain ⟨s', hruns, hreturned⟩ := returns_of_close eng (s := { s with poller := .close }) rfl
  exact ⟨s', (uninitRuns_step eng (by trivial) hcheck).trans hruns, hreturned⟩

theorem returns_of_check (hdelivers : Delivering eng rank) (hinv : ThreadInv eng s) (hpoller : s.poller = .check) :
    ∃ s', UninitRuns eng s s' ∧ s'.poller = .returned := by
  -- the order of what is left to do carries the induction
  generalize hm : left eng rank s.passes.worker = m
  induction m using less_wf.induction generalizing s with
  | h m ih =>
    cases hfinished : s.passes.worker.hasUnFinishedReqs with
    | false => exact returns_of_finished eng hpoller hfinished
    | true =>
      have hcheck : s.step eng .hasUnFinishedReqs = .ok { s with poller := .draining true [] } := by
        change s.advance _ _ = _
        rw [hfinished]
        exact if_pos hpoller
      have hopen : NoCallOpen s .hasUnFinishedReqs := by
        intro hfalse
        rw [hfinished] at hfalse
        cases hfalse
      have hstart := loopRuns_step eng (by trivial) hopen hcheck
      obtain ⟨s₁, hruns, hpoller₁, hless⟩ := pass_runs eng hdelivers (hstart.inv eng hinv) rfl
      have hruns := hstart.trans hruns
      rcases hless rfl with hfinished₁ | hless
      · obtain ⟨s', hruns', hreturned⟩ := returns_of_finished eng hpoller₁ hfinished₁
        exact ⟨s', (LoopRuns.uninit eng hruns).trans hruns', hreturned⟩
      · obtain ⟨s', hruns', hreturned⟩ := ih _ (hm ▸ hless) (LoopRuns.inv eng hruns hinv) hpoller₁ rfl
        exact ⟨s', (LoopRuns.uninit eng hruns).trans hruns', hreturned⟩

/-- From every point of `Uninit` the poller thread comes to its end. -/
theorem uninit_returns (hdelivers : Delivering eng rank) (hinv : ThreadInv eng s) (hrunning : s.running = false) :
    ∃ s', UninitRuns eng s s' ∧ s'.poller = .returned := by
  have hnotRun : ¬ InRun s.poller := by
    rw [← hinv.running, hrunning]
    exact Bool.false_ne_true
  cases hpoller : s.poller with
  | run =>
    rw [hpoller] at hnotRun
    exact absurd trivial hnotRun
  | draining uninit buffer =>
    rw [hpoller] at hnotRun
    cases uninit with
    | false => exact absurd rfl hnotRun
    | true =>
      obtain ⟨s₁, hruns, hpoller₁, -⟩ := pass_runs eng hdelivers hinv hpoller
      obtain ⟨s', hruns', hreturned⟩ := returns_of_check eng hdelivers (hruns.inv eng hinv) hpoller₁
      exact ⟨s', (hruns.uninit eng).trans hruns', hreturned⟩
  | check => exact returns_of_check eng hdelivers hinv hpoller
  | close => exact returns_of_close eng hpoller
  | reset => exact returns_of_reset eng hpoller
  | returned => exact ⟨s, Relation.ReflTransGen.refl, hpoller⟩

/-- In every run in which the loop of `Uninit` is left while no call of `Schedule` is between its load
and its push, no call is lost; and `Uninit` returns when the engine delivers. -/
theorem shutdown_loses_none {e : E} (hheld : eng.held e = []) {s : WorkerThreads E}
    (h : Runs (WorkerThreads.step eng) NoCallOpen (.new e) s) :
    NoneLost eng s ∧ ∀ rank, Delivering eng rank → s.running = false → ∃ s', UninitRuns eng s s' ∧ s'.poller = .returned :=
  ⟨(threadInv_of_runs eng hheld h).noneLost eng,
    fun _ hdelivers hrunning => uninit_returns eng hdelivers (threadInv_of_runs eng hheld h) hrunning⟩

def eagerEngine : PollerEngine (List WorkerTask) where
  submitAsyncRequest := fun e task => (.kOk, e ++ [task])
  poll := fun e _ => (e.length, e.map fun task => (task, ⟨8, 4, 0, 0, .kOk, task.addr⟩), [])
  held := id
  held_submit := fun _ _ => rfl
  poll_length := by
    intro e maxNum
    simp
  poll_order := by
    intro e maxNum
    simp [Function.comp_def]
  held_poll := by
    intro e maxNum
    simp

lemma delivering_eagerEngine : Delivering eagerEngine fun _ => 0 := by
  intro e hheld
  left
  change (0 : Int) < (e.length : Int)
  exact Int.natCast_pos.mpr (length_pos_iff.mpr hheld)

/-- A call reads `running_`, the worker is shut down, and then the call pushes its task. -/
theorem push_after_uninit_is_lost :
    ∃ s, Runs (WorkerThreads.step eagerEngine) (fun _ _ => True) (.new []) s ∧ s.poller = .returned ∧
      ReturnedOk s 0 (queueRequest 8 7) ∧
      s.passes.handled = [] ∧ s.pushedLate = [0] ∧ ¬ NoneLost eagerEngine s := by
  obtain ⟨s, hruns, -, hgoal⟩ := exists_runs_of_reaches (WorkerThreads.step eagerEngine) (.new [])
    [.load (queueRequest 8 7), .store, .hasUnFinishedReqs, .close, .reset, .create 0, .push 0] (fun _ _ => true)
    (fun s => decide (s.poller = .returned ∧ s.calls = [⟨queueRequest 8 7, .returned .kOk⟩] ∧ s.passes.handled = [] ∧
      s.pushedLate = [0])) (fun _ _ _ => trivial) (by decide +kernel)
  obtain ⟨hpoller, hcalls, hhandled, hlate⟩ := of_decide_eq_true hgoal
  have hok : ReturnedOk s 0 (queueRequest 8 7) := by
    unfold ReturnedOk
    rw [hcalls]
    rfl
  refine ⟨s, hruns, hpoller, hok, hhandled, hlate, ?_⟩
  intro hnone
  have hlost := hnone.noLatePush
  rw [hlate] at hlost
  cases hlost

/-- A call pushes before `Uninit` and one in its loop, and a third one comes too late. -/
theorem shutdown_loses_none_two_calls :
    ∃ s, Runs (WorkerThreads.step eagerEngine) NoCallOpen (.new []) s ∧ s.poller = .returned ∧
      (s.passes.handled.map fun h => (h.task.addr, h.result.ctx)) = [(0, 7), (1, 8)] ∧
      (s.calls.map ScheduleCall.phase) = [.returned .kOk, .returned .kOk, .returned .kResourceBusy] ∧
      NoneLost eagerEngine s ∧ ∃ s', UninitRuns eagerEngine s s' ∧ s'.poller = .returned := by
  have hcheck : ∀ (s : WorkerThreads (List WorkerTask)) (ev : ThreadEvent),
      decide (NoCallOpen s ev) = true → NoCallOpen s ev := fun _ _ h => of_decide_eq_true h
  obtain ⟨s, hruns, -, hgoal⟩ := exists_runs_of_reaches (WorkerThreads.step eagerEngine) (.new [])
    [.load (queueRequest 8 7), .load (queueRequest 8 8), .create 0, .create 1, .push 0, .loopOnce, .pop,
      .submitAndPoll, .store, .load (queueRequest 8 9), .push 1, .hasUnFinishedReqs, .pop, .submitAndPoll,
      .hasUnFinishedReqs, .close, .reset] _
    (fun s => decide (s.poller = .returned ∧
      (s.passes.handled.map fun h => (h.task.addr, h.result.ctx)) = [(0, 7), (1, 8)] ∧
      (s.calls.map ScheduleCall.phase) = [.returned .kOk, .returned .kOk, .returned .kResourceBusy] ∧
      s.running = false)) hcheck (by decide +kernel)
  obtain ⟨hpoller, hhandled, hphases, hrunning⟩ := of_decide_eq_true hgoal
  obtain ⟨hnone, hreturns⟩ := shutdown_loses_none eagerEngine rfl hruns
  exact ⟨s, hruns, hpoller, hhandled, hphases, hnone, hreturns _ delivering_eagerEngine hrunning⟩

end Vesal.Proofs
