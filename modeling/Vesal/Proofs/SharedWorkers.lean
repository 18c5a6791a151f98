import Vesal.Library.EventRuns
import Vesal.QatPoller

/-! # Sharing of workers -/

namespace Vesal.Proofs

open Library PollerChannelOption QatPoller List Except

lemma tieLt_self (xs : List Int) : tieLt xs xs = false := by
  induction xs with
  | nil => rfl
  | cons x xs ih =>
    unfold tieLt
    rw [if_neg (lt_irrefl x), if_neg (lt_irrefl x), ih]

lemma eq_of_tieLt {xs ys : List Int} (hlen : xs.length = ys.length) (h : tieLt xs ys = false)
    (h' : tieLt ys xs = false) : xs = ys := by
  induction xs generalizing ys with
  | nil => exact (length_eq_zero_iff.mp hlen.symm).symm
  | cons x xs ih =>
    cases ys with
    | nil => cases hlen
    | cons y ys =>
      unfold tieLt at h h'
      by_cases hlt : x < y
      · rw [if_pos hlt] at h
        cases h
      · by_cases hgt : y < x
        · rw [if_pos hgt] at h'
          cases h'
        · rw [if_neg hlt, if_neg hgt] at h
          rw [if_neg hgt, if_neg hlt] at h'
          rw [ih (Nat.succ.inj hlen) h h', le_antisymm (not_lt.mp hgt) (not_lt.mp hlt)]

lemma equivalent_iff (a b : PollerChannelOption) : a.equivalent b = true ↔ a.tie = b.tie := by
  unfold equivalent less
  rw [Bool.and_eq_true, Bool.not_eq_true', Bool.not_eq_true']
  constructor
  · rintro ⟨h, h'⟩
    exact eq_of_tieLt rfl h h'
  · intro h
    rw [h]
    exact ⟨tieLt_self _, tieLt_self _⟩

structure AgreesForEngine (a b : PollerChannelOption) : Prop where
  compAlgorithm : a.compAlgorithm = b.compAlgorithm
  compLevel : a.compLevel = b.compLevel
  checksumType : a.checksumType = b.checksumType
  compressedChecksum : a.compressedChecksum = b.compressedChecksum
  timeoutMs : a.timeoutMs = b.timeoutMs
  haPolicy : a.haPolicy = b.haPolicy
  nodeAffinity : a.allocationOption.nodeAffinity = b.allocationOption.nodeAffinity
  deviceId : a.allocationOption.deviceId = b.allocationOption.deviceId

lemma HaPolicy.value_inj {a b : HaPolicy} (h : a.value = b.value) : a = b := by
  cases a <;> cases b <;> first | rfl | (revert h; decide)

lemma CodecAlgorithm.value_inj {a b : CodecAlgorithm} (h : a.value = b.value) : a = b := by
  cases a <;> cases b <;> first | rfl | (revert h; decide)

lemma CodecCompLevel.value_inj {a b : CodecCompLevel} (h : a.value = b.value) : a = b := by
  cases a <;> cases b <;> first | rfl | (revert h; decide)

lemma CodecChecksumType.value_inj {a b : CodecChecksumType} (h : a.value = b.value) : a = b := by
  cases a <;> cases b <;> first | rfl | (revert h; decide)

lemma toInt_inj {a b : Bool} (h : a.toInt = b.toInt) : a = b := by
  cases a <;> cases b <;> first | rfl | (revert h; decide)

lemma agrees_of_tie {a b : PollerChannelOption} (h : a.tie = b.tie)
    (hdevice : a.allocationOption.deviceId = b.allocationOption.deviceId) : AgreesForEngine a b := by
  unfold tie at h
  simp only [List.cons.injEq, and_true] at h
  obtain ⟨-, hpolicy, halgorithm, hlevel, htype, hchecksum, hnode, -, htimeout⟩ := h
  exact ⟨CodecAlgorithm.value_inj halgorithm, CodecCompLevel.value_inj hlevel, CodecChecksumType.value_inj htype,
    toInt_inj hchecksum, Int.ofNat.inj htimeout, HaPolicy.value_inj hpolicy, hnode, hdevice⟩

def workersOf (run : PollerRun) : List SharedWorker := run.gets.map Prod.snd

structure EntryOk (run : PollerRun) (kv : PollerChannelOption × QatPollerWorkerInfo) : Prop where
  opts : kv.2.worker.opts = kv.1
  known : kv.2.worker ∈ workersOf run
  positive : 0 < kv.2.refCnt
  counts : kv.2.refCnt + run.returns.count kv.2.worker = (workersOf run).count kv.2.worker

structure PollerInv (run : PollerRun) : Prop where
  unique : ∀ kv ∈ run.poller.workers, ∀ kv' ∈ run.poller.workers, kv.1.tie = kv'.1.tie → kv = kv'
  entries : ∀ kv ∈ run.poller.workers, EntryOk run kv
  fresh : ∀ worker ∈ workersOf run, worker.addr < run.poller.objects
  gone : ∀ worker ∈ workersOf run, run.alive worker = false →
    run.returns.count worker = (workersOf run).count worker ∧ worker ∈ run.uninits
  returned : ∀ worker ∈ run.returns, worker ∈ workersOf run
  uninits : ∀ worker ∈ run.uninits, worker ∈ workersOf run ∧ run.alive worker = false
  nodup : run.uninits.Nodup

lemma alive_iff (run : PollerRun) (worker : SharedWorker) :
    run.alive worker = true ↔ ∃ kv ∈ run.poller.workers, kv.2.worker = worker := by
  unfold PollerRun.alive
  rw [contains_iff_mem, mem_map]

lemma pollerInv_new : PollerInv .new where
  unique := fun _ h => absurd h not_mem_nil
  entries := fun _ h => absurd h not_mem_nil
  fresh := fun _ h => absurd h not_mem_nil
  gone := fun _ h => absurd h not_mem_nil
  returned := fun _ h => absurd h not_mem_nil
  uninits := fun _ h => absurd h not_mem_nil
  nodup := nodup_nil

variable {option : PollerChannelOption}

variable {p : QatPoller} {kv : PollerChannelOption × QatPollerWorkerInfo} {worker : SharedWorker}

lemma find_some (h : p.find option = some kv) :
    kv ∈ p.workers ∧ kv.1.tie = option.tie := by
  have hsome := find?_some h
  exact ⟨mem_of_find?_eq_some h, (equivalent_iff _ _).mp hsome⟩

lemma find_none (h : p.find option = none) (hkv : kv ∈ p.workers) : kv.1.tie ≠ option.tie := by
  intro htie
  have hnot := find?_eq_none.mp h kv hkv
  rw [equivalent_iff] at hnot
  exact hnot htie

namespace PollerInv

variable {run : PollerRun} {kv : PollerChannelOption × QatPollerWorkerInfo} {option : PollerChannelOption}

lemma mem_setRefCnt (h : PollerInv run) (hkv : kv ∈ run.poller.workers) (htie : kv.1.tie = option.tie) (n : Nat)
    (kv' : PollerChannelOption × QatPollerWorkerInfo) :
    kv' ∈ (run.poller.setRefCnt option n).workers ↔
      kv' = (kv.1, { kv.2 with refCnt := n }) ∨ kv' ∈ run.poller.workers ∧ kv' ≠ kv := by
  unfold setRefCnt
  rw [mem_map]
  constructor
  · rintro ⟨kv₀, hkv₀, rfl⟩
    by_cases heq : kv₀ = kv
    · rw [heq, if_pos ((equivalent_iff _ _).mpr htie)]
      exact .inl rfl
    · rw [if_neg]
      · exact .inr ⟨hkv₀, heq⟩
      · rw [equivalent_iff]
        intro htie₀
        exact heq (h.unique kv₀ hkv₀ kv hkv (htie₀.trans htie.symm))
  · rintro (rfl | ⟨hmem, hne⟩)
    · exact ⟨kv, hkv, if_pos ((equivalent_iff _ _).mpr htie)⟩
    · refine ⟨kv', hmem, if_neg ?_⟩
      rw [equivalent_iff]
      intro htie'
      exact hne (h.unique kv' hmem kv hkv (htie'.trans htie.symm))

lemma worker_ne (h : PollerInv run) {kv' : PollerChannelOption × QatPollerWorkerInfo} (hkv : kv ∈ run.poller.workers)
    (hkv' : kv' ∈ run.poller.workers) (hne : kv' ≠ kv) : kv'.2.worker ≠ kv.2.worker := by
  intro heq
  apply hne
  apply h.unique kv' hkv' kv hkv
  rw [← (h.entries kv' hkv').opts, ← (h.entries kv hkv).opts, heq]

variable {run' : PollerRun}

section

variable (h : PollerInv run)
include h

lemma alive_setRefCnt (hkv : kv ∈ run.poller.workers) (htie : kv.1.tie = option.tie) (n : Nat)
    (hpoller : run'.poller = run.poller.setRefCnt option n) (worker : SharedWorker) :
    run'.alive worker = run.alive worker := by
  rw [Bool.eq_iff_iff, alive_iff, alive_iff, hpoller]
  constructor
  · rintro ⟨kv', hkv', rfl⟩
    rcases (h.mem_setRefCnt hkv htie n kv').mp hkv' with rfl | ⟨hmem, -⟩
    · exact ⟨kv, hkv, rfl⟩
    · exact ⟨kv', hmem, rfl⟩
  · rintro ⟨kv', hkv', rfl⟩
    by_cases heq : kv' = kv
    · subst heq
      exact ⟨_, (h.mem_setRefCnt hkv htie n _).mpr (.inl rfl), rfl⟩
    · exact ⟨kv', (h.mem_setRefCnt hkv htie n kv').mpr (.inr ⟨hkv', heq⟩), rfl⟩

lemma setRefCnt (hkv : kv ∈ run.poller.workers) (htie : kv.1.tie = option.tie) {n : Nat} (hpos : 0 < n)
    (hpoller : run'.poller = run.poller.setRefCnt option n) (huninits : run'.uninits = run.uninits)
    (hworkers : ∀ worker, worker ∈ workersOf run' ↔ worker ∈ workersOf run)
    (hreturns : ∀ worker ∈ run'.returns, worker ∈ run.returns ∨ worker = kv.2.worker)
    (hcount : n + run'.returns.count kv.2.worker = (workersOf run').count kv.2.worker)
    (hother : ∀ worker ≠ kv.2.worker, run'.returns.count worker = run.returns.count worker ∧
      (workersOf run').count worker = (workersOf run).count worker) : PollerInv run' := by
  have hmem := h.mem_setRefCnt hkv htie n
  have halive := h.alive_setRefCnt hkv htie n hpoller
  have hworker : run.alive kv.2.worker = true := (alive_iff run _).mpr ⟨kv, hkv, rfl⟩
  refine ⟨?_, ?_, ?_, ?_, ?_, ?_, ?_⟩
  · intro a ha b hb hab
    rw [hpoller, hmem] at ha hb
    rcases ha with rfl | ⟨ha, hane⟩
    · rcases hb with rfl | ⟨hb, hbne⟩
      · rfl
      · exact absurd (h.unique b hb kv hkv hab.symm) hbne
    · rcases hb with rfl | ⟨hb, hbne⟩
      · exact absurd (h.unique a ha kv hkv hab) hane
      · exact h.unique a ha b hb hab
  · intro a ha
    rw [hpoller, hmem] at ha
    rcases ha with rfl | ⟨ha, hane⟩
    · have hentry := h.entries kv hkv
      exact ⟨hentry.opts, (hworkers _).mpr hentry.known, hpos, hcount⟩
    · have hentry := h.entries a ha
      obtain ⟨hreturned, hgot⟩ := hother _ (h.worker_ne hkv ha hane)
      exact ⟨hentry.opts, (hworkers _).mpr hentry.known, hentry.positive, hreturned ▸ hgot ▸ hentry.counts⟩
  · intro worker hworker
    rw [hworkers] at hworker
    rw [hpoller]
    exact h.fresh worker hworker
  · intro worker hmem' hdead
    rw [hworkers] at hmem'
    rw [halive] at hdead
    have hne : worker ≠ kv.2.worker := by
      rintro rfl
      rw [hworker] at hdead
      cases hdead
    obtain ⟨hreturned, hgot⟩ := hother worker hne
    rw [hreturned, hgot, huninits]
    exact h.gone worker hmem' hdead
  · intro worker hmem'
    rw [hworkers]
    rcases hreturns worker hmem' with hmem' | rfl
    · exact h.returned worker hmem'
    · exact (h.entries kv hkv).known
  · intro worker hmem'
    rw [huninits] at hmem'
    rw [hworkers, halive]
    exact h.uninits worker hmem'
  · rw [huninits]
    exact h.nodup

lemma get_shared (hfind : run.poller.find option = some kv) :
    PollerInv { run with
      poller := run.poller.setRefCnt option (kv.2.refCnt + 1), gets := run.gets ++ [(option, kv.2.worker)] } := by
  obtain ⟨hkv, htie⟩ := find_some hfind
  have hlist : ∀ p, workersOf { run with poller := p, gets := run.gets ++ [(option, kv.2.worker)] } =
      workersOf run ++ [kv.2.worker] := fun _ => map_append
  refine h.setRefCnt (n := kv.2.refCnt + 1) hkv htie (Nat.succ_pos _) rfl rfl ?_ (fun _ hmem => .inl hmem) ?_ ?_
  · intro worker
    rw [hlist, mem_append, mem_singleton]
    refine ⟨?_, .inl⟩
    rintro (hmem | rfl)
    · exact hmem
    · exact (h.entries kv hkv).known
  · rw [hlist, count_append, count_singleton_self, ← (h.entries kv hkv).counts]
    dsimp only
    omega
  · intro worker hne
    rw [hlist, count_append, count_singleton, if_neg (by simpa using hne.symm)]
    exact ⟨rfl, rfl⟩

lemma get_new (hfind : run.poller.find option = none) {worker : SharedWorker}
    (haddr : worker.addr = run.poller.objects) (hopts : worker.opts = option)
    (hentries : run'.poller.workers = run.poller.workers ++ [(option, ⟨worker, 1⟩)])
    (hobjects : run'.poller.objects = run.poller.objects + 1) (hgets : workersOf run' = workersOf run ++ [worker])
    (hreturns : run'.returns = run.returns) (huninits : run'.uninits = run.uninits) : PollerInv run' := by
  have hnew : worker ∉ workersOf run := by
    intro hmem
    have := h.fresh worker hmem
    omega
  have hcount : ∀ w ∈ workersOf run, (workersOf run').count w = (workersOf run).count w := by
    intro w hmem
    have hne : w ≠ worker := by
      rintro rfl
      exact hnew hmem
    rw [hgets, count_append, count_singleton, if_neg (by simpa using hne.symm), Nat.add_zero]
  have halive : ∀ w, run'.alive w = true ↔ run.alive w = true ∨ w = worker := by
    intro w
    rw [alive_iff, alive_iff, hentries]
    simp only [mem_append, mem_singleton, or_and_right, exists_or, exists_eq_left]
    exact or_congr_right eq_comm
  refine ⟨?_, ?_, ?_, ?_, ?_, ?_, ?_⟩
  · rw [hentries]
    intro a ha b hb hab
    rcases mem_append.mp ha with ha | ha
    · rcases mem_append.mp hb with hb | hb
      · exact h.unique a ha b hb hab
      · rw [mem_singleton.mp hb] at hab
        exact absurd hab (find_none hfind ha)
    · rcases mem_append.mp hb with hb | hb
      · rw [mem_singleton.mp ha] at hab
        exact absurd hab.symm (find_none hfind hb)
      · rw [mem_singleton.mp ha, mem_singleton.mp hb]
  · rw [hentries]
    intro a ha
    rcases mem_append.mp ha with ha | ha
    · have hentry := h.entries a ha
      refine ⟨hentry.opts, hgets ▸ mem_append_left _ hentry.known, hentry.positive, ?_⟩
      rw [hcount _ hentry.known, hreturns]
      exact hentry.counts
    · have hnot : worker ∉ run.returns := fun hmem => hnew (h.returned _ hmem)
      rw [mem_singleton.mp ha]
      refine ⟨hopts, hgets ▸ mem_append_right _ (mem_singleton_self _), Nat.one_pos, ?_⟩
      rw [hreturns, hgets, count_append, count_singleton_self, count_eq_zero_of_not_mem hnew,
        count_eq_zero_of_not_mem hnot]
  · rw [hgets, hobjects]
    intro w hmem
    rcases mem_append.mp hmem with hmem | hmem
    · exact (h.fresh w hmem).trans (Nat.lt_succ_self _)
    · rw [mem_singleton.mp hmem, haddr]
      exact Nat.lt_succ_self _
  · intro w hmem hdead
    have hnot := mt (halive w).mpr (by rw [hdead]; exact Bool.false_ne_true)
    rw [not_or, Bool.not_eq_true] at hnot
    rw [hgets] at hmem
    rcases mem_append.mp hmem with hmem | hmem
    · rw [hreturns, huninits, hcount w hmem]
      exact h.gone w hmem hnot.1
    · exact absurd (mem_singleton.mp hmem) hnot.2
  · rw [hreturns, hgets]
    intro w hmem
    exact mem_append_left _ (h.returned w hmem)
  · rw [huninits, hgets]
    intro w hmem
    obtain ⟨hknown, hdead⟩ := h.uninits w hmem
    refine ⟨mem_append_left _ hknown, ?_⟩
    rw [← Bool.not_eq_true, halive, not_or, Bool.not_eq_true]
    refine ⟨hdead, ?_⟩
    rintro rfl
    exact hnew hknown
  · rw [huninits]
    exact h.nodup

lemma get_failed (objects : Nat) (hle : run.poller.objects ≤ objects) :
    PollerInv { run with poller := { run.poller with objects := objects } } := by
  refine ⟨h.unique, fun kv hkv => ?_, fun w hmem => (h.fresh w hmem).trans_le hle, h.gone, h.returned, h.uninits, h.nodup⟩
  obtain ⟨hopts, hknown, hpos, hcount⟩ := h.entries kv hkv
  exact ⟨hopts, hknown, hpos, hcount⟩

end

end PollerInv

lemma get_cases (run : PollerRun) (option : PollerChannelOption) (createR : StatusCode) :
    (∃ objects, run.poller.objects ≤ objects ∧
        run.get option createR = { run with poller := { run.poller with objects := objects } }) ∨
      (∃ kv, run.poller.getRefCnt < kMaxWorkerNumPerPoller ∧ run.poller.find option = some kv ∧
        run.get option createR = { run with
        poller := run.poller.setRefCnt option (kv.2.refCnt + 1), gets := run.gets ++ [(option, kv.2.worker)] }) ∨
      (run.poller.find option = none ∧ run.get option createR = { run with
        poller := ⟨run.poller.workers ++ [(option, ⟨⟨run.poller.objects, option⟩, 1⟩)], run.poller.objects + 1⟩
        gets := run.gets ++ [(option, ⟨run.poller.objects, option⟩)] }) := by
  unfold PollerRun.get getOrNewWorkerInternal
  by_cases hfull : kMaxWorkerNumPerPoller ≤ run.poller.getRefCnt
  · rw [if_pos hfull]
    exact .inl ⟨run.poller.objects, le_rfl, rfl⟩
  · rw [if_neg hfull]
    cases hfind : run.poller.find option with
    | some kv => exact .inr (.inl ⟨kv, not_le.mp hfull, rfl, rfl⟩)
    | none =>
      by_cases hcreate : createR ≠ .kOk
      · dsimp only
        rw [if_pos hcreate]
        exact .inl ⟨run.poller.objects + 1, Nat.le_succ _, rfl⟩
      · dsimp only
        rw [if_neg hcreate]
        exact .inr (.inr ⟨rfl, rfl⟩)

variable {run : PollerRun}

lemma PollerInv.get (h : PollerInv run) (option : PollerChannelOption) (createR : StatusCode) :
    PollerInv (run.get option createR) := by
  rcases get_cases run option createR with ⟨objects, hle, heq⟩ | ⟨kv, -, hfind, heq⟩ | ⟨hfind, heq⟩
  · rw [heq]
    exact h.get_failed objects hle
  · rw [heq]
    exact h.get_shared hfind
  · rw [heq]
    exact h.get_new hfind rfl rfl rfl rfl map_append rfl rfl

namespace PollerInv

variable {run : PollerRun} {kv : PollerChannelOption × QatPollerWorkerInfo}

lemma find_of_mem (h : PollerInv run) (hkv : kv ∈ run.poller.workers) :
    run.poller.find kv.2.worker.opts = some kv := by
  cases hfind : run.poller.find kv.2.worker.opts with
  | none =>
    have hne := find_none hfind hkv
    rw [(h.entries kv hkv).opts] at hne
    exact absurd rfl hne
  | some kv' =>
    obtain ⟨hkv', htie⟩ := find_some hfind
    rw [(h.entries kv hkv).opts] at htie
    rw [h.unique kv' hkv' kv hkv htie]

lemma ret_shared (h : PollerInv run) (hkv : kv ∈ run.poller.workers) (hmore : kv.2.refCnt - 1 ≠ 0) :
    PollerInv { run with
      poller := run.poller.setRefCnt kv.2.worker.opts (kv.2.refCnt - 1), returns := run.returns ++ [kv.2.worker] } := by
  have hcount := (h.entries kv hkv).counts
  refine h.setRefCnt (n := kv.2.refCnt - 1) hkv (by rw [(h.entries kv hkv).opts]) (Nat.pos_of_ne_zero hmore) rfl rfl
    (fun _ => Iff.rfl) ?_ ?_ ?_
  · intro worker hmem
    rcases mem_append.mp hmem with hmem | hmem
    · exact .inl hmem
    · exact .inr (mem_singleton.mp hmem)
  · change kv.2.refCnt - 1 + (run.returns ++ [kv.2.worker]).count kv.2.worker = (workersOf run).count kv.2.worker
    rw [count_append, count_singleton_self]
    omega
  · intro worker hne
    refine ⟨?_, rfl⟩
    change (run.returns ++ [kv.2.worker]).count worker = _
    rw [count_append, count_singleton, if_neg (by simpa using hne.symm), Nat.add_zero]

lemma ret_last (h : PollerInv run) (hkv : kv ∈ run.poller.workers) (hlast : kv.2.refCnt - 1 = 0) {run' : PollerRun}
    (hentries : run'.poller.workers = run.poller.workers.filter fun e => !e.1.equivalent kv.2.worker.opts)
    (hobjects : run'.poller.objects = run.poller.objects) (hgets : workersOf run' = workersOf run)
    (hreturns : run'.returns = run.returns ++ [kv.2.worker]) (huninits : run'.uninits = run.uninits ++ [kv.2.worker]) :
    PollerInv run' := by
  have hmem : ∀ e, e ∈ run'.poller.workers ↔ e ∈ run.poller.workers ∧ e ≠ kv := by
    intro e
    rw [hentries, mem_filter, Bool.not_eq_true', ← Bool.not_eq_true, equivalent_iff, (h.entries kv hkv).opts]
    apply and_congr_right
    intro he
    rw [not_iff_not]
    refine ⟨h.unique e he kv hkv, ?_⟩
    rintro rfl
    rfl
  have halive : ∀ w, run'.alive w = true ↔ run.alive w = true ∧ w ≠ kv.2.worker := by
    intro w
    rw [alive_iff, alive_iff]
    constructor
    · rintro ⟨e, he, rfl⟩
      obtain ⟨he, hne⟩ := (hmem e).mp he
      exact ⟨⟨e, he, rfl⟩, h.worker_ne hkv he hne⟩
    · rintro ⟨⟨e, he, rfl⟩, hne⟩
      refine ⟨e, (hmem e).mpr ⟨he, ?_⟩, rfl⟩
      rintro rfl
      exact hne rfl
  have hother : ∀ w ≠ kv.2.worker, run'.returns.count w = run.returns.count w := by
    intro w hne
    rw [hreturns, count_append, count_singleton, if_neg (by simpa using hne.symm), Nat.add_zero]
  have hdead : run.uninits.count kv.2.worker = 0 := by
    apply count_eq_zero_of_not_mem
    intro hmem'
    have hgone := (h.uninits _ hmem').2
    rw [(alive_iff run _).mpr ⟨kv, hkv, rfl⟩] at hgone
    cases hgone
  refine ⟨?_, ?_, ?_, ?_, ?_, ?_, ?_⟩
  · intro a ha b hb
    exact h.unique a ((hmem a).mp ha).1 b ((hmem b).mp hb).1
  · intro a ha
    obtain ⟨ha, hne⟩ := (hmem a).mp ha
    have hentry := h.entries a ha
    refine ⟨hentry.opts, hgets ▸ hentry.known, hentry.positive, ?_⟩
    rw [hother _ (h.worker_ne hkv ha hne), hgets]
    exact hentry.counts
  · rw [hgets, hobjects]
    exact h.fresh
  · intro w hknown hgone
    rw [hgets] at hknown ⊢
    by_cases heq : w = kv.2.worker
    · obtain ⟨-, -, hpos, hcount⟩ := h.entries kv hkv
      rw [heq, hreturns, huninits, count_append, count_singleton_self]
      exact ⟨by omega, mem_append_right _ (mem_singleton_self _)⟩
    · have hgone' : run.alive w = false := by
        rw [← Bool.not_eq_true, halive] at hgone
        rw [← Bool.not_eq_true]
        exact fun halive' => hgone ⟨halive', heq⟩
      obtain ⟨hcount, hmem'⟩ := h.gone w hknown hgone'
      rw [hother w heq, huninits]
      exact ⟨hcount, mem_append_left _ hmem'⟩
  · rw [hreturns, hgets]
    exact forall_mem_append.mpr ⟨h.returned, forall_mem_singleton.mpr (h.entries kv hkv).known⟩
  · rw [huninits, hgets]
    intro w hmem'
    rw [← Bool.not_eq_true, halive]
    rcases mem_append.mp hmem' with hmem' | hmem'
    · obtain ⟨hknown, hgone⟩ := h.uninits w hmem'
      refine ⟨hknown, ?_⟩
      rintro ⟨halive', -⟩
      rw [hgone] at halive'
      cases halive'
    · rw [mem_singleton.mp hmem']
      exact ⟨(h.entries kv hkv).known, fun hthis => hthis.2 rfl⟩
  · rw [huninits]
    apply h.nodup.append (nodup_singleton _)
    intro w hmem' hw
    rw [mem_singleton.mp hw] at hmem'
    exact absurd (count_eq_zero.mp hdead) (not_not.mpr hmem')

lemma ret (h : PollerInv run) {worker : Option SharedWorker} (halive : worker.all run.alive = true) :
    PollerInv (run.ret worker) := by
  cases worker with
  | none =>
    have hsame : run.ret none = run := by
      unfold PollerRun.ret returnWorkerInternal
      dsimp only
      rw [Option.toList_none, append_nil, append_nil]
    rw [hsame]
    exact h
  | some worker =>
    obtain ⟨kv, hkv, rfl⟩ := (alive_iff run worker).mp halive
    unfold PollerRun.ret returnWorkerInternal
    dsimp only
    rw [h.find_of_mem hkv]
    dsimp only
    rw [if_neg (not_not.mpr rfl)]
    by_cases hlast : kv.2.refCnt - 1 = 0
    · rw [if_pos hlast]
      exact h.ret_last hkv hlast rfl rfl rfl rfl rfl
    · rw [if_neg hlast]
      have hshared := h.ret_shared hkv hlast
      dsimp only
      rw [Option.toList_none, append_nil]
      exact hshared

end PollerInv

def SameDevice (run : PollerRun) : PollerTask → Prop
  | .get option _ => run.poller.getRefCnt < kMaxWorkerNumPerPoller → ∀ kv ∈ run.poller.workers,
      kv.1.equivalent option = true → kv.1.allocationOption.deviceId = option.allocationOption.deviceId
  | .ret _ => True

instance (run : PollerRun) (task : PollerTask) : Decidable (SameDevice run task) := by
  cases task with
  | get option createR => exact inferInstanceAs (Decidable (_ → _))
  | ret worker => exact isTrue trivial

lemma ret_ok {run' : PollerRun} {worker : Option SharedWorker} (h : run.step (.ret worker) = .ok run') :
    worker.all run.alive = true ∧ run.ret worker = run' := by
  have hstep : (if worker.all run.alive then .ok (run.ret worker) else .error PollerFault.dangling) = ok run' := h
  split at hstep
  · rename_i halive
    exact ⟨halive, ok.inj hstep⟩
  · cases hstep

theorem PollerInv.step {run' : PollerRun} {task : PollerTask} (h : PollerInv run) (hstep : run.step task = .ok run') :
    PollerInv run' := by
  cases task with
  | get option createR =>
    rw [← ok.inj hstep]
    exact h.get option createR
  | ret worker =>
    obtain ⟨halive, rfl⟩ := ret_ok hstep
    exact h.ret halive

def AllMatch (run : PollerRun) : Prop := ∀ g ∈ run.gets, AgreesForEngine g.1 g.2.opts

lemma AllMatch.get (h : AllMatch run) (hinv : PollerInv run) {createR : StatusCode}
    (hdevice : SameDevice run (.get option createR)) : AllMatch (run.get option createR) := by
  rcases get_cases run option createR with ⟨objects, -, heq⟩ | ⟨kv, hroom, hfind, heq⟩ | ⟨-, heq⟩
  · rw [heq]
    exact h
  · rw [heq]
    intro g hg
    rcases mem_append.mp hg with hg | hg
    · exact h g hg
    · rw [mem_singleton.mp hg]
      obtain ⟨hkv, htie⟩ := find_some hfind
      dsimp only
      rw [(hinv.entries kv hkv).opts]
      exact agrees_of_tie htie.symm (hdevice hroom kv hkv ((equivalent_iff _ _).mpr htie)).symm
  · rw [heq]
    exact forall_mem_append.mpr ⟨h, forall_mem_singleton.mpr ⟨rfl, rfl, rfl, rfl, rfl, rfl, rfl, rfl⟩⟩

/-- Workers fit the options that they are returned for; the reference count of a worker is the
number of times that it was got and not returned; and a worker is uninitialised and erased, once,
when that number is 0. -/
structure WorkersShared (run : PollerRun) : Prop where
  allMatch : AllMatch run
  refCnt : ∀ kv ∈ run.poller.workers, kv.2.refCnt + run.returns.count kv.2.worker = (workersOf run).count kv.2.worker
  erased : ∀ worker ∈ workersOf run,
    run.alive worker = false ↔ run.returns.count worker = (workersOf run).count worker
  uninitialised : ∀ worker ∈ workersOf run,
    worker ∈ run.uninits ↔ run.returns.count worker = (workersOf run).count worker
  once : run.uninits.Nodup

lemma PollerInv.count_of_alive (h : PollerInv run) (halive : run.alive worker = true) :
    run.returns.count worker ≠ (workersOf run).count worker := by
  obtain ⟨kv, hkv, rfl⟩ := (alive_iff run worker).mp halive
  obtain ⟨-, -, hpos, hcount⟩ := h.entries kv hkv
  omega

lemma PollerInv.erased_iff (h : PollerInv run) (hmem : worker ∈ workersOf run) :
    run.alive worker = false ↔ run.returns.count worker = (workersOf run).count worker := by
  refine ⟨fun hdead => (h.gone worker hmem hdead).1, ?_⟩
  intro hcount
  rw [← Bool.not_eq_true]
  exact fun halive => h.count_of_alive halive hcount

/-- In every run in which no option asks for another device than the worker that it shares. -/
theorem workers_shared_of_same_device {run : PollerRun} (h : Runs PollerRun.step SameDevice .new run) :
    WorkersShared run := by
  have hinv : PollerInv run ∧ AllMatch run := by
    apply h.invariant (P := fun run => PollerInv run ∧ AllMatch run)
    · exact ⟨pollerInv_new, fun _ hg => absurd hg List.not_mem_nil⟩
    · rintro run task run' ⟨hinv, hmatch⟩ hdevice hstep
      refine ⟨hinv.step hstep, ?_⟩
      cases task with
      | get option createR =>
        rw [← ok.inj hstep]
        exact hmatch.get hinv hdevice
      | ret worker =>
        obtain ⟨_, rfl⟩ := ret_ok hstep
        exact hmatch
  obtain ⟨hinv, hmatch⟩ := hinv
  refine ⟨hmatch, fun kv hkv => (hinv.entries kv hkv).counts, fun worker hmem => hinv.erased_iff hmem, ?_, hinv.nodup⟩
  intro worker hmem
  rw [← hinv.erased_iff hmem]
  exact ⟨fun huninit => (hinv.uninits worker huninit).2, fun hdead => (hinv.gone worker hmem hdead).2⟩

def deviceOption (deviceId : Int) : PollerChannelOption :=
  ⟨⟨.kNone, .kNone, true, 3000⟩, 0, .kLz4, .kLevel4, ⟨-1, deviceId⟩, false⟩

/-- An option for the second device is given the worker of the first. -/
theorem second_device_shares_worker :
    ∃ run, Runs PollerRun.step (fun _ _ => True) .new run ∧
      run.gets = [(deviceOption 0, ⟨0, deviceOption 0⟩), (deviceOption 1, ⟨0, deviceOption 0⟩)] ∧
      ¬ WorkersShared run := by
  obtain ⟨run, hruns, -, hgoal⟩ := exists_runs_of_reaches PollerRun.step .new
    [.get (deviceOption 0) .kOk, .get (deviceOption 1) .kOk] (fun _ _ => true)
    (fun run => decide (run.gets = [(deviceOption 0, ⟨0, deviceOption 0⟩), (deviceOption 1, ⟨0, deviceOption 0⟩)]))
    (fun _ _ _ => trivial) (by decide +kernel)
  have hgets := of_decide_eq_true hgoal
  refine ⟨run, hruns, hgets, ?_⟩
  intro hshared
  have hdevice := (hshared.allMatch (deviceOption 1, ⟨0, deviceOption 0⟩) (by rw [hgets]; simp)).deviceId
  exact absurd hdevice (by decide)

theorem workers_shared_of_same_device_twice :
    ∃ run, Runs PollerRun.step SameDevice .new run ∧ run.poller.workers = [] ∧
      run.uninits = [⟨0, deviceOption 0⟩] ∧ WorkersShared run := by
  have hcheck : ∀ (run : PollerRun) (task : PollerTask), decide (SameDevice run task) = true → SameDevice run task :=
    fun _ _ h => of_decide_eq_true h
  obtain ⟨run, hruns, -, hgoal⟩ := exists_runs_of_reaches PollerRun.step .new
    [.get (deviceOption 0) .kOk, .get (deviceOption 0) .kOk, .ret (some ⟨0, deviceOption 0⟩),
      .ret (some ⟨0, deviceOption 0⟩)] _
    (fun run => decide (run.poller.workers = [] ∧ run.uninits = [⟨0, deviceOption 0⟩])) hcheck (by decide +kernel)
  obtain ⟨hworkers, huninits⟩ := of_decide_eq_true hgoal
  exact ⟨run, hruns, hworkers, huninits, workers_shared_of_same_device hruns⟩

end Vesal.Proofs
