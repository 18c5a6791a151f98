import Vesal.QatHandle
import Vesal.Proofs.UnitAccounting

/-! # The units of the handles -/

namespace Vesal.Proofs

open Library List Function QatHandleRun QatHandle Except

def pendingUnits (st : HandleState) : List Nat :=
  match st.point with
  | .blackListing remaining _ => remaining
  | _ => st.handle.discardedUnits

def heldUnits (st : HandleState) : List Nat := st.handle.unit.toList ++ pendingUnits st

def discardedSince (history : List HandleAct) : List Nat :=
  history.foldl
    (fun units act =>
      match act with
      | .discarded i => units ++ [i]
      | .cleared => []
      | _ => units) []

lemma discardedSince_concat (history : List HandleAct) (act : HandleAct) :
    discardedSince (history ++ [act]) = match act with
      | .discarded i => discardedSince history ++ [i]
      | .cleared => []
      | _ => discardedSince history := by
  unfold discardedSince
  rw [foldl_append]
  cases act with
  | _ => rfl

variable {status : StatusCode} {i h : Nat} {st : HandleState} {run : QatHandleRun}

variable {sessR last : StatusCode} {run' : QatHandleRun}

variable {handle : QatHandle} {key n : Nat} {session : Option QatSession} {answers : Nat → Nat → StatusCode}
  {units : QatUnitRun}

lemma getOrCreateSession_spec {handle' : QatHandle}
    (hsess : ∀ kv ∈ handle.sessionCache, handle.unit = some kv.2.unit)
    (h : handle.getOrCreateSession key sessR = .ok (status, session, handle')) :
    (∃ cache, handle' = { handle with sessionCache := cache } ∧ ∀ kv ∈ cache, handle.unit = some kv.2.unit) ∧
      ∀ s, session = some s → handle.unit = some s.unit := by
  obtain ⟨channelOpts, unit, discardedSessions, discardedUnits, sessionCache⟩ := handle
  unfold getOrCreateSession at h
  cases hlookup : sessionCache.lookup key with
  | some s =>
    rw [hlookup] at h
    obtain ⟨_, rfl, rfl⟩ := h
    have hmem : (key, s) ∈ sessionCache := by
      obtain ⟨l₁, l₂, heq, _⟩ := lookup_eq_some_iff.mp hlookup
      rw [heq]
      simp
    refine ⟨⟨sessionCache, rfl, hsess⟩, ?_⟩
    intro s' hs
    rw [← Option.some.inj hs]
    exact hsess _ hmem
  | none =>
    rw [hlookup] at h
    cases unit with
    | none => exact absurd h (by simp)
    | some unit =>
      dsimp only at h
      by_cases hr : sessR ≠ .kOk
      · rw [if_pos hr] at h
        obtain ⟨_, rfl, rfl⟩ := h
        exact ⟨⟨sessionCache, rfl, hsess⟩, by simp⟩
      · rw [if_neg hr] at h
        obtain ⟨_, rfl, rfl⟩ := h
        refine ⟨⟨_, rfl, ?_⟩, ?_⟩
        · intro kv hkv
          rw [mem_append, mem_singleton] at hkv
          cases hkv with
          | inl hold => exact hsess kv hold
          | inr hnew => rw [hnew]
        · intro s hs
          rw [← Option.some.inj hs]

lemma getOrCreateSession_of_nil (handle : QatHandle) (hcache : handle.sessionCache = [])
    (hunit : handle.unit = some i) (key : Nat) (sessR : StatusCode) :
    handle.getOrCreateSession key sessR =
      if sessR ≠ .kOk then .ok (sessR, none, handle)
      else .ok (.kOk, some ⟨i, false⟩, { handle with sessionCache := [(key, ⟨i, false⟩)] }) := by
  unfold getOrCreateSession
  rw [hcache, hunit]
  rfl

lemma closeSessions_units {unit : Option Nat} {sessions rest : List (Nat × QatSession)}
    (h : closeSessions unit answers sessions i = .ok (status, rest)) :
    rest.map (fun kv => kv.2.unit) = sessions.map fun kv => kv.2.unit := by
  induction sessions generalizing i status rest with
  | nil =>
    unfold closeSessions at h
    simp only [ok.injEq, Prod.mk.injEq] at h
    rw [← h.2]
  | cons kv sessions ih =>
    unfold closeSessions at h
    cases hclose : tryCloseSession unit kv.2 (answers i) with
    | error fault =>
      rw [hclose] at h
      exact absurd h (by simp)
    | ok st =>
      rw [hclose] at h
      dsimp only at h
      by_cases hst : st ≠ .kOk
      · rw [if_pos hst] at h
        simp only [ok.injEq, Prod.mk.injEq] at h
        rw [← h.2]
      · rw [if_neg hst] at h
        cases hrest : closeSessions unit answers sessions (i + 1) with
        | error fault =>
          rw [hrest] at h
          exact absurd h (by simp)
        | ok result =>
          rw [hrest] at h
          simp only [ok.injEq, Prod.mk.injEq] at h
          rw [← h.2, map_cons, map_cons, ih hrest]

def PointFits (handle : QatHandle) : HandlePoint → Prop
  | .reinit n => handle.unit = none ∧ n < handle.discardedUnits.length
  | .blackListing _ _ => handle.unit = none
  | _ => True

structure HandleOwn (st : HandleState) : Prop where
  nodup : (heldUnits st).Nodup
  grabs : ∀ i, st.history.count (.grabbed i) =
    st.history.count (.putBack i) + st.history.count (.blackListed i) + (heldUnits st).count i
  discards : ∀ i, st.history.count (.discarded i) = st.history.count (.blackListed i) + (pendingUnits st).count i
  since : discardedSince st.history = st.handle.discardedUnits
  sessions : ∀ kv ∈ st.handle.sessionCache, st.handle.unit = some kv.2.unit
  point : PointFits st.handle st.point
  cleared : st.history.getLast? = some .cleared → heldUnits st = []

structure HandleInv (run : QatHandleRun) : Prop where
  units : UnitInv run.units
  own : ∀ h, HandleOwn (run.states h)
  grabbed : ∀ i, i ∈ run.units.grabbed ↔ ∃ h, i ∈ heldUnits (run.states h)
  alone : ∀ h h' i, i ∈ heldUnits (run.states h) → i ∈ heldUnits (run.states h') → h = h'
  blackListed : ∀ h i, HandleAct.blackListed i ∈ (run.states h).history → i ∈ run.units.blackList

lemma HandleOwn.sessionCache_eq_nil (hown : HandleOwn st) (hunit : st.handle.unit = none) :
    st.handle.sessionCache = [] := by
  apply eq_nil_iff_forall_not_mem.mpr
  intro kv hkv
  have h := hown.sessions kv hkv
  rw [hunit] at h
  exact absurd h (by simp)

/-- What the handle did in a step accounts for the units that it holds after it. -/
lemma HandleOwn.extend {st' : HandleState} (hown : HandleOwn st) (acts : List HandleAct)
    (hhistory : st'.history = st.history ++ acts) (hnodup : (heldUnits st').Nodup)
    (hgrabs : ∀ i, acts.count (.grabbed i) + (heldUnits st).count i =
      acts.count (.putBack i) + acts.count (.blackListed i) + (heldUnits st').count i)
    (hdiscards : ∀ i, acts.count (.discarded i) + (pendingUnits st).count i =
      acts.count (.blackListed i) + (pendingUnits st').count i)
    (hsince : discardedSince (st.history ++ acts) = st'.handle.discardedUnits)
    (hsessions : ∀ kv ∈ st'.handle.sessionCache, st'.handle.unit = some kv.2.unit)
    (hpoint : PointFits st'.handle st'.point)
    (hcleared : (st.history ++ acts).getLast? = some .cleared → heldUnits st' = []) : HandleOwn st' where
  nodup := hnodup
  grabs i := by
    have hold := hown.grabs i
    have hacts := hgrabs i
    rw [hhistory, count_append, count_append, count_append]
    omega
  discards i := by
    have hold := hown.discards i
    have hacts := hdiscards i
    rw [hhistory, count_append, count_append]
    omega
  since := hhistory ▸ hsince
  sessions := hsessions
  point := hpoint
  cleared := hhistory ▸ hcleared

lemma HandleInv.mem_grabbed (hinv : HandleInv run) (hi : i ∈ heldUnits (run.states h)) : i ∈ run.units.grabbed :=
  (hinv.grabbed i).mpr ⟨h, hi⟩

lemma HandleInv.held_elsewhere (hinv : HandleInv run) (h i : Nat) :
    i ∈ run.units.grabbed ∧ i ∉ heldUnits (run.states h) ↔ ∃ h', h' ≠ h ∧ i ∈ heldUnits (run.states h') := by
  constructor
  · rintro ⟨hi, hnot⟩
    obtain ⟨h', hi'⟩ := (hinv.grabbed i).mp hi
    exact ⟨h', fun heq => hnot (heq ▸ hi'), hi'⟩
  · rintro ⟨h', hne, hi'⟩
    exact ⟨hinv.mem_grabbed hi', fun hi => hne (hinv.alone h' h i hi' hi)⟩

lemma HandleInv.set (hinv : HandleInv run) (h : Nat) (hunits : UnitInv units) (hown : HandleOwn st)
    (hgrabbed : ∀ i, i ∈ units.grabbed ↔
      i ∈ heldUnits st ∨ (i ∈ run.units.grabbed ∧ i ∉ heldUnits (run.states h)))
    (hnew : ∀ i ∈ heldUnits st, i ∈ heldUnits (run.states h) ∨ i ∉ run.units.grabbed)
    (hblack : ∀ i ∈ run.units.blackList, i ∈ units.blackList) (hlisted : ∀ i, HandleAct.blackListed i ∈ st.history →
      HandleAct.blackListed i ∈ (run.states h).history ∨ i ∈ units.blackList) :
    HandleInv (run.set h units st) := by
  -- Nothing that the handle holds now is held by another one.
  have hapart : ∀ h' i, h' ≠ h → i ∈ heldUnits st → i ∉ heldUnits (run.states h') := by
    intro h' i hne hi hi'
    cases hnew i hi with
    | inl hold => exact hne (hinv.alone h' h i hi' hold)
    | inr hfree => exact hfree (hinv.mem_grabbed hi')
  refine ⟨hunits, ?_, ?_, ?_, ?_⟩
  · exact (forall_update_iff _ fun _ st => HandleOwn st).mpr ⟨hown, fun h' _ => hinv.own h'⟩
  · intro i
    refine (hgrabbed i).trans ?_
    rw [hinv.held_elsewhere]
    exact (exists_update_iff _ fun _ st => i ∈ heldUnits st).symm
  · intro h₁ h₂ i hi₁ hi₂
    dsimp only [QatHandleRun.set] at hi₁ hi₂
    by_cases hh₁ : h₁ = h
    · by_cases hh₂ : h₂ = h
      · rw [hh₁, hh₂]
      · rw [hh₁, update_self] at hi₁
        rw [update_of_ne hh₂] at hi₂
        exact absurd hi₂ (hapart h₂ i hh₂ hi₁)
    · rw [update_of_ne hh₁] at hi₁
      by_cases hh₂ : h₂ = h
      · rw [hh₂, update_self] at hi₂
        exact absurd hi₁ (hapart h₁ i hh₁ hi₂)
      · rw [update_of_ne hh₂] at hi₂
        exact hinv.alone h₁ h₂ i hi₁ hi₂
  · refine (forall_update_iff run.states fun _ st => ∀ i, .blackListed i ∈ st.history → i ∈ units.blackList).mpr ⟨?_, ?_⟩
    · intro i hi
      cases hlisted i hi with
      | inl hold => exact hblack i (hinv.blackListed h i hold)
      | inr hnow => exact hnow
    · exact fun h' _ i hi => hblack i (hinv.blackListed h' i hi)

lemma HandleOwn.grab {st' : HandleState} (hown : HandleOwn st) (hpending : pendingUnits st = st.handle.discardedUnits)
    (hunit : st.handle.unit = none) (hi : i ∉ heldUnits st) {cache : List (Nat × QatSession)}
    (hcache : ∀ kv ∈ cache, some i = some kv.2.unit) (point : HandlePoint)
    (hst : st' = ⟨{ st.handle with unit := some i, sessionCache := cache }, point, st.history ++ [.grabbed i]⟩)
    (hpending' : pendingUnits st' = st.handle.discardedUnits) (hpoint : PointFits st'.handle point) :
    HandleOwn st' ∧ heldUnits st' = i :: heldUnits st := by
  have hheld : heldUnits st' = i :: heldUnits st := by
    unfold heldUnits
    rw [hpending', hpending, hunit, hst]
    rfl
  refine ⟨hown.extend [.grabbed i] (hst ▸ rfl) ?_ ?_ ?_ ?_ ?_ ?_ ?_, hheld⟩
  · rw [hheld]
    exact nodup_cons.mpr ⟨hi, hown.nodup⟩
  · intro j
    simp [hheld, count_cons, Nat.add_comm]
  · intro j
    simp [hpending, hpending']
  · rw [hst]
    exact (discardedSince_concat _ _).trans hown.since
  · rw [hst]
    exact hcache
  · rw [hst] at hpoint ⊢
    exact hpoint
  · simp

lemma HandleOwn.grabDiscard (hown : HandleOwn st) (hpoint : st.point = .reinit n) (hi : i ∉ heldUnits st) :
    HandleOwn ⟨{ st.handle with unit := none, discardedUnits := st.handle.discardedUnits ++ [i] }, .reinit (n + 1),
        st.history ++ [.grabbed i, .discarded i]⟩ ∧
      heldUnits ⟨{ st.handle with unit := none, discardedUnits := st.handle.discardedUnits ++ [i] },
        .reinit (n + 1), st.history ++ [.grabbed i, .discarded i]⟩ = heldUnits st ++ [i] := by
  obtain ⟨hunit, hlen⟩ : PointFits st.handle (.reinit n) := hpoint ▸ hown.point
  have hpending : pendingUnits st = st.handle.discardedUnits := by simp [pendingUnits, hpoint]
  have hheld : heldUnits st = st.handle.discardedUnits := by simp [heldUnits, hpending, hunit]
  have hheld' : heldUnits ⟨{ st.handle with unit := none, discardedUnits := st.handle.discardedUnits ++ [i] },
      .reinit (n + 1), st.history ++ [.grabbed i, .discarded i]⟩ = heldUnits st ++ [i] := by
    rw [hheld]
    rfl
  refine ⟨hown.extend [.grabbed i, .discarded i] rfl ?_ ?_ ?_ ?_ ?_ ⟨rfl, ?_⟩ ?_, hheld'⟩
  · rw [hheld', ← concat_eq_append]
    exact hown.nodup.concat hi
  · intro j
    simp [hheld', count_cons, Nat.add_comm]
  · intro j
    rw [hpending]
    simp [pendingUnits, count_cons, Nat.add_comm]
  · rw [append_cons, discardedSince_concat, discardedSince_concat, hown.since]
  · simp [hown.sessionCache_eq_nil hunit]
  · rw [length_append]
    exact Nat.succ_lt_succ hlen
  · simp

lemma HandleInv.notMem_held (hinv : HandleInv run) (hi : i ∉ run.units.grabbed) (h : Nat) :
    i ∉ heldUnits (run.states h) :=
  fun hmem => hi ((hinv.grabbed i).mpr ⟨h, hmem⟩)

lemma HandleInv.set_grabbed (hinv : HandleInv run) (h : Nat) {fits : QatUnit → Prop} {c : Nat × Int}
    (hleast : GrabsLeast run.units.manager fits (some c.1)) (hown : HandleOwn st)
    (hheld : ∀ i, i ∈ heldUnits st ↔ i = c.1 ∨ i ∈ heldUnits (run.states h))
    (hlisted : ∀ i, HandleAct.blackListed i ∈ st.history → HandleAct.blackListed i ∈ (run.states h).history) :
    HandleInv (run.set h (run.units.grabbedUnit (run.units.manager.take (some c))) st) := by
  obtain ⟨unit, hunit, husable, _⟩ := hleast.least c.1 rfl
  obtain ⟨hfree, _, _⟩ := hinv.units.free_of_usable hunit husable
  have hgrabbed : (run.units.grabbedUnit (run.units.manager.take (some c))).grabbed = run.units.grabbed ∪ {c.1} := rfl
  apply hinv.set h (hinv.units.take hleast) hown
  · intro i
    have hmem : i ∈ heldUnits (run.states h) → i ∈ run.units.grabbed := hinv.mem_grabbed
    rw [hgrabbed, Finset.mem_union, Finset.mem_singleton, hheld]
    tauto
  · intro i hi
    cases (hheld i).mp hi with
    | inl heq => exact Or.inr (heq ▸ hfree)
    | inr hold => exact Or.inl hold
  · exact fun i hi => hi
  · exact fun i hi => Or.inl (hlisted i hi)

lemma HandleInv.set_same (hinv : HandleInv run) (h : Nat) (hown : HandleOwn st)
    (hheld : ∀ i, i ∈ heldUnits st ↔ i ∈ heldUnits (run.states h))
    (hlisted : ∀ i, HandleAct.blackListed i ∈ st.history → HandleAct.blackListed i ∈ (run.states h).history) :
    HandleInv (run.set h run.units st) := by
  apply hinv.set h hinv.units hown
  · intro i
    have hmem : i ∈ heldUnits (run.states h) → i ∈ run.units.grabbed := hinv.mem_grabbed
    rw [hheld]
    tauto
  · exact fun i hi => Or.inl ((hheld i).mp hi)
  · exact fun i hi => hi
  · exact fun i hi => Or.inl (hlisted i hi)

lemma HandleInv.keep (hinv : HandleInv run) (hunit : st.handle.unit = (run.states h).handle.unit)
    (hdiscarded : st.handle.discardedUnits = (run.states h).handle.discardedUnits)
    (hhistory : st.history = (run.states h).history) (hpending : pendingUnits st = pendingUnits (run.states h))
    (hpoint : PointFits st.handle st.point)
    (hcache : ∀ kv ∈ st.handle.sessionCache, (run.states h).handle.unit = some kv.2.unit) :
    HandleInv (run.set h run.units st) := by
  have hown := hinv.own h
  have hheld : heldUnits st = heldUnits (run.states h) := by
    unfold heldUnits
    rw [hpending, hunit]
  apply hinv.set_same h
  · refine ⟨hheld ▸ hown.nodup, ?_, ?_, ?_, hunit ▸ hcache, hpoint, ?_⟩
    · rw [hheld, hhistory]
      exact hown.grabs
    · rw [hpending, hhistory]
      exact hown.discards
    · rw [hhistory, hdiscarded]
      exact hown.since
    · rw [hheld, hhistory]
      exact hown.cleared
  · intro i
    rw [hheld]
  · rw [hhistory]
    exact fun i hi => hi

lemma HandleInv.initStep (hinv : HandleInv run) (hpoint : (run.states h).point = .returned last)
    (hunit : (run.states h).handle.unit = none) (hstep : run.initStep h sessR = .ok run') : HandleInv run' := by
  have hpending : pendingUnits (run.states h) = (run.states h).handle.discardedUnits := by simp [pendingUnits, hpoint]
  obtain ⟨ret, hret, hleast⟩ := hinv.units.grabAvailableUnit (run.states h).handle.selection
  unfold QatHandleRun.initStep at hstep
  dsimp only at hstep
  rw [hret] at hstep
  cases ret with
  | none =>
    obtain rfl := ok.inj hstep
    exact hinv.keep hunit.symm rfl rfl hpending.symm trivial (hinv.own h).sessions
  | some c =>
    simp only [QatUnitManager.take] at hstep
    cases hcreate : ({ (run.states h).handle with unit := some c.1 } : QatHandle).getOrCreateSession
        ({ (run.states h).handle with unit := some c.1 } : QatHandle).defaultKey sessR with
    | error fault =>
      rw [hcreate] at hstep
      exact absurd hstep (by simp)
    | ok result =>
      obtain ⟨status, session, handle⟩ := result
      rw [hcreate] at hstep
      obtain rfl := ok.inj hstep
      have hempty := (hinv.own h).sessionCache_eq_nil hunit
      obtain ⟨⟨cache, rfl, hcache⟩, _⟩ := getOrCreateSession_spec
        (by intro kv hkv; rw [hempty] at hkv; exact absurd hkv not_mem_nil) hcreate
      obtain ⟨unit, hget, husable, _⟩ := hleast.least c.1 rfl
      have hfree := (hinv.units.free_of_usable hget husable).1
      have hnot := hinv.notMem_held hfree h
      have hpoints : ∀ handle history,
          pendingUnits ⟨handle, if status = .kOk then .returned .kOk else .failedInit status, history⟩ =
            handle.discardedUnits ∧ PointFits handle (if status = .kOk then .returned .kOk else .failedInit status) := by
        intro handle history
        split
        · exact ⟨rfl, trivial⟩
        · exact ⟨rfl, trivial⟩
      obtain ⟨hown, hheld⟩ := (hinv.own h).grab hpending hunit hnot hcache _ rfl (hpoints _ _).1 (hpoints _ []).2
      apply hinv.set_grabbed h hleast hown
      · intro i
        rw [hheld, mem_cons]
      · intro i hi
        simpa using hi

lemma HandleInv.set_released (hinv : HandleInv run) (h : Nat) (hunits : UnitInv units) (hown : HandleOwn st)
    (hgrabbed : units.grabbed = run.units.grabbed \ {i})
    (hheld : ∀ j, j ∈ heldUnits (run.states h) ↔ j = i ∨ j ∈ heldUnits st) (hi : i ∉ heldUnits st)
    (hblack : ∀ j ∈ run.units.blackList, j ∈ units.blackList) (hlisted : ∀ j, HandleAct.blackListed j ∈ st.history →
      HandleAct.blackListed j ∈ (run.states h).history ∨ j ∈ units.blackList) :
    HandleInv (run.set h units st) := by
  apply hinv.set h hunits hown
  · intro j
    have hmem : j ∈ heldUnits (run.states h) → j ∈ run.units.grabbed := hinv.mem_grabbed
    have hne : j ∈ heldUnits st → j ≠ i := fun hj heq => hi (heq ▸ hj)
    rw [hheld] at hmem
    rw [hgrabbed, Finset.mem_sdiff, Finset.mem_singleton, hheld]
    tauto
  · exact fun j hj => Or.inl ((hheld j).mpr (Or.inr hj))
  · exact hblack
  · exact hlisted

def uninitState (st : HandleState) (atEnd : StatusCode) : HandleState :=
  ⟨{ st.handle with unit := none, sessionCache := [], discardedSessions := [] },
    .blackListing st.handle.discardedUnits atEnd, st.history ++ st.handle.unit.toList.map .putBack⟩

lemma HandleOwn.uninitState (hown : HandleOwn st) (hpending : pendingUnits st = st.handle.discardedUnits)
    (atEnd : StatusCode) : HandleOwn (uninitState st atEnd) := by
  have hheld : heldUnits st = st.handle.unit.toList ++ st.handle.discardedUnits := by
    unfold heldUnits
    rw [hpending]
  have hheld' : heldUnits (Proofs.uninitState st atEnd) = st.handle.discardedUnits := rfl
  refine hown.extend (st.handle.unit.toList.map .putBack) rfl ?_ ?_ ?_ ?_ ?_ rfl ?_
  · rw [hheld']
    exact (hheld ▸ hown.nodup).of_append_right
  · intro i
    rw [hheld, hheld']
    cases st.handle.unit with
    | none => simp
    | some j => simp [count_cons, Nat.add_comm]
  · intro i
    rw [hpending]
    cases st.handle.unit with
    | _ => simp [Proofs.uninitState, pendingUnits]
  · cases st.handle.unit with
    | none =>
      rw [Option.toList_none, map_nil, append_nil]
      exact hown.since
    | some i => exact (discardedSince_concat _ _).trans hown.since
  · exact fun kv hkv => absurd hkv not_mem_nil
  · intro hlast
    cases hunit : st.handle.unit with
    | none =>
      rw [hunit, Option.toList_none, map_nil, append_nil] at hlast
      have hnil := hown.cleared hlast
      rw [hheld] at hnil
      exact (append_eq_nil_iff.mp hnil).2
    | some i => simp [hunit] at hlast

section

variable (hinv : HandleInv run)
include hinv

lemma HandleInv.uninitStep {onError : StatusCode → StatusCode} {atEnd : StatusCode}
    (hpending : pendingUnits (run.states h) = (run.states h).handle.discardedUnits)
    (hstep : run.uninitStep h answers onError atEnd = .ok run') :
    HandleInv run' := by
  unfold QatHandleRun.uninitStep at hstep
  dsimp only at hstep
  cases hclose : closeSessions (run.states h).handle.unit answers (run.states h).handle.sessionCache 0 with
  | error fault =>
    rw [hclose] at hstep
    exact absurd hstep (by simp)
  | ok result =>
    obtain ⟨status, sessions⟩ := result
    rw [hclose] at hstep
    dsimp only at hstep
    by_cases hst : status ≠ .kOk
    · rw [if_pos hst] at hstep
      obtain rfl := ok.inj hstep
      -- The sessions that were closed are still on the same unit.
      have hcache : ∀ kv ∈ sessions, (run.states h).handle.unit = some kv.2.unit := by
        intro kv hkv
        have hmem : kv.2.unit ∈ sessions.map fun kv => kv.2.unit := mem_map_of_mem hkv
        rw [closeSessions_units hclose, mem_map] at hmem
        obtain ⟨kv', hkv', heq⟩ := hmem
        rw [← heq]
        exact (hinv.own h).sessions kv' hkv'
      exact hinv.keep rfl rfl rfl hpending.symm trivial hcache
    · rw [if_neg hst] at hstep
      obtain rfl := ok.inj hstep
      have hown := (hinv.own h).uninitState hpending atEnd
      have hheld : heldUnits (run.states h) =
          (run.states h).handle.unit.toList ++ heldUnits (uninitState (run.states h) atEnd) := by
        unfold heldUnits
        rw [hpending]
        rfl
      have hlisted : ∀ j, HandleAct.blackListed j ∈ (uninitState (run.states h) atEnd).history →
          HandleAct.blackListed j ∈ (run.states h).history := by
        intro j hj
        simpa [uninitState] using hj
      change HandleInv (run.set h _ (uninitState (run.states h) atEnd))
      cases hunit : (run.states h).handle.unit with
      | none =>
        rw [Option.toFinset_none, Finset.sdiff_empty]
        change HandleInv (run.set h run.units _)
        apply hinv.set_same h hown
        · intro i
          rw [hheld, hunit]
          rfl
        · exact hlisted
      | some i =>
        rw [hunit] at hheld
        have hmem : i ∈ run.units.grabbed := hinv.mem_grabbed (h := h) (by rw [hheld]; simp)
        rw [Option.toFinset_some]
        change HandleInv (run.set h _ _)
        apply hinv.set_released h (hinv.units.putBack hmem).1 hown rfl
        · intro j
          rw [hheld]
          simp
        · have hnodup := (hinv.own h).nodup
          rw [hheld] at hnodup
          exact (nodup_cons.mp hnodup).1
        · exact fun j hj => hj
        · exact fun j hj => Or.inl (hlisted j hj)

lemma HandleInv.blackListStep {remaining : List Nat}
    (hpoint : (run.states h).point = .blackListing remaining status) :
    HandleInv (run.blackListStep h remaining status) := by
  have hown := hinv.own h
  have hunit : (run.states h).handle.unit = none :=
    (hpoint ▸ hown.point : PointFits (run.states h).handle (.blackListing remaining status))
  have hpending : pendingUnits (run.states h) = remaining := by simp [pendingUnits, hpoint]
  have hheld : heldUnits (run.states h) = remaining := by simp [heldUnits, hpending, hunit]
  cases remaining with
  | nil =>
    have hheld' : heldUnits ⟨{ (run.states h).handle with discardedUnits := [] }, .returned status,
        (run.states h).history ++ [.cleared]⟩ = [] := by
      simp [heldUnits, pendingUnits, hunit]
    apply hinv.set_same h
    · refine hown.extend [.cleared] rfl ?_ ?_ ?_ (discardedSince_concat _ _) ?_ trivial fun _ => hheld'
      · rw [hheld']
        exact nodup_nil
      · intro i
        simp [hheld, hheld']
      · intro i
        rw [hpending]
        simp [pendingUnits]
      · simp [hown.sessionCache_eq_nil hunit]
    · intro i
      rw [hheld', hheld]
    · intro i hi
      simpa using hi
  | cons i remaining =>
    have hnodup := hown.nodup
    rw [hheld, nodup_cons] at hnodup
    have hheld' : heldUnits ⟨(run.states h).handle, .blackListing remaining status,
        (run.states h).history ++ [.blackListed i]⟩ = remaining := by
      simp [heldUnits, pendingUnits, hunit]
    have hmem : i ∈ run.units.grabbed := hinv.mem_grabbed (h := h) (by rw [hheld]; exact mem_cons_self)
    apply hinv.set_released h (hinv.units.putBack hmem).2 _ rfl
    · intro j
      rw [hheld', hheld, mem_cons]
    · rw [hheld']
      exact hnodup.1
    · exact fun j hj => Finset.mem_union_left _ hj
    · intro j hj
      rw [mem_append, mem_singleton, HandleAct.blackListed.injEq] at hj
      cases hj with
      | inl hold => exact Or.inl hold
      | inr heq => exact Or.inr (Finset.mem_union_right _ (Finset.mem_singleton.mpr heq))
    · refine hown.extend [.blackListed i] rfl ?_ ?_ ?_ ((discardedSince_concat _ _).trans hown.since) hown.sessions hunit ?_
      · rw [hheld']
        exact hnodup.2
      · intro j
        simp [hheld, hheld', count_cons, Nat.add_comm]
      · intro j
        rw [hpending]
        simp [pendingUnits, count_cons, Nat.add_comm]
      · simp

lemma HandleInv.reinitStart (hpoint : (run.states h).point = .returned last)
    (hunit : (run.states h).handle.unit = some i) :
    HandleInv (run.set h run.units
      ⟨(run.states h).handle.discard i, .reinit 0, (run.states h).history ++ [.discarded i]⟩) := by
  have hown := hinv.own h
  have hpending : pendingUnits (run.states h) = (run.states h).handle.discardedUnits := by simp [pendingUnits, hpoint]
  have hheld' : heldUnits ⟨(run.states h).handle.discard i, .reinit 0, (run.states h).history ++ [.discarded i]⟩ =
      (run.states h).handle.discardedUnits ++ [i] := rfl
  have hperm : ((run.states h).handle.discardedUnits ++ [i]).Perm (heldUnits (run.states h)) := by
    unfold heldUnits
    rw [hpending, hunit]
    exact perm_append_singleton i _
  apply hinv.set_same h
  · refine hown.extend [.discarded i] rfl ?_ ?_ ?_ ?_ ?_ ⟨rfl, ?_⟩ ?_
    · rw [hheld']
      exact hperm.nodup_iff.mpr hown.nodup
    · intro j
      rw [hheld', hperm.count_eq]
      simp
    · intro j
      rw [hpending]
      simp [pendingUnits, QatHandle.discard, count_cons, Nat.add_comm]
    · rw [discardedSince_concat, hown.since]
      rfl
    · exact fun kv hkv => absurd hkv not_mem_nil
    · simp [QatHandle.discard]
    · simp
  · intro j
    rw [hheld']
    exact hperm.mem_iff
  · intro j hj
    simpa using hj

lemma HandleInv.grabOtherStep (hpoint : (run.states h).point = .reinit n) (sessR : StatusCode) :
    ∃ run', run.grabOtherStep h n sessR = .ok run' ∧ HandleInv run' ∧
      ((run'.states h).point = .returned .kHardwareError ∨ (run'.states h).point = .reinit (n + 1) ∨
        (run'.states h).point = .returned .kOk ∧
          ∃ i unit, (run'.states h).handle.unit = some i ∧ run.units.manager.allUnits[i]? = some unit ∧
            ∀ j ∈ discardedSince (run.states h).history,
              (run.units.manager.allUnits[j]?).map QatUnit.deviceId ≠ some unit.deviceId) := by
  have hown := hinv.own h
  obtain ⟨hunit, _⟩ : PointFits (run.states h).handle (.reinit n) := hpoint ▸ hown.point
  have hpending : pendingUnits (run.states h) = (run.states h).handle.discardedUnits := by simp [pendingUnits, hpoint]
  have hempty := hown.sessionCache_eq_nil hunit
  obtain ⟨ret, hret, hleast⟩ := hinv.units.grabFromDiffDevice (run.states h).handle.discardedUnits
  unfold QatHandleRun.grabOtherStep
  dsimp only
  rw [hret]
  cases ret with
  | none =>
    refine ⟨_, rfl, ?_, Or.inl ?_⟩
    · exact hinv.keep hunit.symm rfl rfl hpending.symm trivial hown.sessions
    · simp [QatHandleRun.set]
  | some c =>
    obtain ⟨unit, hget, husable, hdevices, _⟩ := hleast.least c.1 rfl
    have hfree := (hinv.units.free_of_usable hget husable).1
    have hnot := hinv.notMem_held hfree h
    simp only [QatUnitManager.take]
    rw [getOrCreateSession_of_nil { (run.states h).handle with unit := some c.1 } hempty rfl]
    by_cases hr : sessR = .kOk
    · rw [if_neg (not_not.mpr hr)]
      refine ⟨_, rfl, ?_, Or.inr (Or.inr ⟨?_, c.1, unit, ?_, hget, ?_⟩)⟩
      · have hcache : ∀ kv ∈ [(({ (run.states h).handle with unit := some c.1 } : QatHandle).defaultKey,
            (⟨c.1, false⟩ : QatSession))], some c.1 = some kv.2.unit := by simp
        obtain ⟨hown', hheld'⟩ := hown.grab hpending hunit hnot hcache (.returned .kOk) rfl rfl trivial
        apply hinv.set_grabbed h hleast hown'
        · intro i
          rw [hheld', mem_cons]
        · intro i hi
          simpa using hi
      · simp [QatHandleRun.set]
      · simp [QatHandleRun.set]
      · intro j hj
        rw [hown.since] at hj
        exact hdevices j hj
    · rw [if_pos hr]
      dsimp only
      rw [if_neg hr]
      refine ⟨_, rfl, ?_, Or.inr (Or.inl ?_)⟩
      · obtain ⟨hown', hheld'⟩ := hown.grabDiscard hpoint hnot
        apply hinv.set_grabbed h hleast hown'
        · intro i
          rw [hheld', mem_append, mem_singleton]
          exact or_comm
        · intro i hi
          simpa using hi
      · simp [QatHandleRun.set]

lemma HandleInv.submitStep (hpoint : (run.states h).point = .returned last)
    (hsubmit : run.submitSession h key sessR = .ok (status, session, handle)) :
    HandleInv (run.set h run.units { run.states h with handle := handle }) ∧
      ∀ s, session = some s → (run.states h).handle.unit = some s.unit := by
  have hcreate : (run.states h).handle.getOrCreateSession key sessR = .ok (status, session, handle) := by
    unfold submitSession at hsubmit
    cases hresult : (run.states h).handle.getOrCreateSession key sessR with
    | error fault =>
      rw [hresult] at hsubmit
      exact absurd hsubmit (by simp)
    | ok result =>
      obtain ⟨status', session', handle'⟩ := result
      rw [hresult] at hsubmit
      dsimp only at hsubmit
      by_cases hnull : status' = .kOk ∧ handle'.unit = none
      · rw [if_pos hnull] at hsubmit
        exact absurd hsubmit (by simp)
      · rw [if_neg hnull] at hsubmit
        exact hsubmit
  obtain ⟨⟨cache, rfl, hcache⟩, hsession⟩ := getOrCreateSession_spec (hinv.own h).sessions hcreate
  refine ⟨hinv.keep rfl rfl rfl ?_ ?_ hcache, hsession⟩
  · simp [pendingUnits, hpoint]
  · simp [PointFits, hpoint]

lemma HandleInv.step {ev : HandleEvent} (hallowed : run.initWithoutUnit ev) (hstep : run.step ev = .ok run') :
    HandleInv run' := by
  -- A step of a handle that is elsewhere is an error.
  cases ev with
  | init h sessR =>
    simp only [QatHandleRun.step] at hstep
    split at hstep
    · rename_i last hpoint
      exact hinv.initStep hpoint hallowed hstep
    · cases hstep
  | uninit h answers =>
    simp only [QatHandleRun.step] at hstep
    split at hstep
    · rename_i last hpoint
      exact hinv.uninitStep (by simp [pendingUnits, hpoint]) hstep
    · rename_i status hpoint
      exact hinv.uninitStep (by simp [pendingUnits, hpoint]) hstep
    · cases hstep
  | blackListNext h =>
    simp only [QatHandleRun.step] at hstep
    split at hstep
    · rename_i remaining status hpoint
      rw [← ok.inj hstep]
      exact hinv.blackListStep hpoint
    · cases hstep
  | reinit h =>
    simp only [QatHandleRun.step] at hstep
    split at hstep
    · rename_i last i hpoint hunit
      rw [← ok.inj hstep]
      exact hinv.reinitStart hpoint hunit
    · cases hstep
    · cases hstep
  | grabOther h sessR =>
    simp only [QatHandleRun.step] at hstep
    split at hstep
    · rename_i n hpoint
      obtain ⟨run₁, hrun₁, hinv₁, _⟩ := hinv.grabOtherStep hpoint sessR
      rw [hrun₁] at hstep
      rw [← ok.inj hstep]
      exact hinv₁
    · cases hstep
  | submit h key sessR =>
    simp only [QatHandleRun.step] at hstep
    split at hstep
    · rename_i last hpoint
      split at hstep
      · cases hstep
      · rename_i status session handle hsubmit
        rw [← ok.inj hstep]
        exact (hinv.submitStep hpoint hsubmit).1
    · cases hstep

end

lemma handleInv_init (driver : Except StatusCode (List QatInstance)) (channelOpts : Nat → PollerChannelOption) :
    HandleInv (.init driver channelOpts) := by
  constructor
  · exact unitInv_init driver
  · intro h
    constructor
    all_goals simp [QatHandleRun.init, heldUnits, pendingUnits, QatHandle.new, discardedSince, PointFits]
  · intro i
    simp [QatHandleRun.init, QatUnitRun.init, heldUnits, pendingUnits, QatHandle.new]
  · intro h h' i hi
    exact absurd hi (by simp [QatHandleRun.init, heldUnits, pendingUnits, QatHandle.new])
  · intro h i hi
    exact absurd hi (by simp [QatHandleRun.init])

lemma handleInv_of_runs {driver : Except StatusCode (List QatInstance)} {channelOpts : Nat → PollerChannelOption}
    (hruns : Runs QatHandleRun.step initWithoutUnit (.init driver channelOpts) run) : HandleInv run := by
  apply hruns.invariant (P := HandleInv) (handleInv_init driver channelOpts)
  intro s ev s' hinv hallowed hstep
  exact hinv.step hallowed hstep

lemma HandleInv.of_discarded (hinv : HandleInv run) (hi : HandleAct.discarded i ∈ (run.states h).history) :
    i ∈ run.units.blackList ∨ i ∈ pendingUnits (run.states h) := by
  have hcount := (hinv.own h).discards i
  have hpos : 0 < (run.states h).history.count (.discarded i) := count_pos_iff.mpr hi
  by_cases hpending : i ∈ pendingUnits (run.states h)
  · exact Or.inr hpending
  · rw [count_eq_zero_of_not_mem hpending] at hcount
    exact Or.inl (hinv.blackListed h i (count_pos_iff.mp (by omega)))

lemma HandleInv.not_discarded (hinv : HandleInv run) (hunit : (run.states h).handle.unit = some i) (h' : Nat) :
    HandleAct.discarded i ∉ (run.states h').history := by
  have hheld : heldUnits (run.states h) = i :: pendingUnits (run.states h) := by
    unfold heldUnits
    rw [hunit]
    rfl
  have hmem : i ∈ heldUnits (run.states h) := by
    rw [hheld]
    exact mem_cons_self
  intro hdiscarded
  cases hinv.of_discarded hdiscarded with
  | inl hblack => exact (hinv.units.held i (hinv.mem_grabbed hmem)).2 hblack
  | inr hpending =>
    have hsame := hinv.alone h' h i (mem_append_right _ hpending) hmem
    subst hsame
    have hnodup := (hinv.own h').nodup
    rw [hheld] at hnodup
    exact (nodup_cons.mp hnodup).1 hpending

lemma HandleInv.length_discarded (hinv : HandleInv run) (h : Nat) :
    (heldUnits (run.states h)).length ≤ run.units.manager.allUnits.length := by
  have hsub : heldUnits (run.states h) ⊆ range run.units.manager.allUnits.length := by
    intro i hi
    exact mem_range.mpr (hinv.units.held i (hinv.mem_grabbed hi)).1
  have hle := ((hinv.own h).nodup.subperm hsub).length_le
  rwa [length_range] at hle

/-- In every run in which `Init` is called only without a unit and `Reinit` only with one: `Reinit`
ends with a unit of a device that the handle did not discard, no unit is held twice, the manager has
those free that no handle holds, a successful `Uninit` has given every unit back, and submissions go to
units that nobody discarded. -/
theorem handle_units_returned (driver : Except StatusCode (List QatInstance))
    (channelOpts : Nat → PollerChannelOption) {run : QatHandleRun}
    (hruns : Runs QatHandleRun.step QatHandleRun.initWithoutUnit (.init driver channelOpts) run) :
    (∀ h n sessR, (run.states h).point = .reinit n → n < run.units.manager.allUnits.length ∧
      ∃ run', run.step (.grabOther h sessR) = .ok run' ∧
        ((run'.states h).point = .returned .kHardwareError ∨ (run'.states h).point = .reinit (n + 1) ∨
          (run'.states h).point = .returned .kOk ∧
            ∃ i unit, (run'.states h).handle.unit = some i ∧ run.units.manager.allUnits[i]? = some unit ∧
              ∀ j ∈ discardedSince (run.states h).history,
                (run.units.manager.allUnits[j]?).map QatUnit.deviceId ≠ some unit.deviceId)) ∧
      (∀ h h' i, i ∈ heldUnits (run.states h) → i ∈ heldUnits (run.states h') → h = h') ∧
      (∀ h i, (run.states h).history.count (.grabbed i) =
          (run.states h).history.count (.putBack i) + (run.states h).history.count (.blackListed i) +
            (heldUnits (run.states h)).count i ∧ (heldUnits (run.states h)).count i ≤ 1 ∧
        (HandleAct.blackListed i ∈ (run.states h).history → i ∈ run.units.blackList)) ∧
      (∀ i unit, run.units.manager.allUnits[i]? = some unit →
        (unit.refCnt = 0 ↔ ∀ h, i ∉ heldUnits (run.states h)) ∧ (unit.blacklisted = true ↔ i ∈ run.units.blackList)) ∧
      (∀ h, (run.states h).history.getLast? = some .cleared → ∀ i,
        (run.states h).history.count (.grabbed i) =
            (run.states h).history.count (.putBack i) + (run.states h).history.count (.blackListed i) ∧
          (run.states h).history.count (.blackListed i) = (run.states h).history.count (.discarded i)) ∧
      ∀ h key sessR last status session handle, (run.states h).point = .returned last →
        run.submitSession h key sessR = .ok (status, some session, handle) →
        (run.states h).handle.unit = some session.unit ∧
          ∀ h', HandleAct.discarded session.unit ∉ (run.states h').history := by
  have hinv := handleInv_of_runs hruns
  refine ⟨?_, hinv.alone, ?_, ?_, ?_, ?_⟩
  · intro h n sessR hpoint
    obtain ⟨hunit, hlt⟩ : PointFits (run.states h).handle (.reinit n) := hpoint ▸ (hinv.own h).point
    have hlen := hinv.length_discarded h
    have hheld : heldUnits (run.states h) = (run.states h).handle.discardedUnits := by
      simp [heldUnits, pendingUnits, hpoint, hunit]
    rw [hheld] at hlen
    obtain ⟨run', hrun', _, hnext⟩ := hinv.grabOtherStep hpoint sessR
    refine ⟨by omega, run', ?_, hnext⟩
    simp only [QatHandleRun.step, hpoint]
    exact hrun'
  · intro h i
    refine ⟨(hinv.own h).grabs i, ?_, hinv.blackListed h i⟩
    exact List.nodup_iff_count_le_one.mp (hinv.own h).nodup i
  · intro i unit hunit
    refine ⟨?_, hinv.units.black i unit hunit⟩
    rw [hinv.units.ref i unit hunit, ← not_exists, ← hinv.grabbed i]
    simp
  · intro h hlast i
    have hnil := (hinv.own h).cleared hlast
    have hgrabs := (hinv.own h).grabs i
    have hdiscards := (hinv.own h).discards i
    have hpending : pendingUnits (run.states h) = [] := (List.append_eq_nil_iff.mp hnil).2
    rw [hnil, List.count_nil] at hgrabs
    rw [hpending, List.count_nil] at hdiscards
    exact ⟨hgrabs, hdiscards.symm⟩
  · intro h key sessR last status session handle hpoint hsubmit
    have hunit := (hinv.submitStep hpoint hsubmit).2 session rfl
    exact ⟨hunit, hinv.not_discarded hunit⟩

def anyDevice : PollerChannelOption :=
  ⟨⟨.kHardware, .kNone, false, 1000⟩, 0, .kLz4, .kLevel1, ⟨-1, -1⟩, false⟩

def threeUnits : QatHandleRun :=
  .init (.ok [⟨0, 7, 0, 0, .kOk⟩, ⟨0, 8, 0, 0, .kOk⟩, ⟨0, 7, 1, 0, .kOk⟩]) fun _ => anyDevice

/-- Two handles: the first one discards its unit, finds the only other device taken by the second
one, and gives the unit back to the black list. -/
theorem handle_units_returned_twoHandles : ∃ run,
    Runs QatHandleRun.step QatHandleRun.initWithoutUnit threeUnits run ∧
    (run.states 0).history = [.grabbed 0, .discarded 0, .blackListed 0, .cleared] ∧
    heldUnits (run.states 1) = [1] ∧
    (run.states 0).history.count (.blackListed 0) = (run.states 0).history.count (.discarded 0) := by
  obtain ⟨run, hruns, -, hgoal⟩ := exists_runs_of_reaches QatHandleRun.step threeUnits
    [.init 0 .kOk, .init 1 .kOk, .submit 0 4 .kOk, .reinit 0, .grabOther 0 .kOk, .uninit 0 fun _ _ => .kOk,
      .blackListNext 0, .blackListNext 0]
    (fun run ev => decide (run.initWithoutUnit ev))
    (fun run => decide ((run.states 0).history = [.grabbed 0, .discarded 0, .blackListed 0, .cleared] ∧
      heldUnits (run.states 1) = [1]))
    (fun run ev h => of_decide_eq_true h) (by decide +kernel)
  have hend := of_decide_eq_true hgoal
  have hlast : (run.states 0).history.getLast? = some .cleared := by
    rw [hend.1]
    rfl
  exact ⟨run, hruns, hend.1, hend.2, ((handle_units_returned _ _ hruns).2.2.2.2.1 0 hlast 0).2⟩

/-- `Init`, `Reinit` and a successful `Uninit`, then `Init` and `Reinit` again: the second `Reinit`
returns a unit of the device that the first one discarded. And `Init` called twice: the first unit
is not given back. -/
theorem handle_takes_discarded_device :
    (∃ run run', Runs QatHandleRun.step QatHandleRun.reinitWithUnit threeUnits run ∧
      run.step (.grabOther 0 .kOk) = .ok run' ∧ (run'.states 0).point = .returned .kOk ∧
      (run'.states 0).handle.unit = some 2 ∧ HandleAct.discarded 0 ∈ (run.states 0).history ∧
      (run.units.manager.allUnits[0]?).map QatUnit.deviceId = (run.units.manager.allUnits[2]?).map QatUnit.deviceId) ∧
      ∃ run, Runs QatHandleRun.step QatHandleRun.reinitWithUnit threeUnits run ∧
        (run.states 0).history.getLast? = some .cleared ∧ (run.states 0).history.count (.grabbed 0) = 1 ∧
        (run.states 0).history.count (.putBack 0) + (run.states 0).history.count (.blackListed 0) = 0 := by
  constructor
  · obtain ⟨run, hruns, -, hgoal⟩ := exists_runs_of_reaches QatHandleRun.step threeUnits
      [.init 0 .kOk, .reinit 0, .grabOther 0 .kOk, .uninit 0 fun _ _ => .kOk, .blackListNext 0, .blackListNext 0,
        .init 0 .kOk, .reinit 0]
      (fun run ev => decide (run.reinitWithUnit ev))
      (fun run => decide (HandleAct.discarded 0 ∈ (run.states 0).history ∧
        (run.units.manager.allUnits[0]?).map QatUnit.deviceId =
          (run.units.manager.allUnits[2]?).map QatUnit.deviceId) &&
        (run.step (.grabOther 0 .kOk)).toOption.any fun run' : QatHandleRun =>
          decide ((run'.states 0).point = .returned .kOk ∧ (run'.states 0).handle.unit = some 2))
      (fun run ev h => of_decide_eq_true h) (by decide +kernel)
    rw [Bool.and_eq_true] at hgoal
    have hbefore := of_decide_eq_true hgoal.1
    cases hstep : run.step (.grabOther 0 .kOk) with
    | error fault =>
      rw [hstep] at hgoal
      exact absurd hgoal.2 (by simp [Except.toOption])
    | ok run' =>
      rw [hstep] at hgoal
      have hafter := of_decide_eq_true hgoal.2
      exact ⟨run, run', hruns, hstep, hafter.1, hafter.2, hbefore.1, hbefore.2⟩
  · obtain ⟨run, hruns, -, hgoal⟩ := exists_runs_of_reaches QatHandleRun.step threeUnits
      [.init 0 .kOk, .init 0 .kOk, .uninit 0 fun _ _ => .kOk, .blackListNext 0]
      (fun run ev => decide (run.reinitWithUnit ev))
      (fun run => decide ((run.states 0).history.getLast? = some .cleared ∧
        (run.states 0).history.count (.grabbed 0) = 1 ∧
        (run.states 0).history.count (.putBack 0) + (run.states 0).history.count (.blackListed 0) = 0))
      (fun run ev h => of_decide_eq_true h) (by decide +kernel)
    exact ⟨run, hruns, of_decide_eq_true hgoal⟩

end Vesal.Proofs
