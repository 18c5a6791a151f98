import Vesal.QatUnitManager
import Vesal.Library.EventRuns

/-! # The books of the unit manager -/

namespace Vesal.Proofs

open Library QatUnitManager List Function Except

variable (p : QatUnit → Bool) (cnts : Int → Option Int)

def candidates (units : List QatUnit) (i : Nat) : List (Nat × Int) :=
  (units.zipIdx i).filterMap fun q => if p q.1 then some (q.2, cntOf cnts q.1.deviceId) else none

lemma candidates_cons (unit : QatUnit) (units : List QatUnit)
    (i : Nat) :
    candidates p cnts (unit :: units) i =
      (if p unit then [(i, cntOf cnts unit.deviceId)] else []) ++ candidates p cnts units (i + 1) := by
  unfold candidates
  by_cases h : p unit
  · simp [h]
  · simp [h]

def lessBusyOf (ret : Option (Nat × Int)) (c : Nat × Int) : Option (Nat × Int) :=
  List.argAux (fun b c => Prod.snd b < Prod.snd c) ret c

lemma lessBusy_eq (ret : Option (Nat × Int)) (i : Nat) (cnt : Int) : lessBusy ret i cnt = lessBusyOf ret (i, cnt) := by
  cases ret with
  | none => rfl
  | some best => rfl

lemma blacklisted_of_usable {unit : QatUnit} {fits : Bool} (h : (unit.usable && fits) = true) :
    unit.blacklisted = false := by
  unfold QatUnit.usable at h
  simp at h
  exact h.1.1

lemma grabAvailableLoop_eq (m : QatUnitManager) (selection : QatUnitSelection) (units : List QatUnit) (i : Nat)
    (ret : Option (Nat × Int))
    (hkey : ∀ unit ∈ units, unit.blacklisted = false → (m.pfInUseCnt unit.deviceId).isSome) :
    grabAvailableLoop m selection units i ret =
      .ok ((candidates (fun unit => unit.usable && fitSelection selection unit) m.pfInUseCnt units i).foldl
        lessBusyOf ret) := by
  induction units generalizing i ret with
  | nil => rfl
  | cons unit units ih =>
    have hrest := fun ret => ih (i + 1) ret fun u hu => hkey u (mem_cons_of_mem _ hu)
    rw [candidates_cons, grabAvailableLoop, foldl_append]
    by_cases h : (unit.usable && fitSelection selection unit) = true
    · obtain ⟨cnt, hcnt⟩ := Option.isSome_iff_exists.mp (hkey unit mem_cons_self (blacklisted_of_usable h))
      rw [if_pos h, if_pos h, hcnt]
      dsimp only
      rw [hrest, lessBusy_eq]
      simp [cntOf, hcnt]
    · rw [if_neg h, if_neg h, hrest]
      rfl

lemma update_cntOf_self (device : Int) (h : (cnts device).isSome) :
    Function.update cnts device (some (cntOf cnts device)) = cnts := by
  funext d
  by_cases hd : d = device
  · subst hd
    obtain ⟨cnt, hcnt⟩ := Option.isSome_iff_exists.mp h
    simp [cntOf, hcnt]
  · exact update_of_ne hd _ _

lemma grabFromDiffLoop_eq (m : QatUnitManager) (excludedUnits : List Nat) (units : List QatUnit) (i : Nat)
    (ret : Option (Nat × Int)) (cnts : Int → Option Int)
    (hkey : ∀ unit ∈ units, unit.blacklisted = false → (cnts unit.deviceId).isSome) :
    grabFromDiffLoop m excludedUnits units i ret cnts =
      ((candidates (fun unit => unit.usable && !m.onExcluded excludedUnits unit) cnts units i).foldl lessBusyOf ret,
        cnts) := by
  induction units generalizing i ret with
  | nil => rfl
  | cons unit units ih =>
    have hrest := fun ret => ih (i + 1) ret fun u hu => hkey u (mem_cons_of_mem _ hu)
    rw [candidates_cons, grabFromDiffLoop, foldl_append]
    by_cases h : (unit.usable && !m.onExcluded excludedUnits unit) = true
    · rw [if_pos h, if_pos h, update_cntOf_self _ _ (hkey unit mem_cons_self (blacklisted_of_usable h)), hrest,
        lessBusy_eq]
      rfl
    · rw [if_neg h, if_neg h, hrest]
      rfl

structure GrabsLeast (m : QatUnitManager) (fits : QatUnit → Prop) (ret : Option Nat) : Prop where
  isSome_iff : ret.isSome ↔ ∃ unit ∈ m.allUnits, unit.usable = true ∧ fits unit
  least : ∀ i, ret = some i → ∃ unit, m.allUnits[i]? = some unit ∧ unit.usable = true ∧ fits unit ∧
    ∀ other ∈ m.allUnits, other.usable = true → fits other →
      cntOf m.pfInUseCnt unit.deviceId ≤ cntOf m.pfInUseCnt other.deviceId

lemma mem_candidates (units : List QatUnit) (c : Nat × Int) :
    c ∈ candidates p cnts units 0 ↔
      ∃ unit, units[c.1]? = some unit ∧ p unit = true ∧ c.2 = cntOf cnts unit.deviceId := by
  unfold candidates
  rw [mem_filterMap]
  constructor
  · rintro ⟨⟨unit, i⟩, hmem, hc⟩
    by_cases hp : p unit = true
    · rw [if_pos hp] at hc
      obtain rfl := Option.some.inj hc
      exact ⟨unit, mem_zipIdx_iff_getElem?.mp hmem, hp, rfl⟩
    · rw [if_neg hp] at hc
      exact absurd hc (by simp)
  · rintro ⟨unit, hunit, hp, hc⟩
    refine ⟨(unit, c.1), mem_zipIdx_iff_getElem?.mpr hunit, ?_⟩
    rw [if_pos hp, ← hc]

lemma grabsLeast_fold (m : QatUnitManager) (p : QatUnit → Bool) (fits : QatUnit → Prop)
    (hp : ∀ unit, p unit = true ↔ unit.usable = true ∧ fits unit) :
    GrabsLeast m fits (((candidates p m.pfInUseCnt m.allUnits 0).foldl lessBusyOf none).map Prod.fst) := by
  have hargmin : (candidates p m.pfInUseCnt m.allUnits 0).foldl lessBusyOf none =
      (candidates p m.pfInUseCnt m.allUnits 0).argmin Prod.snd := rfl
  rw [hargmin]
  constructor
  · constructor
    · intro hsome
      rw [Option.isSome_map] at hsome
      obtain ⟨c, hc⟩ := Option.isSome_iff_exists.mp hsome
      obtain ⟨unit, hunit, hpu, _⟩ := (mem_candidates _ _ _ c).mp (argmin_mem hc)
      exact ⟨unit, mem_of_getElem? hunit, (hp unit).mp hpu⟩
    · rintro ⟨unit, hunit, hfits⟩
      obtain ⟨i, hi⟩ := mem_iff_getElem?.mp hunit
      have hmem := (mem_candidates p m.pfInUseCnt m.allUnits (i, cntOf m.pfInUseCnt unit.deviceId)).mpr
        ⟨unit, hi, (hp unit).mpr hfits, rfl⟩
      rw [Option.isSome_map]
      by_contra hnone
      rw [Option.not_isSome_iff_eq_none, argmin_eq_none] at hnone
      rw [hnone] at hmem
      exact not_mem_nil hmem
  · intro i hi
    obtain ⟨c, hc, rfl⟩ := Option.map_eq_some_iff.mp hi
    obtain ⟨unit, hunit, hpu, hcnt⟩ := (mem_candidates _ _ _ c).mp (argmin_mem hc)
    have hfits := (hp unit).mp hpu
    refine ⟨unit, hunit, hfits.1, hfits.2, ?_⟩
    intro other hother husable hfit
    obtain ⟨j, hj⟩ := mem_iff_getElem?.mp hother
    have hmem := (mem_candidates p m.pfInUseCnt m.allUnits (j, cntOf m.pfInUseCnt other.deviceId)).mpr
      ⟨other, hj, (hp other).mpr ⟨husable, hfit⟩, rfl⟩
    rw [← hcnt]
    exact le_of_mem_argmin hmem hc

lemma take_fst (m : QatUnitManager) (ret : Option (Nat × Int)) : (m.take ret).1 = ret.map Prod.fst := by
  cases ret with
  | none => rfl
  | some c => rfl

structure UnitInv (run : QatUnitRun) : Prop where
  ref : ∀ i unit, run.manager.allUnits[i]? = some unit → unit.refCnt = if i ∈ run.grabbed then 1 else 0
  black : ∀ i unit, run.manager.allUnits[i]? = some unit → (unit.blacklisted = true ↔ i ∈ run.blackList)
  held : ∀ i ∈ run.grabbed, i < run.manager.allUnits.length ∧ i ∉ run.blackList
  key : ∀ unit ∈ run.manager.allUnits, unit.blacklisted = false → (run.manager.pfInUseCnt unit.deviceId).isSome
  count : ∀ d, cntOf run.manager.pfInUseCnt d =
    (run.grabbed.filter fun i => (run.manager.allUnits[i]?).map QatUnit.deviceId = some d).card

variable {m : QatUnitManager} {i : Nat} {unit : QatUnit} {run : QatUnitRun}

lemma change_of_getElem? (h : m.allUnits[i]? = some unit) (f : QatUnit → QatUnit) (delta : Int) :
    m.change i f delta = ⟨m.allUnits.set i (f unit),
      Function.update m.pfInUseCnt unit.deviceId (some (cntOf m.pfInUseCnt unit.deviceId + delta))⟩ := by
  unfold change
  rw [h]

lemma getElem?_change (h : m.allUnits[i]? = some unit) (f : QatUnit → QatUnit) (delta : Int) (j : Nat) :
    (m.change i f delta).allUnits[j]? = if i = j then some (f unit) else m.allUnits[j]? := by
  have hlt : i < m.allUnits.length := (List.getElem?_eq_some_iff.mp h).1
  rw [change_of_getElem? h, getElem?_set]
  by_cases hij : i = j
  · rw [if_pos hij, if_pos hij, if_pos (hij ▸ hlt)]
  · rw [if_neg hij, if_neg hij]

variable {f : QatUnit → QatUnit} {fits : QatUnit → Prop}

lemma deviceId_change (h : m.allUnits[i]? = some unit) (hf : (f unit).deviceId = unit.deviceId) (delta : Int)
    (j : Nat) :
    ((m.change i f delta).allUnits[j]?).map QatUnit.deviceId = (m.allUnits[j]?).map QatUnit.deviceId := by
  rw [getElem?_change h]
  by_cases hij : i = j
  · subst hij
    rw [if_pos rfl, h, Option.map_some, Option.map_some, hf]
  · rw [if_neg hij]

lemma length_change (m : QatUnitManager) (i : Nat) (f : QatUnit → QatUnit) (delta : Int) :
    (m.change i f delta).allUnits.length = m.allUnits.length := by
  unfold change
  cases m.allUnits[i]? with
  | none => rfl
  | some unit => exact length_set

lemma cntOf_change (h : m.allUnits[i]? = some unit) (f : QatUnit → QatUnit) (delta d : Int) :
    cntOf (m.change i f delta).pfInUseCnt d =
      cntOf m.pfInUseCnt d + if (m.allUnits[i]?).map QatUnit.deviceId = some d then delta else 0 := by
  rw [change_of_getElem? h, h]
  unfold cntOf
  dsimp only
  by_cases hd : unit.deviceId = d
  · subst hd
    simp
  · rw [update_of_ne (Ne.symm hd), if_neg (by simpa using hd), add_zero]

lemma isSome_change {d : Int} (h : (m.pfInUseCnt d).isSome) (i : Nat) (f : QatUnit → QatUnit) (delta : Int) :
    ((m.change i f delta).pfInUseCnt d).isSome := by
  unfold change
  cases m.allUnits[i]? with
  | none => exact h
  | some unit =>
    dsimp only
    by_cases hd : d = unit.deviceId
    · subst hd
      simp
    · rw [update_of_ne hd]
      exact h

lemma card_filter_insert {s : Finset Nat} (hi : i ∉ s) (p : Nat → Prop) [DecidablePred p] :
    ((insert i s).filter p).card = (s.filter p).card + if p i then 1 else 0 := by
  rw [Finset.filter_insert]
  by_cases h : p i
  · rw [if_pos h, if_pos h, Finset.card_insert_of_notMem fun hmem => hi (Finset.mem_filter.mp hmem).1]
  · rw [if_neg h, if_neg h, add_zero]

lemma UnitInv.change (hinv : UnitInv run) (h : run.manager.allUnits[i]? = some unit)
    (hdevice : (f unit).deviceId = unit.deviceId)
    (hblackened : (f unit).blacklisted = false → unit.blacklisted = false) {delta : Int}
    {grabbed blackList : Finset Nat}
    (hothers : ∀ j, j ≠ i → ((j ∈ grabbed ↔ j ∈ run.grabbed) ∧ (j ∈ blackList ↔ j ∈ run.blackList)))
    (href : (f unit).refCnt = if i ∈ grabbed then 1 else 0) (hblack : (f unit).blacklisted = true ↔ i ∈ blackList)
    (hfree : i ∈ grabbed → i ∉ blackList)
    (hdelta : delta = (if i ∈ grabbed then 1 else 0) - if i ∈ run.grabbed then 1 else 0) :
    UnitInv ⟨run.manager.change i f delta, grabbed, blackList⟩ := by
  have hlt : i < run.manager.allUnits.length := (List.getElem?_eq_some_iff.mp h).1
  constructor
  · intro j unit' hj
    rw [getElem?_change h] at hj
    by_cases hij : i = j
    · rw [if_pos hij] at hj
      rw [← Option.some.inj hj, ← hij]
      exact href
    · rw [if_neg hij] at hj
      rw [hinv.ref j unit' hj]
      simp only [(hothers j (Ne.symm hij)).1]
  · intro j unit' hj
    rw [getElem?_change h] at hj
    by_cases hij : i = j
    · rw [if_pos hij] at hj
      rw [← Option.some.inj hj, ← hij]
      exact hblack
    · rw [if_neg hij] at hj
      rw [hinv.black j unit' hj]
      exact (hothers j (Ne.symm hij)).2.symm
  · intro j hj
    rw [length_change]
    by_cases hij : j = i
    · subst hij
      exact ⟨hlt, hfree hj⟩
    · rw [(hothers j hij).2]
      exact hinv.held j ((hothers j hij).1.mp hj)
  · intro unit' hmem hfalse
    obtain ⟨j, hj⟩ := mem_iff_getElem?.mp hmem
    apply isSome_change
    rw [getElem?_change h] at hj
    by_cases hij : i = j
    · rw [if_pos hij] at hj
      obtain rfl := Option.some.inj hj
      rw [hdevice]
      exact hinv.key unit (mem_of_getElem? h) (hblackened hfalse)
    · rw [if_neg hij] at hj
      exact hinv.key unit' (mem_of_getElem? hj) hfalse
  · intro d
    dsimp only
    have hsame : grabbed.erase i = run.grabbed.erase i := by
      ext j
      rw [Finset.mem_erase, Finset.mem_erase]
      exact and_congr_right fun hj => (hothers j hj).1
    -- The counts without the unit are the same before and after.
    have hcard : ∀ s : Finset Nat, ((s.filter fun j =>
        (run.manager.allUnits[j]?).map QatUnit.deviceId = some d).card : Int) =
        ((s.erase i).filter fun j => (run.manager.allUnits[j]?).map QatUnit.deviceId = some d).card +
          if i ∈ s ∧ (run.manager.allUnits[i]?).map QatUnit.deviceId = some d then 1 else 0 := by
      intro s
      by_cases hi : i ∈ s
      · have hins := card_filter_insert (Finset.notMem_erase i s)
          fun j => (run.manager.allUnits[j]?).map QatUnit.deviceId = some d
        rw [Finset.insert_erase hi] at hins
        simp only [hins, hi, true_and]
        push_cast
        rfl
      · rw [Finset.erase_eq_of_notMem hi]
        simp [hi]
    simp only [deviceId_change h hdevice]
    rw [cntOf_change h, hinv.count d, hcard grabbed, hcard run.grabbed, hsame, hdelta]
    by_cases hd : (run.manager.allUnits[i]?).map QatUnit.deviceId = some d
    · simp only [hd, and_true, if_true]
      omega
    · simp only [hd, and_false, if_false]
      omega

def startedUnit (inst : QatInstance) : QatUnit := if inst.startR ≠ .kOk then inst.unit.markBlacklist else inst.unit

lemma startedUnit_spec (inst : QatInstance) :
    (startedUnit inst).refCnt = 0 ∧ (startedUnit inst).deviceId = inst.deviceId ∧
      ((startedUnit inst).blacklisted = true ↔ inst.startR ≠ .kOk) := by
  unfold startedUnit
  by_cases h : inst.startR ≠ .kOk
  · rw [if_pos h]
    exact ⟨rfl, rfl, iff_of_true rfl h⟩
  · rw [if_neg h]
    exact ⟨rfl, rfl, iff_of_false Bool.false_ne_true h⟩

variable (instances : List QatInstance)

lemma allUnits_initLoop (m : QatUnitManager) (succNum : Nat) :
    (initLoop instances m succNum).1.allUnits = m.allUnits ++ instances.map startedUnit := by
  induction instances generalizing m succNum with
  | nil => simp [initLoop]
  | cons inst instances ih =>
    unfold initLoop
    by_cases h : inst.startR ≠ .kOk
    · rw [if_pos h, ih]
      simp [startedUnit, h]
    · rw [if_neg h, ih]
      simp [startedUnit, h]

lemma pfInUseCnt_initLoop (m : QatUnitManager) (succNum : Nat) (d : Int) :
    (initLoop instances m succNum).1.pfInUseCnt d =
      if ∃ inst ∈ instances, inst.startR = .kOk ∧ inst.deviceId = d then some 0 else m.pfInUseCnt d := by
  induction instances generalizing m succNum with
  | nil => simp [initLoop]
  | cons inst instances ih =>
    unfold initLoop
    by_cases h : inst.startR ≠ .kOk
    · rw [if_pos h, ih]
      simp [h]
    · rw [if_neg h, ih]
      rw [ne_eq, not_not] at h
      by_cases hd : inst.deviceId = d
      · subst hd
        simp [h]
      · simp [h, hd, update_of_ne (Ne.symm hd)]

lemma init_ok :
    (init (.ok instances)).2 = (initLoop instances ⟨[], fun _ => none⟩ 0).1 := by
  cases instances with
  | nil => rfl
  | cons inst instances => rfl

lemma mem_failedStarts {instances : List QatInstance} {inst : QatInstance} (h : instances[i]? = some inst) :
    i ∈ QatUnitRun.failedStarts (.ok instances) ↔ inst.startR ≠ .kOk := by
  unfold QatUnitRun.failedStarts
  rw [mem_toFinset, mem_map]
  constructor
  · rintro ⟨⟨inst', j⟩, hmem, rfl⟩
    rw [mem_filter, mem_zipIdx_iff_getElem?] at hmem
    dsimp only at hmem h
    rw [h, Option.some.injEq] at hmem
    rw [hmem.1]
    simpa using hmem.2
  · intro hne
    refine ⟨(inst, i), ?_, rfl⟩
    rw [mem_filter, mem_zipIdx_iff_getElem?]
    exact ⟨h, by simpa using hne⟩

lemma unitInv_init (driver : Except StatusCode (List QatInstance)) : UnitInv (.init driver) := by
  cases driver with
  | error status =>
    constructor
    all_goals simp [QatUnitRun.init, QatUnitManager.init, cntOf]
  | ok instances =>
    have hunits : (QatUnitRun.init (.ok instances)).manager.allUnits = instances.map startedUnit := by
      change (init (.ok instances)).2.allUnits = _
      rw [init_ok, allUnits_initLoop]
      rfl
    have hcnts : ∀ d, (QatUnitRun.init (.ok instances)).manager.pfInUseCnt d =
        if ∃ inst ∈ instances, inst.startR = .kOk ∧ inst.deviceId = d then some 0 else none := by
      intro d
      change (init (.ok instances)).2.pfInUseCnt d = _
      rw [init_ok, pfInUseCnt_initLoop]
    constructor
    · intro i unit hi
      rw [hunits, getElem?_map, Option.map_eq_some_iff] at hi
      obtain ⟨inst, _, rfl⟩ := hi
      rw [(startedUnit_spec inst).1]
      rfl
    · intro i unit hi
      rw [hunits, getElem?_map, Option.map_eq_some_iff] at hi
      obtain ⟨inst, hinst, rfl⟩ := hi
      exact (startedUnit_spec inst).2.2.trans (mem_failedStarts hinst).symm
    · intro i hi
      exact absurd hi (Finset.notMem_empty i)
    · intro unit hmem hfalse
      rw [hunits, mem_map] at hmem
      obtain ⟨inst, hinst, rfl⟩ := hmem
      obtain ⟨-, hdevice, hblack⟩ := startedUnit_spec inst
      have hok : inst.startR = .kOk := by
        by_contra h
        rw [hblack.mpr h] at hfalse
        cases hfalse
      rw [hcnts, hdevice, if_pos ⟨inst, hinst, hok, rfl⟩]
      rfl
    · intro d
      have hempty : (QatUnitRun.init (.ok instances)).grabbed = ∅ := rfl
      rw [hempty, Finset.filter_empty, Finset.card_empty]
      unfold cntOf
      rw [hcnts]
      by_cases h : ∃ inst ∈ instances, inst.startR = .kOk ∧ inst.deviceId = d
      · rw [if_pos h]
        rfl
      · rw [if_neg h]
        rfl

lemma UnitInv.grabAvailableUnit (hinv : UnitInv run) (selection : QatUnitSelection) :
    ∃ ret, run.manager.grabAvailableUnit selection = .ok (run.manager.take ret) ∧
      GrabsLeast run.manager (fun unit => fitSelection selection unit = true) (ret.map Prod.fst) := by
  refine ⟨_, ?_, grabsLeast_fold run.manager (fun unit => unit.usable && fitSelection selection unit) _ ?_⟩
  · unfold QatUnitManager.grabAvailableUnit
    rw [grabAvailableLoop_eq _ _ _ _ _ hinv.key]
  · intro unit
    rw [Bool.and_eq_true]

lemma onExcluded_eq_false (m : QatUnitManager) (excludedUnits : List Nat) (unit : QatUnit) :
    (!m.onExcluded excludedUnits unit) = true ↔
      ∀ u ∈ excludedUnits, (m.allUnits[u]?).map QatUnit.deviceId ≠ some unit.deviceId := by
  unfold onExcluded
  simp

section

variable (hinv : UnitInv run)
include hinv

lemma UnitInv.grabFromDiffDevice (excludedUnits : List Nat) :
    ∃ ret, run.manager.grabFromDiffDevice excludedUnits = run.manager.take ret ∧
      GrabsLeast run.manager
        (fun unit => ∀ u ∈ excludedUnits, (run.manager.allUnits[u]?).map QatUnit.deviceId ≠ some unit.deviceId)
        (ret.map Prod.fst) := by
  refine ⟨_, ?_, grabsLeast_fold run.manager
    (fun unit => unit.usable && !run.manager.onExcluded excludedUnits unit) _ ?_⟩
  · unfold QatUnitManager.grabFromDiffDevice
    rw [grabFromDiffLoop_eq _ _ _ _ _ _ hinv.key]
  · intro unit
    rw [Bool.and_eq_true, onExcluded_eq_false]

lemma UnitInv.free_of_usable (h : run.manager.allUnits[i]? = some unit) (husable : unit.usable = true) :
    i ∉ run.grabbed ∧ unit.refCnt = 0 ∧ unit.blacklisted = false := by
  have href := hinv.ref i unit h
  unfold QatUnit.usable QatUnit.isInUse at husable
  rw [Bool.and_eq_true, Bool.not_eq_true', Bool.not_eq_true', decide_eq_false_iff_not] at husable
  by_cases hi : i ∈ run.grabbed
  · rw [if_pos hi] at href
    omega
  · rw [if_neg hi] at href
    exact ⟨hi, href, husable.1⟩

lemma UnitInv.notMem_blackList {ret : Option Nat} (hleast : GrabsLeast run.manager fits ret)
    (i : Nat) (hi : ret = some i) : i ∉ run.blackList := by
  obtain ⟨unit, hunit, husable, _⟩ := hleast.least i hi
  rw [← hinv.black i unit hunit, (hinv.free_of_usable hunit husable).2.2]
  exact Bool.false_ne_true

lemma UnitInv.take {ret : Option (Nat × Int)} (hleast : GrabsLeast run.manager fits (ret.map Prod.fst)) :
    UnitInv (run.grabbedUnit (run.manager.take ret)) := by
  cases ret with
  | none =>
    have hsame : run.grabbedUnit (run.manager.take none) = run := by
      unfold QatUnitRun.grabbedUnit QatUnitManager.take
      simp
    rw [hsame]
    exact hinv
  | some c =>
    obtain ⟨unit, hunit, husable, _⟩ := hleast.least c.1 rfl
    obtain ⟨hgrabbed, href, _⟩ := hinv.free_of_usable hunit husable
    have hblackList := hinv.notMem_blackList hleast c.1 rfl
    have hmem : c.1 ∈ run.grabbed ∪ {c.1} := Finset.mem_union_right _ (Finset.mem_singleton_self _)
    have htaken : run.grabbedUnit (run.manager.take (some c)) =
        ⟨run.manager.change c.1 QatUnit.incRefCnt 1, run.grabbed ∪ {c.1}, run.blackList⟩ := rfl
    rw [htaken]
    apply hinv.change hunit rfl id
    · intro j hj
      simp [hj]
    · rw [if_pos hmem]
      unfold QatUnit.incRefCnt
      rw [href]
      rfl
    · exact hinv.black c.1 unit hunit
    · exact fun _ => hblackList
    · rw [if_pos hmem, if_neg hgrabbed]
      rfl

lemma UnitInv.putBack (hi : i ∈ run.grabbed) :
    UnitInv ⟨run.manager.putBackUnit (some i), run.grabbed \ {i}, run.blackList⟩ ∧
      UnitInv ⟨run.manager.putBackToBlackList (some i), run.grabbed \ {i}, run.blackList ∪ {i}⟩ := by
  obtain ⟨hlt, hblackList⟩ := hinv.held i hi
  obtain ⟨unit, hunit⟩ : ∃ unit, run.manager.allUnits[i]? = some unit := ⟨_, getElem?_eq_getElem hlt⟩
  have href : unit.refCnt = 1 := by
    rw [hinv.ref i unit hunit, if_pos hi]
  have hnot : i ∉ run.grabbed \ {i} := by simp
  constructor
  · apply hinv.change hunit rfl id
    · intro j hj
      simp [hj]
    · rw [if_neg hnot]
      unfold QatUnit.decRefCnt
      rw [href]
      rfl
    · exact hinv.black i unit hunit
    · exact fun _ => hblackList
    · rw [if_neg hnot, if_pos hi]
      rfl
  · apply hinv.change hunit rfl
    · exact fun hfalse => absurd hfalse (by simp [QatUnit.markBlacklist])
    · intro j hj
      simp [hj]
    · rw [if_neg hnot]
      unfold QatUnit.decRefCnt QatUnit.markBlacklist
      rw [href]
      rfl
    · simp [QatUnit.markBlacklist]
    · exact fun h => absurd h hnot
    · rw [if_neg hnot, if_pos hi]
      rfl

lemma UnitInv.step {run' : QatUnitRun} {call : QatUnitCall} (hallowed : run.onlyGrabbed call)
    (hstep : run.step call = .ok run') : UnitInv run' := by
  cases call with
  | grabAvailableUnit selection =>
    obtain ⟨ret, hret, hleast⟩ := hinv.grabAvailableUnit selection
    simp only [QatUnitRun.step, hret] at hstep
    obtain rfl := ok.inj hstep
    exact hinv.take hleast
  | grabFromDiffDevice excludedUnits =>
    obtain ⟨ret, hret, hleast⟩ := hinv.grabFromDiffDevice excludedUnits
    simp only [QatUnitRun.step, hret] at hstep
    obtain rfl := ok.inj hstep
    exact hinv.take hleast
  | putBackUnit unit =>
    obtain rfl := ok.inj hstep
    cases unit with
    | none => simpa [putBackUnit] using hinv
    | some i => exact (hinv.putBack hallowed).1
  | putBackToBlackList unit =>
    obtain rfl := ok.inj hstep
    cases unit with
    | none => simpa [putBackToBlackList] using hinv
    | some i => exact (hinv.putBack hallowed).2

end

structure UnitsAccounted (run : QatUnitRun) : Prop where
  refCnt : ∀ i unit, run.manager.allUnits[i]? = some unit →
    (unit.refCnt = 0 ∨ unit.refCnt = 1) ∧ (unit.refCnt = 1 ↔ i ∈ run.grabbed)
  pfInUseCnt : ∀ d, cntOf run.manager.pfInUseCnt d =
    (run.grabbed.filter fun i => (run.manager.allUnits[i]?).map QatUnit.deviceId = some d).card
  blackList : ∀ i unit, run.manager.allUnits[i]? = some unit → (unit.blacklisted = true ↔ i ∈ run.blackList)

lemma UnitInv.accounted (hinv : UnitInv run) : UnitsAccounted run := by
  refine ⟨?_, hinv.count, hinv.black⟩
  intro i unit hi
  rw [hinv.ref i unit hi]
  by_cases h : i ∈ run.grabbed
  · simp [h]
  · simp [h]

/-- In every run in which only grabbed units are put back, the counts of units and devices are right,
and both grabs give a unit iff a usable one fits: then one of the least busy devices among those. -/
theorem unit_books_kept (driver : Except StatusCode (List QatInstance)) {run : QatUnitRun}
    (hruns : Runs QatUnitRun.step QatUnitRun.onlyGrabbed (.init driver) run) :
    UnitsAccounted run ∧
      (∀ selection, ∃ ret m, run.manager.grabAvailableUnit selection = .ok (ret, m) ∧
        GrabsLeast run.manager (fun unit => fitSelection selection unit = true) ret ∧
        ∀ i, ret = some i → i ∉ run.blackList) ∧
      ∀ excludedUnits, ∃ ret m, run.manager.grabFromDiffDevice excludedUnits = (ret, m) ∧
        GrabsLeast run.manager
          (fun unit => ∀ u ∈ excludedUnits, (run.manager.allUnits[u]?).map QatUnit.deviceId ≠ some unit.deviceId)
          ret ∧
        ∀ i, ret = some i → i ∉ run.blackList := by
  have hinv : UnitInv run := by
    apply hruns.invariant (P := UnitInv) (unitInv_init driver)
    intro s call s' hinv hallowed hstep
    exact hinv.step hallowed hstep
  refine ⟨hinv.accounted, ?_, ?_⟩
  · intro selection
    obtain ⟨ret, hret, hleast⟩ := hinv.grabAvailableUnit selection
    refine ⟨ret.map Prod.fst, (run.manager.take ret).2, ?_, hleast, hinv.notMem_blackList hleast⟩
    rw [hret, ← take_fst]
  · intro excludedUnits
    obtain ⟨ret, hret, hleast⟩ := hinv.grabFromDiffDevice excludedUnits
    refine ⟨ret.map Prod.fst, (run.manager.take ret).2, ?_, hleast, hinv.notMem_blackList hleast⟩
    rw [hret, ← take_fst]

/-- Two units on one device, and one that does not start: a grab, another one from a different
device that finds nothing, and the unit goes into the black list. -/
theorem unit_books_kept_twoUnits : ∃ run,
    Runs QatUnitRun.step QatUnitRun.onlyGrabbed
      (.init (.ok [⟨0, 7, 0, 0, .kOk⟩, ⟨0, 7, 1, 0, .kOk⟩, ⟨0, 8, 0, 0, .kHardwareError⟩])) run ∧
    run.grabbed = ∅ ∧ run.blackList = {0, 2} ∧ UnitsAccounted run := by
  obtain ⟨run, hruns, -, hgoal⟩ := exists_runs_of_reaches QatUnitRun.step
    (.init (.ok [⟨0, 7, 0, 0, .kOk⟩, ⟨0, 7, 1, 0, .kOk⟩, ⟨0, 8, 0, 0, .kHardwareError⟩]))
    [.grabAvailableUnit {}, .grabFromDiffDevice [0], .putBackToBlackList (some 0)]
    (fun run call => decide (run.onlyGrabbed call))
    (fun run => decide (run.grabbed = ∅ ∧ run.blackList = {0, 2}))
    (fun run call h => of_decide_eq_true h) (by decide)
  have hend := of_decide_eq_true hgoal
  exact ⟨run, hruns, hend.1, hend.2, (unit_books_kept _ hruns).1⟩

end Vesal.Proofs
