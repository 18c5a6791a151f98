import Vesal.DataFlow

/-! # The argument checks of a data flow channel -/

namespace Vesal.Proofs

open DataFlowChannelImpl List

variable {E : Type}

lemma totalLength_eq (lens : List Nat) (total : Nat) (htotal : total < 2 ^ 64) :
    totalLength lens total = if ∀ len ∈ lens, len ≠ 0 then some ((total + lens.sum) % 2 ^ 64) else none := by
  induction lens generalizing total with
  | nil =>
    exact congrArg some (Nat.mod_eq_of_lt htotal).symm
  | cons len lens ih =>
    unfold totalLength
    by_cases hlen : len = 0
    · rw [if_pos hlen, if_neg]
      intro hall
      exact hall len mem_cons_self hlen
    · rw [if_neg hlen, ih _ (Nat.mod_lt _ (by norm_num)), sum_cons, Nat.mod_add_mod, Nat.add_assoc]
      apply if_congr _ rfl rfl
      simp [hlen]

def PassesMove (op : DataFlowMoveOperation) : Prop :=
  op.src.length ≠ 0 ∧ op.src.length = op.srcLen.length ∧ op.src.length ≤ kMaxSrcSegmentNum ∧
    (∀ len ∈ op.srcLen, len ≠ 0) ∧ op.srcLen.sum % 2 ^ 64 ≤ kMaxTotalLength

instance (op : DataFlowMoveOperation) : Decidable (PassesMove op) := by
  unfold PassesMove
  infer_instance

lemma segmentNum_eq (ops : List DataFlowMoveOperation) (segments : Nat) :
    segmentNum ops segments =
      if ∀ op ∈ ops, PassesMove op then some (segments + (ops.map fun op => op.src.length).sum) else none := by
  induction ops generalizing segments with
  | nil => rfl
  | cons op ops ih =>
    have hcons : (∀ o ∈ op :: ops, PassesMove o) ↔ PassesMove op ∧ ∀ o ∈ ops, PassesMove o := by simp
    rw [if_congr hcons rfl rfl, map_cons, sum_cons, ← Nat.add_assoc]
    unfold segmentNum
    by_cases hsize : op.src.length = 0 ∨ op.src.length ≠ op.srcLen.length ∨ op.src.length > kMaxSrcSegmentNum
    · rw [if_pos hsize, if_neg]
      rintro ⟨⟨hnonempty, hsame, hle, _⟩, _⟩
      omega
    · rw [if_neg hsize, totalLength_eq _ _ (by norm_num), Nat.zero_add]
      by_cases hzero : ∀ len ∈ op.srcLen, len ≠ 0
      · rw [if_pos hzero]
        dsimp only
        by_cases htotal : op.srcLen.sum % 2 ^ 64 > kMaxTotalLength
        · rw [if_pos htotal, if_neg]
          rintro ⟨hop, _⟩
          exact absurd hop.2.2.2.2 (by omega)
        · rw [if_neg htotal, ih]
          have hop : PassesMove op := ⟨by omega, by omega, by omega, hzero, by omega⟩
          apply if_congr _ rfl rfl
          exact (and_iff_right hop).symm
      · rw [if_neg hzero, if_neg]
        rintro ⟨hop, _⟩
        exact hzero hop.2.2.2.1

def PassesChecks : DataFlowOperations → Prop
  | .move ops => ops.length ≤ kMaxSubmittedBatchSize ∧ (∀ op ∈ ops, PassesMove op) ∧
      1 + (ops.map fun op => op.src.length).sum + 1 + ops.length ≤ kMaxInternalBatchSize
  | .crc ops => ops.length ≤ kMaxSubmittedBatchSize ∧ ∀ op ∈ ops, 1 ≤ op.len ∧ op.len ≤ kMaxTotalLength

instance (ops : DataFlowOperations) : Decidable (PassesChecks ops) := by
  cases ops <;> (unfold PassesChecks; infer_instance)

variable (eng : DataFlowEngine E) (ch : DataFlowChannelImpl E)

lemma submitMove_eq (ops : List DataFlowMoveOperation)
    (userCtx now : Nat) :
    submitMove eng ch ops userCtx now =
      if PassesChecks (.move ops) then submitRequest eng ch (.move ops) userCtx now
      else (.kInvalidArgument, ch) := by
  unfold submitMove
  by_cases hnum : ops.length > kMaxSubmittedBatchSize
  · rw [if_pos hnum, if_neg]
    intro h
    exact absurd h.1 (by omega)
  · rw [if_neg hnum, segmentNum_eq, Nat.zero_add]
    by_cases hops : ∀ op ∈ ops, PassesMove op
    · rw [if_pos hops]
      dsimp only
      by_cases hbatch : 1 + (ops.map fun op => op.src.length).sum + 1 + ops.length > kMaxInternalBatchSize
      · rw [if_pos hbatch, if_neg]
        intro h
        exact absurd h.2.2 (by omega)
      · rw [if_neg hbatch, if_pos]
        exact ⟨by omega, hops, by omega⟩
    · rw [if_neg hops, if_neg]
      intro h
      exact hops h.2.1

lemma submitCrc_eq (ops : List DataFlowCrcOperation)
    (userCtx now : Nat) :
    submitCrc eng ch ops userCtx now =
      if PassesChecks (.crc ops) then submitRequest eng ch (.crc ops) userCtx now
      else (.kInvalidArgument, ch) := by
  unfold submitCrc
  by_cases hnum : ops.length > kMaxSubmittedBatchSize
  · rw [if_pos hnum, if_neg]
    intro h
    exact absurd h.1 (by omega)
  · have hbatch : 1 + kMaxSubmittedBatchSize ≤ kMaxInternalBatchSize := by norm_num
    rw [if_neg hnum, if_neg (show ¬ 1 + ops.length > kMaxInternalBatchSize by omega)]
    by_cases hlens : ∀ op ∈ ops, 1 ≤ op.len ∧ op.len ≤ kMaxTotalLength
    · rw [if_neg, if_pos ⟨by omega, hlens⟩]
      rw [Bool.not_eq_true, any_eq_false]
      intro op hop
      have := hlens op hop
      rw [decide_eq_true_eq]
      omega
    · rw [if_pos, if_neg]
      · intro h
        exact hlens h.2
      · push Not at hlens
        obtain ⟨op, hop, hlen⟩ := hlens
        rw [any_eq_true]
        refine ⟨op, hop, ?_⟩
        rw [decide_eq_true_eq]
        by_cases hpos : 1 ≤ op.len
        · exact .inl (hlen hpos)
        · exact .inr (by omega)

variable (ops : DataFlowOperations)

theorem submit_eq
    (userCtx now : Nat) :
    submit eng ch ops userCtx now =
      if PassesChecks ops then submitRequest eng ch ops userCtx now else (.kInvalidArgument, ch) := by
  cases ops with
  | move ops => exact submitMove_eq eng ch ops userCtx now
  | crc ops => exact submitCrc_eq eng ch ops userCtx now

def SoundLength (len : Nat) : Prop := 1 ≤ len ∧ len ≤ kMaxTotalLength ∧ len % 2 ^ 32 = len

lemma soundLength_iff (len : Nat) : SoundLength len ↔ 1 ≤ len ∧ len ≤ kMaxTotalLength := by
  constructor
  · intro h
    exact ⟨h.1, h.2.1⟩
  · intro h
    exact ⟨h.1, h.2, Nat.mod_eq_of_lt (h.2.trans_lt (by norm_num))⟩

def SoundMove (op : DataFlowMoveOperation) : Prop :=
  op.src.length = op.srcLen.length ∧ 1 ≤ op.src.length ∧ op.src.length ≤ kMaxSrcSegmentNum ∧
    (∀ len ∈ op.srcLen, SoundLength len) ∧ SoundLength op.srcLen.sum

def SoundOperations : DataFlowOperations → Prop
  | .move ops => 1 ≤ ops.length ∧ ∀ op ∈ ops, SoundMove op
  | .crc ops => 1 ≤ ops.length ∧ ∀ op ∈ ops, SoundLength op.len

def ExactTotals : DataFlowOperations → Prop
  | .move ops => 1 ≤ ops.length ∧ ∀ op ∈ ops, op.srcLen.sum < 2 ^ 64
  | .crc ops => 1 ≤ ops.length

lemma soundMove_iff {op : DataFlowMoveOperation} (hop : PassesMove op) :
    SoundMove op ↔ op.srcLen.sum < 2 ^ 64 := by
  obtain ⟨hnonempty, hsame, hle, hzero, htotal⟩ := hop
  constructor
  · rintro ⟨_, _, _, _, hsum⟩
    exact hsum.2.1.trans_lt (by norm_num)
  · intro hsum
    rw [Nat.mod_eq_of_lt hsum] at htotal
    have hlens : ∀ len ∈ op.srcLen, 1 ≤ len ∧ len ≤ op.srcLen.sum := by
      intro len hlen
      exact ⟨Nat.one_le_iff_ne_zero.mpr (hzero len hlen), le_sum_of_mem hlen⟩
    obtain ⟨len, hlen⟩ := exists_mem_of_length_pos (show 0 < op.srcLen.length by omega)
    have hfirst := hlens len hlen
    refine ⟨hsame, by omega, hle, ?_, (soundLength_iff _).mpr ⟨by omega, htotal⟩⟩
    intro len hlen
    exact (soundLength_iff len).mpr ⟨(hlens len hlen).1, (hlens len hlen).2.trans htotal⟩

lemma soundOperations_iff {ops : DataFlowOperations} (h : PassesChecks ops) :
    SoundOperations ops ↔ ExactTotals ops := by
  cases ops with
  | move ops =>
    apply and_congr_right
    intro _
    apply forall₂_congr
    intro op hop
    exact soundMove_iff (h.2.1 op hop)
  | crc ops =>
    apply and_iff_left
    intro op hop
    exact (soundLength_iff _).mpr (h.2 op hop)

def EngineRefuses (userCtx : Nat) :
    Prop :=
  ∃ obj ∈ ch.cachedResource.head?, (eng.submit ch.engine obj (.build ops.num userCtx) ops).1 = .kInvalidArgument

lemma submitRequest_refused_iff
    (userCtx now : Nat) :
    (submitRequest eng ch ops userCtx now).1 = .kInvalidArgument ↔ EngineRefuses eng ch ops userCtx := by
  unfold submitRequest EngineRefuses
  cases ch.cachedResource with
  | nil => simp
  | cons obj cached =>
    dsimp only
    split
    · rename_i hok
      simp [hok]
    · simp

/-- A batch that is not refused is sound exactly when it has an operation and no sum wraps. Where
the engine refuses the batch itself there is nothing to show. -/
theorem accepted_operations_sound_iff (eng : DataFlowEngine E) (ch : DataFlowChannelImpl E)
    (ops : DataFlowOperations) (userCtx now : Nat) :
    ((submit eng ch ops userCtx now).1 ≠ .kInvalidArgument → SoundOperations ops) ↔
      (EngineRefuses eng ch ops userCtx ∨ (PassesChecks ops → ExactTotals ops)) := by
  rw [submit_eq, ← submitRequest_refused_iff eng ch ops userCtx now]
  by_cases h : PassesChecks ops
  · rw [if_pos h, soundOperations_iff h]
    constructor
    · intro himp
      by_cases hrefused : (submitRequest eng ch ops userCtx now).1 = .kInvalidArgument
      · exact .inl hrefused
      · exact .inr fun _ => himp hrefused
    · rintro (hrefused | hexact) hne
      · exact absurd hrefused hne
      · exact hexact h
  · rw [if_neg h]
    constructor
    · intro _
      exact .inr fun hpasses => absurd hpasses h
    · intro _ hne
      exact absurd rfl hne

def wrappingMove : DataFlowMoveOperation := ⟨[0x1000, 0x2000], [2 ^ 63, 2 ^ 63 + 5], 0x3000, 0, false⟩

/-- An empty batch is accepted, and lengths whose sum wraps by any engine that takes them. -/
theorem wrapping_and_empty_batches_accepted :
    (∀ ops ∈ [.move [], .crc []],
      (submit swEngine (.init .kOrdered 3000 ⟨fun _ => 0, fun _ _ => 0⟩) ops 7 0).1 = .kOk ∧ ¬ SoundOperations ops) ∧
    (∀ (E : Type) (eng : DataFlowEngine E) (e : E), (eng.submit e 0 (.build 1 7) (.move [wrappingMove])).1 = .kOk →
      (submit eng (.init .kOrdered 3000 e) (.move [wrappingMove]) 7 0).1 = .kOk ∧
        ¬ SoundOperations (.move [wrappingMove])) := by
  have hpasses : PassesChecks (.move [wrappingMove]) := by decide
  constructor
  · intro ops hops
    simp only [List.mem_cons, List.not_mem_nil, or_false] at hops
    rcases hops with rfl | rfl
    · exact ⟨rfl, fun h => absurd h.1 (by decide)⟩
    · exact ⟨rfl, fun h => absurd h.1 (by decide)⟩
  · intro E eng e hok
    constructor
    · rw [submit_eq, if_pos hpasses]
      change (if (eng.submit e 0 (.build 1 7) (.move [wrappingMove])).1 = .kOk then _ else _ : _ × _).1 = _
      rw [if_pos hok]
      exact hok
    · rw [soundOperations_iff hpasses]
      intro h
      exact absurd (h.2 wrappingMove List.mem_cons_self) (by decide)

end Vesal.Proofs
