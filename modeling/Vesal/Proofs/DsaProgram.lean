import Vesal.DsaEngine
import Vesal.Library.EventRuns
import Vesal.Proofs.DataFlowChecks
import Vesal.Proofs.RangeTranslation

/-! # The descriptors that are built -/

namespace Vesal.Proofs

open DsaCtxFactory AddressManager List Function Except Library

variable {table : AddressMap} {ctx : DsaCtx}

def lengthSum (op : DataFlowMoveOperation) : Nat := ((op.src.zip op.srcLen).map Prod.snd).sum % 2 ^ 64

def fusesCrc (op : DataFlowMoveOperation) : Bool := op.enableCrc && isCopyWithCrcOk op

def copyOperation (op : DataFlowMoveOperation) (src dst len : Nat) : DsaOperation :=
  if fusesCrc op then .copyCrc src dst (len % 2 ^ 32) (vesalCrcRevise op.seed)
  else .memmove src dst (len % 2 ^ 32)

def chunkOperations (table : AddressMap) (op : DataFlowMoveOperation) : List (Nat × Nat) → Nat → List DsaOperation
  | [], _ => []
  | (src, len) :: segments, sum =>
    copyOperation op (lookUpAddrIfNotAcrossBound table src len) ((lookUpAddr table op.dst + sum) % 2 ^ 64) len ::
      chunkOperations table op segments ((sum + len) % 2 ^ 64)

def copyOperations (table : AddressMap) (op : DataFlowMoveOperation) : List DsaOperation :=
  chunkOperations table op (op.src.zip op.srcLen) 0

def crcOperation (table : AddressMap) (op : DataFlowMoveOperation) : DsaOperation :=
  .crcgen (lookUpAddr table op.dst) (lengthSum op % 2 ^ 32) (vesalCrcRevise op.seed)

def moveList (table : AddressMap) (ops : List DataFlowMoveOperation) : List DsaOperation :=
  ops.flatMap (copyOperations table) ++
    if ops.countP needsCrc ≠ 0 then .fence :: (ops.filter needsCrc).map (crcOperation table) else []

def crcRequestOperation (table : AddressMap) (op : DataFlowCrcOperation) : DsaOperation :=
  .crcgen (lookUpAddrIfNotAcrossBound table op.src op.len) (op.len % 2 ^ 32) (vesalCrcRevise op.seed)

def crcList (table : AddressMap) (ops : List DataFlowCrcOperation) : List DsaOperation :=
  ops.map (crcRequestOperation table)

def framed (ctx : DsaCtx) (list : List DsaOperation) : List DsaOperation :=
  if list.length = 1 then list
  else .batch list.length (elementAddr ctx.dsaHwDescsPhys kDsaHwDescSize 1) :: list

def operationList (table : AddressMap) : DataFlowOperations → List DsaOperation
  | .move ops => moveList table ops
  | .crc ops => crcList table ops

def numbered (ctx : DsaCtx) : Nat → List DsaOperation → List (Nat × DsaHwDesc)
  | _, [] => []
  | k, operation :: list =>
    (elementAddr ctx.dsaHwDescs kDsaHwDescSize k,
      ⟨operation, elementAddr ctx.dsaCompletionRecordsPhys kDsaCompletionRecordSize k⟩) :: numbered ctx (k + 1) list

lemma numbered_cons (k : Nat) (operation : DsaOperation) (list : List DsaOperation) :
    numbered ctx k (operation :: list) =
      (elementAddr ctx.dsaHwDescs kDsaHwDescSize k,
        ⟨operation, elementAddr ctx.dsaCompletionRecordsPhys kDsaCompletionRecordSize k⟩) :: numbered ctx (k + 1) list :=
  rfl

lemma numbered_append (k : Nat) (list list' : List DsaOperation) :
    numbered ctx k (list ++ list') = numbered ctx k list ++ numbered ctx (k + list.length) list' := by
  induction list generalizing k with
  | nil => rfl
  | cons operation list ih =>
    rw [cons_append, numbered_cons, numbered_cons, cons_append, ih, length_cons,
      show k + 1 + list.length = k + (list.length + 1) by omega]

lemma length_numbered (k : Nat) (list : List DsaOperation) : (numbered ctx k list).length = list.length := by
  induction list generalizing k with
  | nil => rfl
  | cons operation list ih => exact congrArg (· + 1) (ih (k + 1))

structure Writes (ctx : DsaCtx) (fill : Fill) (list : List DsaOperation) (fill' : Fill) : Prop where
  descs : fill'.descs = fill.descs ++ numbered ctx fill.descOffset list
  offset : fill'.descOffset = fill.descOffset + list.length

lemma Writes.nil (fill : Fill) : Writes ctx fill [] fill := ⟨(append_nil _).symm, rfl⟩

variable {fill fill' : Fill} {list : List DsaOperation} {i sum' len : Nat} {op : DataFlowMoveOperation}
  {ops : List DataFlowMoveOperation} {crcs : Nat → Nat} {built : Built}

variable {fill'' : Fill} {operation : DsaOperation} {segments : List (Nat × Nat)} {sum : Nat} {sums : List Nat}

lemma Writes.append {list' : List DsaOperation} (h : Writes ctx fill list fill')
    (h' : Writes ctx fill' list' fill'') : Writes ctx fill (list ++ list') fill'' where
  descs := by rw [h'.descs, h.descs, h.offset, numbered_append, append_assoc]
  offset := by rw [h'.offset, h.offset, length_append, Nat.add_assoc]

lemma Writes.cons (h : Writes ctx fill [operation] fill') (h' : Writes ctx fill' list fill'') :
    Writes ctx fill (operation :: list) fill'' :=
  h.append h'

lemma writes_put (fill : Fill) (operation : DsaOperation) : Writes ctx fill [operation] (put ctx fill operation) :=
  ⟨rfl, rfl⟩

lemma writes_putCrc (fill : Fill) (operation : DsaOperation) (i : Nat) :
    Writes ctx fill [operation] (putCrc ctx fill operation i) :=
  ⟨rfl, rfl⟩

lemma writes_fillCopy (fill : Fill) (op : DataFlowMoveOperation) (src len dst i : Nat) :
    Writes ctx fill [copyOperation op src dst len]
      (fillCopyMaybeWithCrc ctx fill src len dst (vesalCrcRevise op.seed) (op.enableCrc && isCopyWithCrcOk op) i) := by
  unfold fillCopyMaybeWithCrc copyOperation fusesCrc
  by_cases h : (op.enableCrc && isCopyWithCrcOk op) = true
  · rw [if_pos h, if_pos h]
    exact ⟨rfl, rfl⟩
  · rw [if_neg h, if_neg h]
    exact ⟨rfl, rfl⟩

/-- The record of the element `k` is the CRC result of the operation `i`, and its descriptor does
`operation`. -/
structure ResultAt (ctx : DsaCtx) (fill : Fill) (i : Nat) (operation : DsaOperation) : Prop where
  exists_element : ∃ k, fill.crcResults i = elementAddr ctx.dsaCompletionRecords kDsaCompletionRecordSize k ∧
    fill.descs[k]? = some (elementAddr ctx.dsaHwDescs kDsaHwDescSize k,
      ⟨operation, elementAddr ctx.dsaCompletionRecordsPhys kDsaCompletionRecordSize k⟩)

def Dense (fill : Fill) : Prop := fill.descOffset = fill.descs.length

lemma Writes.dense (h : Writes ctx fill list fill') (hdense : Dense fill) : Dense fill' := by
  unfold Dense at *
  rw [h.offset, h.descs, length_append, length_numbered, hdense]

lemma ResultAt.mono (h : ResultAt ctx fill i operation) (hwrites : Writes ctx fill list fill')
    (hsame : fill'.crcResults i = fill.crcResults i) :
    ResultAt ctx fill' i operation := by
  obtain ⟨k, hresult, hdesc⟩ := h.exists_element
  refine ⟨k, hsame.trans hresult, ?_⟩
  rw [hwrites.descs, getElem?_append_left (List.getElem?_eq_some_iff.mp hdesc).1]
  exact hdesc

lemma resultAt_putCrc (hdense : Dense fill) (operation : DsaOperation) (i : Nat) :
    ResultAt ctx (putCrc ctx fill operation i) i operation := by
  refine ⟨fill.descOffset, update_self _ _ _, ?_⟩
  rw [(writes_putCrc fill operation i).descs, hdense]
  exact getElem?_concat_length

structure Translates (table : AddressMap) (op : DataFlowMoveOperation) : Prop where
  dst : lookUpAddr table op.dst ≠ 0
  chunks : ∀ s ∈ op.src.zip op.srcLen, lookUpAddrIfNotAcrossBound table s.1 s.2 ≠ 0
  whole : lookUpAddrIfNotAcrossBound table op.dst (lengthSum op) ≠ 0

lemma copyLoop_ok (hsum : sum < 2 ^ 64)
    (h : copyLoop table ctx op i (lookUpAddr table op.dst) segments sum fill = .ok (sum', fill')) :
    Writes ctx fill (chunkOperations table op segments sum) fill' ∧
      sum' = (sum + (segments.map Prod.snd).sum) % 2 ^ 64 ∧
      (∀ s ∈ segments, lookUpAddrIfNotAcrossBound table s.1 s.2 ≠ 0) ∧
      (∀ j ≠ i, fill'.crcResults j = fill.crcResults j) ∧
      (fusesCrc op = false → segments ≠ [] ∨ fill.crcResults i = 0 → fill'.crcResults i = 0) := by
  induction segments generalizing sum fill with
  | nil =>
    obtain ⟨rfl, rfl⟩ := Prod.mk.inj (ok.inj h)
    exact ⟨.nil _, (Nat.mod_eq_of_lt hsum).symm, fun _ hs => absurd hs not_mem_nil, fun _ _ => rfl,
      fun _ hsome => by simpa using hsome⟩
  | cons segment segments ih =>
    obtain ⟨src, len⟩ := segment
    unfold copyLoop at h
    by_cases hsrc : lookUpAddrIfNotAcrossBound table src len = 0
    · rw [if_pos hsrc] at h
      cases h
    · rw [if_neg hsrc] at h
      obtain ⟨hwrites, hsum', hlookups, hsame, hnone⟩ := ih (Nat.mod_lt _ (by norm_num)) h
      refine ⟨(writes_fillCopy fill op _ len _ i).cons hwrites, ?_, ?_, ?_, ?_⟩
      · rw [hsum', map_cons, sum_cons, Nat.mod_add_mod, Nat.add_assoc]
      · exact forall_mem_cons.mpr ⟨hsrc, hlookups⟩
      · intro j hj
        rw [hsame j hj]
        unfold fillCopyMaybeWithCrc
        split
        · exact update_of_ne hj _ _
        · exact update_of_ne hj _ _
      · intro hfuses _
        apply hnone hfuses (.inr _)
        unfold fillCopyMaybeWithCrc
        rw [if_neg (by unfold fusesCrc at hfuses; rw [hfuses]; exact Bool.false_ne_true)]
        exact update_self _ _ _

variable {src v : Nat}

lemma copyLoop_result (hfuses : fusesCrc op = true) (hdense : Dense fill)
    (h : copyLoop table ctx op i (lookUpAddr table op.dst) [(src, len)] 0 fill = .ok (sum', fill')) :
    ResultAt ctx fill' i (.copyCrc (lookUpAddrIfNotAcrossBound table src len)
      ((lookUpAddr table op.dst + 0) % 2 ^ 64) (len % 2 ^ 32) (vesalCrcRevise op.seed)) := by
  unfold copyLoop at h
  by_cases hsrc : lookUpAddrIfNotAcrossBound table src len = 0
  · rw [if_pos hsrc] at h
    cases h
  · rw [if_neg hsrc] at h
    obtain ⟨-, rfl⟩ := Prod.mk.inj (ok.inj h)
    unfold fusesCrc at hfuses
    unfold fillCopyMaybeWithCrc
    rw [if_pos hfuses]
    exact resultAt_putCrc hdense _ i

lemma moveLoop_cons_ok (h : moveLoop table ctx (op :: ops) i fill = .ok (sums, fill')) :
    ∃ sum fill₁ rest, lookUpAddr table op.dst ≠ 0 ∧
      copyLoop table ctx op i (lookUpAddr table op.dst) (op.src.zip op.srcLen) 0 fill = .ok (sum, fill₁) ∧
      lookUpAddrIfNotAcrossBound table op.dst sum ≠ 0 ∧
      moveLoop table ctx ops (i + 1) fill₁ = .ok (rest, fill') ∧ sums = sum :: rest := by
  unfold moveLoop at h
  dsimp only at h
  split at h
  · cases h
  rename_i hdst
  obtain ⟨⟨sum, fill₁⟩, hcopy, h⟩ := exists_of_bind_eq_ok h
  dsimp only at h
  split at h
  · cases h
  rename_i hwhole
  obtain ⟨⟨rest, fill₂⟩, hrest, h⟩ := exists_of_bind_eq_ok h
  cases h
  exact ⟨sum, fill₁, rest, hdst, hcopy, hwhole, hrest, rfl⟩

def copyResult (table : AddressMap) (ctx : DsaCtx) (fill : Fill) (i : Nat) (op : DataFlowMoveOperation) : Prop :=
  if fusesCrc op then
    ∀ src len, op.src.zip op.srcLen = [(src, len)] →
      ResultAt ctx fill i (.copyCrc (lookUpAddrIfNotAcrossBound table src len)
        ((lookUpAddr table op.dst + 0) % 2 ^ 64) (len % 2 ^ 32) (vesalCrcRevise op.seed))
  else op.src.zip op.srcLen ≠ [] → fill.crcResults i = 0

lemma copyResult.mono (h : copyResult table ctx fill i op) (hwrites : Writes ctx fill list fill')
    (hsame : fill'.crcResults i = fill.crcResults i) : copyResult table ctx fill' i op := by
  unfold copyResult at *
  by_cases hfuses : fusesCrc op = true
  · rw [if_pos hfuses] at h ⊢
    intro src len hzip
    exact (h src len hzip).mono hwrites hsame
  · rw [if_neg hfuses] at h ⊢
    intro hzip
    exact hsame.trans (h hzip)

lemma copyLoop_copyResult (hdense : Dense fill)
    (h : copyLoop table ctx op i (lookUpAddr table op.dst) (op.src.zip op.srcLen) 0 fill = .ok (sum', fill')) :
    copyResult table ctx fill' i op := by
  unfold copyResult
  by_cases hfuses : fusesCrc op = true
  · rw [if_pos hfuses]
    intro src len hzip
    rw [hzip] at h
    exact copyLoop_result hfuses hdense h
  · rw [if_neg hfuses]
    intro hzip
    exact (copyLoop_ok (by norm_num) h).2.2.2.2 (by simpa using hfuses) (.inl hzip)

theorem moveLoop_ok (hdense : Dense fill) (h : moveLoop table ctx ops i fill = .ok (sums, fill')) :
    Writes ctx fill (ops.flatMap (copyOperations table)) fill' ∧ sums = ops.map lengthSum ∧
      (∀ op ∈ ops, Translates table op) ∧ (∀ j < i, fill'.crcResults j = fill.crcResults j) ∧
      ∀ j op, ops[j]? = some op → copyResult table ctx fill' (i + j) op := by
  induction ops generalizing i fill sums with
  | nil =>
    obtain ⟨rfl, rfl⟩ := Prod.mk.inj (ok.inj h)
    exact ⟨.nil _, rfl, fun _ hop => absurd hop not_mem_nil, fun _ _ => rfl, fun _ _ hop => by simp at hop⟩
  | cons op ops ih =>
    obtain ⟨sum, fill₁, rest, hdst, hcopy, hwhole, hrest, rfl⟩ := moveLoop_cons_ok h
    obtain ⟨hwrites, hsum, hlookups, hsame, -⟩ := copyLoop_ok (by norm_num) hcopy
    rw [Nat.zero_add] at hsum
    change sum = lengthSum op at hsum
    subst hsum
    obtain ⟨hwrites', hsums, htranslates, hbefore, hresults⟩ := ih (hwrites.dense hdense) hrest
    refine ⟨hwrites.append hwrites', ?_, ?_, ?_, ?_⟩
    · rw [map_cons, hsums]
    · exact forall_mem_cons.mpr ⟨⟨hdst, hlookups, hwhole⟩, htranslates⟩
    · intro j hj
      rw [hbefore j (by omega), hsame j (by omega)]
    · intro j o ho
      cases j with
      | zero =>
        obtain rfl : op = o := by simpa using ho
        exact (copyLoop_copyResult hdense hcopy).mono hwrites' (hbefore i (by omega))
      | succ j =>
        rw [show i + (j + 1) = i + 1 + j by omega]
        exact hresults j o (by simpa using ho)

/-- The loop that adds the CRC descriptors. -/
theorem crcLoop_writes (table : AddressMap) (ops : List DataFlowMoveOperation) (i : Nat) (fill : Fill)
    (hdense : Dense fill) :
    Writes ctx fill ((ops.filter needsCrc).map (crcOperation table))
        (crcLoop table ctx (ops.zip (ops.map lengthSum)) i fill) ∧
      (∀ j, (∀ k op, ops[k]? = some op → needsCrc op = true → j ≠ i + k) →
        (crcLoop table ctx (ops.zip (ops.map lengthSum)) i fill).crcResults j = fill.crcResults j) ∧
      ∀ j op, ops[j]? = some op → needsCrc op = true →
        ResultAt ctx (crcLoop table ctx (ops.zip (ops.map lengthSum)) i fill) (i + j) (crcOperation table op) := by
  induction ops generalizing i fill with
  | nil => exact ⟨.nil _, fun _ _ => rfl, fun _ _ hop => by simp at hop⟩
  | cons op ops ih =>
    rw [map_cons, zip_cons_cons]
    unfold crcLoop
    by_cases hneeds : needsCrc op = true
    · rw [if_pos hneeds, filter_cons_of_pos hneeds, map_cons]
      have hput : Writes ctx fill [crcOperation table op] (putCrc ctx fill (crcOperation table op) i) :=
        writes_putCrc fill _ i
      obtain ⟨hwrites, hsame, hresults⟩ := ih (i + 1) (putCrc ctx fill (crcOperation table op) i) (hput.dense hdense)
      refine ⟨hput.cons hwrites, ?_, ?_⟩
      · intro j hj
        have hne : j ≠ i := hj 0 op rfl hneeds
        refine (hsame j ?_).trans (update_of_ne hne _ _)
        intro k o ho hn
        have := hj (k + 1) o ho hn
        omega
      · intro j o ho hn
        cases j with
        | zero =>
          obtain rfl : op = o := by simpa using ho
          refine (resultAt_putCrc hdense _ i).mono hwrites (hsame i ?_)
          intro k _ _ _
          omega
        | succ j =>
          rw [show i + (j + 1) = i + 1 + j by omega]
          exact hresults j o (by simpa using ho) hn
    · rw [if_neg hneeds, filter_cons_of_neg hneeds]
      obtain ⟨hwrites, hsame, hresults⟩ := ih (i + 1) fill hdense
      refine ⟨hwrites, ?_, ?_⟩
      · intro j hj
        apply hsame
        intro k o ho hn
        have := hj (k + 1) o ho hn
        omega
      · intro j o ho hn
        cases j with
        | zero =>
          obtain rfl : op = o := by simpa using ho
          exact absurd hn hneeds
        | succ j =>
          rw [show i + (j + 1) = i + 1 + j by omega]
          exact hresults j o (by simpa using ho) hn

lemma lookUp_inside (h : PageTable table) (hv : v < 2 ^ 64) (hne : lookUpAddrIfNotAcrossBound table v len ≠ 0) :
    ∃ c ∈ pagesOf table, HasAddr c v ∧ lookUpAddrIfNotAcrossBound table v len = physAddrAt c v ∧
      (v + len) % 2 ^ 64 ≤ pageEnd c % 2 ^ 64 ∧ 0 < len := by
  have horder : defaultOrder.Perm pageTypes := by decide
  have hsub := subMap_empty table
  unfold lookUpAddrIfNotAcrossBound AddressManager.lookUpAddrIfNotAcrossBound getPhysAddrBound at hne ⊢
  dsimp only at hne ⊢
  by_cases hret : (boundLoop table defaultOrder 2 0 v len (fun _ => 0) (fun _ => 0) .empty).ret = 1
  · rw [if_pos hret]
    have hlen : 0 < len := by
      rcases Nat.eq_zero_or_pos len with rfl | hlen
      · rw [boundLoop_done] at hret
        simp at hret
      · exact hlen
    by_cases hpage : ∃ c ∈ pagesOf table, HasAddr c v
    · obtain ⟨c, hc, haddr⟩ := hpage
      refine ⟨c, hc, haddr, ?_⟩
      rw [boundLoop_found h horder hsub hc haddr hlen hv] at hret ⊢
      by_cases hcovered : (v + len) % 2 ^ 64 ≤ pageEnd c % 2 ^ 64
      · rw [if_pos hcovered]
        refine ⟨?_, hcovered, hlen⟩
        dsimp only
        rw [update_self]
      · -- what is left makes a second pass, which does not end with one segment
        rw [if_neg hcovered] at hret
        have hleft : 0 < (len + 2 ^ 64 - (pageEnd c % 2 ^ 64 + 2 ^ 64 - v) % 2 ^ 64) % 2 ^ 64 := by
          by_contra hzero
          omega
        rcases boundLoop_ret 1 with hzero | ⟨-, hgt⟩
        · rw [hzero] at hret
          cases hret
        · have := hgt hleft
          omega
    · push Not at hpage
      rw [boundLoop_missing h hsub hpage hlen hv] at hret
      cases hret
  · rw [if_neg hret] at hne
    exact absurd rfl hne

lemma lookUpAddr_eq (h : PageTable table) {c : PhysChunk} (hv : v < 2 ^ 64) (hc : c ∈ pagesOf table)
    (haddr : HasAddr c v) : lookUpAddr table v = physAddrAt c v := by
  have horder : defaultOrder.Perm pageTypes := by decide
  unfold lookUpAddr
  rw [(addrExact h horder (subMap_empty table) hv).found c hc haddr, physAddrAt_eq haddr hv]

lemma lookUp_eq_lookUpAddr (h : PageTable table) (hv : v < 2 ^ 64)
    (hne : lookUpAddrIfNotAcrossBound table v len ≠ 0) :
    lookUpAddrIfNotAcrossBound table v len = lookUpAddr table v := by
  obtain ⟨c, hc, haddr, heq, -⟩ := lookUp_inside h hv hne
  rw [heq, lookUpAddr_eq h hv hc haddr]

lemma lookUpAddr_lt (table : AddressMap) (v : Nat) : lookUpAddr table v < 2 ^ 64 := by
  unfold lookUpAddr getPhysAddr
  split
  · norm_num
  · exact Nat.mod_lt _ (by norm_num)

def Words : DataFlowOperations → Prop
  | .move ops => ∀ op ∈ ops, op.dst < 2 ^ 64 ∧ ∀ s ∈ op.src.zip op.srcLen, s.1 < 2 ^ 64 ∧ s.2 < 2 ^ 64
  | .crc ops => ∀ op ∈ ops, op.src < 2 ^ 64 ∧ op.len < 2 ^ 64

def fillOf (built : Built) : Fill := ⟨built.descs, built.descNum, built.crcResults⟩

def MoveResult (table : AddressMap) (ctx : DsaCtx) (fill : Fill) (i : Nat) (op : DataFlowMoveOperation) : Prop :=
  if needsCrc op then ResultAt ctx fill i (crcOperation table op) else copyResult table ctx fill i op

structure BuiltFrom (ctx : DsaCtx) (list : List DsaOperation) (built : Built) : Prop where
  descs : built.descs = numbered ctx 0 (framed ctx list)
  num : built.descNum = (framed ctx list).length

lemma length_chunkOperations (op : DataFlowMoveOperation) (segments : List (Nat × Nat)) (sum : Nat) :
    (chunkOperations table op segments sum).length = segments.length := by
  induction segments generalizing sum with
  | nil => rfl
  | cons segment segments ih => exact congrArg (· + 1) (ih _)

lemma length_copyOperations (hop : PassesMove op) :
    (copyOperations table op).length = op.src.length := by
  unfold copyOperations
  rw [length_chunkOperations, length_zip, ← hop.2.1, Nat.min_self]

section

variable (hops : ∀ op ∈ ops, PassesMove op)
include hops

lemma length_flatMap_copyOperations :
    (ops.flatMap (copyOperations table)).length = (ops.map fun op => op.src.length).sum := by
  rw [length_flatMap]
  apply congrArg
  apply map_congr_left
  intro op hop
  exact length_copyOperations (hops op hop)

lemma length_moveList :
    (moveList table ops).length =
      (ops.map fun op => op.src.length).sum + ops.countP needsCrc + (if ops.countP needsCrc ≠ 0 then 1 else 0) := by
  unfold moveList
  rw [length_append, length_flatMap_copyOperations hops]
  split
  · rw [length_cons, length_map, countP_eq_length_filter]
    omega
  · rename_i hzero
    rw [length_nil]
    omega

def Single (ops : List DataFlowMoveOperation) : Prop := ∃ op src, ops = [op] ∧ op.src = [src] ∧ needsCrc op = false

lemma length_moveList_eq_one (hne : ops ≠ []) :
    (moveList table ops).length = 1 ↔ Single ops := by
  rw [length_moveList hops]
  constructor
  · intro hlen
    cases ops with
    | nil => exact absurd rfl hne
    | cons op ops =>
      have hop := (hops op mem_cons_self).1
      rw [map_cons, sum_cons] at hlen
      have hrest : ops = [] := by
        cases ops with
        | nil => rfl
        | cons op' ops =>
          have hop' := (hops op' (by simp)).1
          rw [map_cons, sum_cons] at hlen
          omega
      subst hrest
      have hsrc : op.src.length = 1 := by
        simp only [map_nil, sum_nil] at hlen
        omega
      obtain ⟨src, hsrc⟩ := length_eq_one_iff.mp hsrc
      refine ⟨op, src, rfl, hsrc, ?_⟩
      by_contra hneeds
      rw [Bool.not_eq_false] at hneeds
      simp [hneeds, hsrc] at hlen
  · rintro ⟨op, src, rfl, hsrc, hneeds⟩
    simp [hneeds, hsrc]

end

lemma Single.not_needs {lens : List Nat} (hsrc : op.src = [src]) (hlens : op.srcLen = len :: lens) :
    needsCrc op = false ↔ (!op.enableCrc || isNoOverlap src op.dst len) = true := by
  unfold needsCrc isCopyWithCrcOk
  rw [hsrc, hlens]
  cases op.enableCrc <;> simp

lemma crcTail_writes (ops : List DataFlowMoveOperation) (fill fill' : Fill) (hdense : Dense fill)
    (h : fill' = if ops.countP needsCrc ≠ 0 then
      crcLoop table ctx (ops.zip (ops.map lengthSum)) 0 (put ctx fill .fence) else fill) :
    Writes ctx fill
        (if ops.countP needsCrc ≠ 0 then .fence :: (ops.filter needsCrc).map (crcOperation table) else []) fill' ∧
      (∀ j op, ops[j]? = some op → needsCrc op = true → ResultAt ctx fill' j (crcOperation table op)) ∧
      ∀ j op, ops[j]? = some op → needsCrc op = false → fill'.crcResults j = fill.crcResults j := by
  by_cases hzero : ops.countP needsCrc = 0
  · rw [if_neg (by simpa using hzero)] at h
    rw [if_neg (by simpa using hzero), h]
    refine ⟨.nil _, ?_, fun _ _ _ _ => rfl⟩
    intro j op hop hneeds
    exact absurd hneeds (countP_eq_zero.mp hzero op (mem_of_getElem? hop))
  · rw [if_pos hzero] at h
    rw [if_pos hzero, h]
    have hfence : Writes ctx fill [.fence] (put ctx fill .fence) := writes_put fill .fence
    obtain ⟨hwrites, hsame, hresults⟩ := crcLoop_writes table ops 0 (put ctx fill .fence) (hfence.dense hdense)
    refine ⟨hfence.cons hwrites, ?_, ?_⟩
    · intro j op hop hneeds
      rw [← Nat.zero_add j]
      exact hresults j op hop hneeds
    · intro j op hop hneeds
      refine (hsame j ?_).trans rfl
      intro k op' hop' hneeds' hjk
      rw [Nat.zero_add] at hjk
      subst hjk
      rw [hop] at hop'
      rw [← Option.some.inj hop', hneeds] at hneeds'
      cases hneeds'

lemma buildMoveBatch_ok (hops : ∀ op ∈ ops, PassesMove op) (hlen : (moveList table ops).length ≠ 1)
    (h : buildMoveBatch table ctx crcs ops = .ok built) :
    BuiltFrom ctx (moveList table ops) built ∧ (∀ op ∈ ops, Translates table op) ∧
      ∀ j op, ops[j]? = some op → MoveResult table ctx (fillOf built) j op := by
  have hnum : (moveList table ops).length = _ := length_moveList hops
  unfold buildMoveBatch at h
  dsimp only at h
  generalize hdesc : 1 + (ops.map fun op => op.src.length).sum + ops.countP needsCrc +
    (if ops.countP needsCrc ≠ 0 then 1 else 0) = descNum at h
  have hcount : descNum - 1 = (moveList table ops).length := by omega
  have hbatch : Writes ctx ⟨[], 0, crcs⟩ [.batch (descNum - 1) (elementAddr ctx.dsaHwDescsPhys kDsaHwDescSize 1)]
      (put ctx ⟨[], 0, crcs⟩ (.batch (descNum - 1) (elementAddr ctx.dsaHwDescsPhys kDsaHwDescSize 1))) :=
    writes_put _ _
  generalize put ctx ⟨[], 0, crcs⟩ (.batch (descNum - 1) (elementAddr ctx.dsaHwDescsPhys kDsaHwDescSize 1)) = fill
    at h hbatch
  obtain ⟨⟨sums, fill₁⟩, hmove, h⟩ := exists_of_bind_eq_ok h
  have hbuilt := ok.inj h
  have hdense : Dense fill := hbatch.dense rfl
  obtain ⟨hwrites, hsums, htranslates, -, hresults⟩ := moveLoop_ok hdense hmove
  subst hsums
  generalize hfill : (if ops.countP needsCrc ≠ 0 then
    crcLoop table ctx (ops.zip (ops.map lengthSum)) 0 (put ctx fill₁ .fence) else fill₁) = fill₂ at hbuilt
  obtain ⟨htail, hcrcs, hsame⟩ := crcTail_writes ops fill₁ fill₂ (hwrites.dense hdense) hfill.symm
  have hall : Writes ctx ⟨[], 0, crcs⟩
      (.batch (descNum - 1) (elementAddr ctx.dsaHwDescsPhys kDsaHwDescSize 1) :: moveList table ops) fill₂ :=
    hbatch.cons (hwrites.append htail)
  have hoffset : fill₂.descOffset = descNum := by
    rw [hall.offset, length_cons, ← hcount]
    dsimp only
    omega
  have hframed : framed ctx (moveList table ops) =
      .batch (descNum - 1) (elementAddr ctx.dsaHwDescsPhys kDsaHwDescSize 1) :: moveList table ops := by
    unfold framed
    rw [if_neg hlen, hcount]
  subst hbuilt
  have hfillOf : fillOf ⟨descNum, fill₂.descs, fill₂.crcResults⟩ = fill₂ := by
    rw [← hoffset]
    rfl
  refine ⟨⟨?_, ?_⟩, htranslates, ?_⟩
  · rw [hframed]
    exact hall.descs
  · rw [hframed, length_cons, ← hcount]
    dsimp only
    omega
  · intro j op hop
    rw [hfillOf]
    unfold MoveResult
    by_cases hneeds : needsCrc op = true
    · rw [if_pos hneeds]
      exact hcrcs j op hop hneeds
    · rw [if_neg hneeds]
      have hcopy := hresults j op hop
      rw [Nat.zero_add] at hcopy
      exact hcopy.mono htail (hsame j op hop (by simpa using hneeds))

lemma buildMoveSingle_ok (htable : PageTable table) (hsrc : op.src = [src]) (hlens : op.srcLen = [len])
    (hneeds : needsCrc op = false) (hwords : Words (.move [op]))
    (h : buildMoveSingle table ctx crcs op src len = .ok built) :
    BuiltFrom ctx (moveList table [op]) built ∧ Translates table op ∧
      MoveResult table ctx (fillOf built) 0 op := by
  have hzip : op.src.zip op.srcLen = [(src, len)] := by
    rw [hsrc, hlens]
    rfl
  have hdst : op.dst < 2 ^ 64 := (hwords op mem_cons_self).1
  have hlen : len < 2 ^ 64 := ((hwords op mem_cons_self).2 (src, len) (by simp [hzip])).2
  have hsum : lengthSum op = len := by
    unfold lengthSum
    rw [hzip, map_singleton, sum_singleton, Nat.mod_eq_of_lt hlen]
  have hcopies : copyOperations table op =
      [copyOperation op (lookUpAddrIfNotAcrossBound table src len) ((lookUpAddr table op.dst + 0) % 2 ^ 64) len] := by
    unfold copyOperations
    rw [hzip]
    rfl
  have hlist : moveList table [op] = copyOperations table op := by
    unfold moveList
    rw [if_neg (by simp [hneeds]), append_nil, flatMap_singleton]
  have hframed : framed ctx (moveList table [op]) = copyOperations table op := by
    unfold framed
    rw [hlist, if_pos (by rw [hcopies]; rfl)]
  have hfuses : op.enableCrc = (op.enableCrc && isCopyWithCrcOk op) := by
    unfold needsCrc at hneeds
    revert hneeds
    cases op.enableCrc <;> cases isCopyWithCrcOk op <;> decide
  unfold buildMoveSingle at h
  dsimp only at h
  by_cases hzero : lookUpAddrIfNotAcrossBound table src len = 0 ∨ lookUpAddrIfNotAcrossBound table op.dst len = 0
  · rw [if_pos hzero] at h
    cases h
  · rw [if_neg hzero, lookUp_eq_lookUpAddr htable hdst (fun h' => hzero (.inr h'))] at h
    push Not at hzero
    have hdst' : lookUpAddr table op.dst = (lookUpAddr table op.dst + 0) % 2 ^ 64 := by
      rw [Nat.add_zero, Nat.mod_eq_of_lt (lookUpAddr_lt table _)]
    have htranslates : Translates table op := by
      refine ⟨?_, ?_, ?_⟩
      · rw [← lookUp_eq_lookUpAddr htable hdst hzero.2]
        exact hzero.2
      · intro s hs
        rw [hzip, mem_singleton] at hs
        rw [hs]
        exact hzero.1
      · rw [hsum]
        exact hzero.2
    -- the one descriptor is what a pass of the loop over the chunks writes
    rw [hfuses, hdst'] at h
    have hloop : copyLoop table ctx op 0 (lookUpAddr table op.dst) (op.src.zip op.srcLen) 0 ⟨[], 0, crcs⟩ =
        .ok ((0 + len) % 2 ^ 64, fillCopyMaybeWithCrc ctx ⟨[], 0, crcs⟩ (lookUpAddrIfNotAcrossBound table src len) len
          ((lookUpAddr table op.dst + 0) % 2 ^ 64) (vesalCrcRevise op.seed) (op.enableCrc && isCopyWithCrcOk op) 0) := by
      rw [hzip]
      unfold copyLoop
      rw [if_neg hzero.1]
      rfl
    generalize fillCopyMaybeWithCrc ctx ⟨[], 0, crcs⟩ (lookUpAddrIfNotAcrossBound table src len) len
      ((lookUpAddr table op.dst + 0) % 2 ^ 64) (vesalCrcRevise op.seed) (op.enableCrc && isCopyWithCrcOk op) 0 = fill
      at h hloop
    have hbuilt := ok.inj h
    have hwrites : Writes ctx ⟨[], 0, crcs⟩ (copyOperations table op) fill := (copyLoop_ok (by norm_num) hloop).1
    have hoffset : fill.descOffset = 1 := by
      rw [hwrites.offset, hcopies]
      rfl
    have hfillOf : fillOf ⟨1, fill.descs, fill.crcResults⟩ = fill := by
      rw [← hoffset]
      rfl
    subst hbuilt
    refine ⟨⟨?_, ?_⟩, htranslates, ?_⟩
    · rw [hframed]
      exact hwrites.descs
    · rw [hframed, hcopies]
      rfl
    · rw [hfillOf]
      unfold MoveResult
      rw [if_neg (by simp [hneeds])]
      have hdense : Dense ⟨[], 0, crcs⟩ := rfl
      exact copyLoop_copyResult hdense hloop

theorem buildMoveCtx_ok (htable : PageTable table) (hops : ∀ op ∈ ops, PassesMove op) (hne : ops ≠ [])
    (hwords : Words (.move ops)) (h : buildMoveCtx table ctx crcs ops = .ok built) :
    BuiltFrom ctx (moveList table ops) built ∧ (∀ op ∈ ops, Translates table op) ∧
      ∀ j op, ops[j]? = some op → MoveResult table ctx (fillOf built) j op := by
  by_cases hsingle : Single ops
  · obtain ⟨op, src, rfl, hsrc, hneeds⟩ := hsingle
    have hlens : ∃ len, op.srcLen = [len] := by
      rw [← length_eq_one_iff, ← (hops op mem_cons_self).2.1, hsrc]
      rfl
    obtain ⟨len, hlens⟩ := hlens
    unfold buildMoveCtx at h
    dsimp only at h
    rw [hsrc, hlens] at h
    dsimp only at h
    rw [if_pos ((Single.not_needs hsrc hlens).mp hneeds)] at h
    obtain ⟨hbuilt, htranslates, hresult⟩ := buildMoveSingle_ok htable hsrc hlens hneeds hwords h
    refine ⟨hbuilt, ?_, ?_⟩
    · intro o ho
      rw [mem_singleton.mp ho]
      exact htranslates
    · intro j o ho
      cases j with
      | zero =>
        obtain rfl : op = o := by simpa using ho
        exact hresult
      | succ j => simp at ho
  · have hlen : (moveList table ops).length ≠ 1 := fun hlen => hsingle ((length_moveList_eq_one hops hne).mp hlen)
    have hbatch : buildMoveCtx table ctx crcs ops = buildMoveBatch table ctx crcs ops := by
      unfold buildMoveCtx
      split
      · rename_i op
        split
        · rename_i src len lens hsrc hlens
          apply if_neg
          intro hcond
          exact hsingle ⟨op, src, rfl, hsrc, (Single.not_needs hsrc hlens).mpr hcond⟩
        · rfl
      · rfl
    exact buildMoveBatch_ok hops hlen (hbatch ▸ h)

lemma crcgenLoop_ok {ops : List DataFlowCrcOperation} (hdense : Dense fill)
    (h : crcgenLoop table ctx ops i fill = .ok fill') :
    Writes ctx fill (crcList table ops) fill' ∧
      (∀ op ∈ ops, lookUpAddrIfNotAcrossBound table op.src op.len ≠ 0) ∧
      (∀ j < i, fill'.crcResults j = fill.crcResults j) ∧
      ∀ j op, ops[j]? = some op → ResultAt ctx fill' (i + j) (crcRequestOperation table op) := by
  induction ops generalizing i fill with
  | nil =>
    obtain rfl := ok.inj h
    exact ⟨.nil _, fun _ hop => absurd hop not_mem_nil, fun _ _ => rfl, fun _ _ hop => by simp at hop⟩
  | cons op ops ih =>
    unfold crcgenLoop at h
    by_cases hsrc : lookUpAddrIfNotAcrossBound table op.src op.len = 0
    · rw [if_pos hsrc] at h
      cases h
    · rw [if_neg hsrc] at h
      have hput : Writes ctx fill [crcRequestOperation table op] (putCrc ctx fill (crcRequestOperation table op) i) :=
        writes_putCrc fill _ i
      obtain ⟨hwrites, hlookups, hbefore, hresults⟩ := ih (hput.dense hdense) h
      refine ⟨hput.cons hwrites, ?_, ?_, ?_⟩
      · exact forall_mem_cons.mpr ⟨hsrc, hlookups⟩
      · intro j hj
        refine (hbefore j (by omega)).trans (update_of_ne (by omega) _ _)
      · intro j o ho
        cases j with
        | zero =>
          obtain rfl : op = o := by simpa using ho
          exact (resultAt_putCrc hdense _ i).mono hwrites (hbefore i (by omega))
        | succ j =>
          rw [show i + (j + 1) = i + 1 + j by omega]
          exact hresults j o (by simpa using ho)

theorem buildCrcCtx_ok {ops : List DataFlowCrcOperation} (h : buildCrcCtx table ctx crcs ops = .ok built) :
    BuiltFrom ctx (crcList table ops) built ∧
      (∀ op ∈ ops, lookUpAddrIfNotAcrossBound table op.src op.len ≠ 0) ∧
      ∀ j op, ops[j]? = some op → ResultAt ctx (fillOf built) j (crcRequestOperation table op) := by
  have hlength : (crcList table ops).length = ops.length := length_map _
  unfold buildCrcCtx at h
  by_cases hone : ops.length = 1
  · rw [if_pos hone] at h
    obtain ⟨fill, hloop, h⟩ := exists_of_bind_eq_ok h
    have hbuilt := ok.inj h
    have hdense : Dense ⟨[], 0, crcs⟩ := rfl
    obtain ⟨hwrites, hlookups, -, hresults⟩ := crcgenLoop_ok hdense hloop
    have hframed : framed ctx (crcList table ops) = crcList table ops := by
      unfold framed
      rw [if_pos (hlength.trans hone)]
    subst hbuilt
    refine ⟨⟨?_, ?_⟩, hlookups, ?_⟩
    · rw [hframed]
      exact hwrites.descs
    · rw [hframed, hlength, hone]
    · intro j op hop
      have hresult := hresults j op hop
      rw [Nat.zero_add] at hresult
      exact ⟨hresult.exists_element⟩
  · rw [if_neg hone] at h
    dsimp only at h
    have hbatch : Writes ctx ⟨[], 0, crcs⟩
        [.batch (ops.length + 1 - 1) (elementAddr ctx.dsaHwDescsPhys kDsaHwDescSize 1)]
        (put ctx ⟨[], 0, crcs⟩ (.batch (ops.length + 1 - 1) (elementAddr ctx.dsaHwDescsPhys kDsaHwDescSize 1))) :=
      writes_put _ _
    generalize put ctx ⟨[], 0, crcs⟩ (.batch (ops.length + 1 - 1) (elementAddr ctx.dsaHwDescsPhys kDsaHwDescSize 1)) =
      fill at h hbatch
    obtain ⟨fill', hloop, h⟩ := exists_of_bind_eq_ok h
    have hbuilt := ok.inj h
    obtain ⟨hwrites, hlookups, -, hresults⟩ := crcgenLoop_ok (hbatch.dense rfl) hloop
    have hframed : framed ctx (crcList table ops) =
        .batch (ops.length + 1 - 1) (elementAddr ctx.dsaHwDescsPhys kDsaHwDescSize 1) :: crcList table ops := by
      unfold framed
      rw [if_neg (fun h => hone (hlength.symm.trans h)), hlength, Nat.add_sub_cancel]
    subst hbuilt
    refine ⟨⟨?_, ?_⟩, hlookups, ?_⟩
    · rw [hframed]
      exact (hbatch.cons hwrites).descs
    · rw [hframed, length_cons, hlength]
    · intro j op hop
      have hresult := hresults j op hop
      rw [Nat.zero_add] at hresult
      exact ⟨hresult.exists_element⟩

end Vesal.Proofs
