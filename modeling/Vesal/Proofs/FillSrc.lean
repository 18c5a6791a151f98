import Vesal.Proofs.BufferFill

/-! # Filling the source -/

namespace Vesal.Proofs

open Library List

variable (mem : Memory) (blocks : IOVector)

def userBytes : List UInt8 :=
  blocks.flatMap (fun b => readBytes mem b.data b.size)

def segBytes (segs : List Extent) : List UInt8 :=
  segs.flatMap (fun e => readBytes mem e.start e.len)

@[simp] lemma totalSize_nil : totalSize [] = 0 := rfl

@[simp] lemma totalSize_cons (b : IOBlock) (blocks : IOVector) :
    totalSize (b :: blocks) = b.size + totalSize blocks := by
  simp [totalSize]

@[simp] lemma totalSize_append (xs ys : IOVector) : totalSize (xs ++ ys) = totalSize xs + totalSize ys := by
  simp [totalSize]

@[simp] lemma totalSize_reverse : totalSize blocks.reverse = totalSize blocks := by
  simp [totalSize, map_reverse, sum_reverse]

lemma totalSize_le (h : blocks.length ≤ 32) : totalSize blocks ≤ 2 ^ 37 := by
  have hle : ∀ bs : IOVector, totalSize bs ≤ bs.length * 2 ^ 32 := by
    intro bs
    induction bs with
    | nil => simp
    | cons b bs ih =>
      have hb := b.size_lt
      rw [totalSize_cons, length_cons, Nat.add_mul]
      omega
  have htotal := hle blocks
  omega

lemma userBytes_length :
    (userBytes mem blocks).length = totalSize blocks := by
  induction blocks with
  | nil => rfl
  | cons b blocks ih =>
    rw [totalSize_cons, ← ih]
    simp [userBytes]

@[simp] lemma userBytes_append (xs ys : IOVector) :
    userBytes mem (xs ++ ys) = userBytes mem xs ++ userBytes mem ys := flatMap_append

@[simp] lemma userBytes_cons (b : IOBlock) (blocks : IOVector) :
    userBytes mem (b :: blocks) = readBytes mem b.data b.size ++ userBytes mem blocks :=
  flatMap_cons

lemma startPointLoop_spec (blocks : List IOBlock) (index left : Nat) (h : left < totalSize blocks) :
    ∃ pre b rest off, blocks = pre ++ b :: rest ∧ left = totalSize pre + off ∧ off < b.size ∧
      startPointLoop blocks index left = .ok (index + pre.length, off) := by
  induction blocks generalizing index left with
  | nil => simp at h
  | cons b blocks ih =>
    rw [startPointLoop]
    by_cases hb : left < b.size
    · refine ⟨[], b, blocks, left, rfl, ?_, hb, ?_⟩
      · simp
      · rw [if_pos hb]
        rfl
    · rw [totalSize_cons] at h
      obtain ⟨pre, b', rest, off, hsplit, hleft, hoff, hloop⟩ := ih (index + 1) (left - b.size) (by omega)
      refine ⟨b :: pre, b', rest, off, ?_, ?_, hoff, ?_⟩
      · rw [hsplit]
        rfl
      · rw [totalSize_cons]
        omega
      · rw [if_neg hb, hloop, length_cons]
        congr 2
        omega

lemma startPointLoop_fault (blocks : List IOBlock) (index left : Nat) (h : totalSize blocks ≤ left) :
    startPointLoop blocks index left = .error (.blockIndex (index + blocks.length)) := by
  induction blocks generalizing index left with
  | nil => simp [startPointLoop]
  | cons b blocks ih =>
    rw [totalSize_cons] at h
    rw [startPointLoop, if_neg (by omega), ih (index + 1) (left - b.size) (by omega), length_cons]
    congr 2
    push_cast
    ring

lemma endPointLoop_spec (rev : List IOBlock) (left : Nat) (h : left < totalSize rev) :
    ∃ pre b rest l, rev = pre ++ b :: rest ∧ left = totalSize pre + l ∧ l < b.size ∧
      endPointLoop rev left = .ok (rest.length, b.size - l) := by
  induction rev generalizing left with
  | nil => simp at h
  | cons b rev ih =>
    rw [endPointLoop]
    by_cases hb : left < b.size
    · refine ⟨[], b, rev, left, rfl, ?_, hb, ?_⟩
      · simp
      · rw [if_pos hb]
    · rw [totalSize_cons] at h
      obtain ⟨pre, b', rest, l, hsplit, hleft, hl, hloop⟩ := ih (left - b.size) (by omega)
      refine ⟨b :: pre, b', rest, l, ?_, ?_, hl, ?_⟩
      · rw [hsplit]
        rfl
      · rw [totalSize_cons]
        omega
      · rw [if_neg hb, hloop]

lemma endPointLoop_fault (rev : List IOBlock) (left : Nat) (h : totalSize rev ≤ left) :
    endPointLoop rev left = .error (.blockIndex (-1)) := by
  induction rev generalizing left with
  | nil => rfl
  | cons b rev ih =>
    rw [totalSize_cons] at h
    rw [endPointLoop, if_neg (by omega)]
    exact ih (left - b.size) (by omega)

lemma findSglStartPoint_spec (usrData : IOVector) (front : Nat) (h : front < totalSize usrData) :
    ∃ pre b rest off, usrData = pre ++ b :: rest ∧ front = totalSize pre + off ∧ off ≤ b.size ∧
      findSglStartPoint usrData front = .ok (pre.length, off) := by
  unfold findSglStartPoint
  by_cases hz : front = 0
  · cases usrData with
    | nil => simp at h
    | cons b rest =>
      refine ⟨[], b, rest, 0, rfl, ?_, by omega, ?_⟩
      · simp [hz]
      · rw [if_pos hz]
        rfl
  · obtain ⟨pre, b, rest, off, hsplit, hfront, hoff, hloop⟩ := startPointLoop_spec usrData 0 front h
    refine ⟨pre, b, rest, off, hsplit, hfront, by omega, ?_⟩
    rw [if_neg hz, hloop, Nat.zero_add]

lemma findSglEndPoint_spec (usrData : IOVector) (back : Nat) (h : back < totalSize usrData) :
    ∃ pre b rest len, usrData = pre ++ b :: rest ∧ len ≤ b.size ∧
      totalSize pre + len + back = totalSize usrData ∧
      findSglEndPoint usrData back = .ok (pre.length, len) := by
  unfold findSglEndPoint
  by_cases hz : back = 0
  · obtain ⟨pre, b, hsplit⟩ : ∃ pre b, usrData = pre ++ [b] := by
      cases hrev : usrData.reverse with
      | nil =>
        rw [reverse_eq_nil_iff] at hrev
        simp [hrev] at h
      | cons b pre =>
        refine ⟨pre.reverse, b, ?_⟩
        rw [← reverse_reverse usrData, hrev, reverse_cons]
    refine ⟨pre, b, [], b.size, hsplit, le_rfl, ?_, ?_⟩
    · rw [hsplit]
      simp [hz]
    · rw [if_pos hz, hsplit]
      simp [blockAt, bind, Except.bind, pure, Except.pure]
  · obtain ⟨pre, b, rest, l, hsplit, hback, hl, hloop⟩ :=
      endPointLoop_spec usrData.reverse back (by simpa using h)
    have husr : usrData = rest.reverse ++ b :: pre.reverse := by
      rw [← reverse_reverse usrData, hsplit]
      simp
    refine ⟨rest.reverse, b, pre.reverse, b.size - l, husr, by omega, ?_, ?_⟩
    · rw [husr]
      simp
      omega
    · rw [if_neg hz, hloop, length_reverse]

variable {front back off len : Nat}

variable {pre rest usrData : IOVector} {b b' : IOBlock} {caller segs : List Extent} {pool₀ pool : PoolState}
  {block : Nat → Extent}

lemma points_ordered {pre' rest' : IOVector} (hsplit : pre ++ b :: rest = pre' ++ b' :: rest')
    (hfront : front = totalSize pre + off) (hlen : len ≤ b'.size)
    (hback : totalSize pre' + len + back = totalSize (pre ++ b :: rest))
    (hlt : front + back < totalSize (pre ++ b :: rest)) :
    (pre = pre' ∧ b = b' ∧ rest = rest') ∨ ∃ mid, pre' = pre ++ b :: mid ∧ rest = mid ++ b' :: rest' := by
  rcases append_eq_append_iff.mp hsplit with ⟨mid, hpre', htail⟩ | ⟨mid, hpre, htail⟩
  · cases mid with
    | nil =>
      rw [append_nil] at hpre'
      injection htail with hb hrest
      exact .inl ⟨hpre'.symm, hb, hrest⟩
    | cons x mid =>
      injection htail with hb hrest
      rw [← hb] at hpre'
      exact .inr ⟨mid, hpre', hrest⟩
  · cases mid with
    | nil =>
      rw [append_nil] at hpre
      injection htail with hb hrest
      exact .inl ⟨hpre, hb.symm, hrest.symm⟩
    | cons x mid =>
      exfalso
      injection htail with hb hrest
      have hsize : totalSize pre = totalSize pre' + (b'.size + totalSize mid) := by
        rw [hpre, hb, totalSize_append, totalSize_cons]
      omega

/-- A piece of one block that lies after the first `front` and before the last `back`
bytes of the user's blocks. -/
def InRange (usrData : IOVector) (front back : Nat) (e : Extent) : Prop :=
  ∃ pre b rest off, usrData = pre ++ b :: rest ∧ e.start = b.data + off ∧ off + e.len ≤ b.size ∧
    front ≤ totalSize pre + off ∧ totalSize pre + off + e.len + back ≤ totalSize usrData

lemma InRange.within {e : Extent} (h : InRange usrData front back e) :
    ∃ c ∈ usrData.extents, e.Within c := by
  obtain ⟨pre, b, rest, off, hsplit, hstart, hlen, -, -⟩ := h
  refine ⟨b.extent, ?_, ?_⟩
  · rw [hsplit]
    simp [IOVector.extents]
  · unfold Extent.Within IOBlock.extent
    simp only
    omega

def fillPieces (dev : DmaUnit) (caller : List Extent) :
    List Extent → QatBuf → PoolState → Bool × QatBuf × PoolState
  | [], buf, pool => (true, buf, pool)
  | seg :: segs, buf, pool =>
    match fillOneBuffer dev caller seg.start seg.len true buf.numBuffers buf pool with
    | (false, buf, pool) => (false, freeDataIfNecessary dev buf pool)
    | (true, buf, pool) => fillPieces dev caller segs { buf with numBuffers := buf.numBuffers + 1 } pool

lemma fillOneBuffer_numBuffers (dev : DmaUnit) (caller : List Extent) (addr len : Nat) (copy : Bool)
    (index : Nat) (buf : QatBuf) (pool : PoolState) :
    (fillOneBuffer dev caller addr len copy index buf pool).2.1.numBuffers = buf.numBuffers := by
  rcases fillOneBuffer_cases dev caller addr len copy index buf pool with
    h | ⟨-, answers, h⟩ | ⟨-, block, answers, -, h⟩
  · rw [h]
    rfl
  · rw [h]
    rfl
  · rw [h]
    rfl

lemma ok_of_bind {ε α β : Type} {x : Except ε α} {f : α → Except ε β} {r : β} (h : x >>= f = .ok r) :
    ∃ a, x = .ok a ∧ f a = .ok r := by
  cases x with
  | error fault => cases h
  | ok a => exact ⟨a, rfl, h⟩

section

variable {dev : DmaUnit} {usrData : IOVector} {buf : QatBuf} {pool : PoolState} {result : Bool × QatBuf × PoolState}

lemma fillSrcLoop_cases {b e firstUnit firstUnitLen endLen n i : Nat}
    (h : fillSrcLoop dev usrData b e firstUnit firstUnitLen endLen (n + 1) i buf pool = .ok result) :
    ∃ addr len ok buf' pool',
      fillOneBuffer dev usrData.extents addr len true buf.numBuffers buf pool = (ok, buf', pool') ∧
      (ok = false ∧ result = (false, freeDataIfNecessary dev buf' pool') ∨
        ok = true ∧ fillSrcLoop dev usrData b e firstUnit firstUnitLen endLen n (i + 1)
          { buf' with numBuffers := buf'.numBuffers + 1 } pool' = .ok result) := by
  obtain ⟨block, -, h⟩ := ok_of_bind h
  generalize (if i = b then (firstUnit, firstUnitLen)
    else if i = e then (block.data, endLen) else (block.data, block.size)) = piece at h
  dsimp only at h
  split at h
  · cases h
  rcases hfill : fillOneBuffer dev usrData.extents piece.1 (piece.2 % 2 ^ 32) true buf.numBuffers buf pool
    with ⟨ok, buf', pool'⟩
  rw [hfill] at h
  refine ⟨_, _, ok, buf', pool', hfill, ?_⟩
  cases ok with
  | false =>
    cases h
    exact Or.inl ⟨rfl, rfl⟩
  | true => exact Or.inr ⟨rfl, h⟩

lemma fillSrc_cases {front back : Nat} (h : fillSrc dev usrData front back buf pool = .ok result) :
    result = (false, buf, pool) ∨
    (∃ addr len ok buf' pool', fillOneBuffer dev usrData.extents addr len true 0 buf pool = (ok, buf', pool') ∧
      result = (ok, if ok then { buf' with numBuffers := 1 } else buf', pool')) ∨
    ∃ b e firstUnit firstUnitLen endLen n i, fillSrcLoop dev usrData b e firstUnit firstUnitLen endLen n i
      { buf with numBuffers := 0 } pool = .ok result := by
  unfold fillSrc at h
  split at h
  · cases h
    exact Or.inl rfl
  obtain ⟨first, -, h⟩ := ok_of_bind h
  obtain ⟨block, -, h⟩ := ok_of_bind h
  obtain ⟨last, -, h⟩ := ok_of_bind h
  dsimp only at h
  split at h
  · rcases hfill : fillOneBuffer dev usrData.extents (block.data + first.2)
      ((last.2 + 2 ^ 64 - first.2) % 2 ^ 64 % 2 ^ 32) true 0 buf pool with ⟨ok, buf', pool'⟩
    rw [hfill] at h
    refine Or.inr (Or.inl ⟨_, _, ok, buf', pool', hfill, ?_⟩)
    cases ok with
    | false =>
      cases h
      rfl
    | true =>
      cases h
      rfl
  · exact Or.inr (Or.inr ⟨_, _, _, _, _, _, _, h⟩)

end

/-- Either all pieces are filled, or everything taken from the pool is given back. -/
theorem fillPieces_spec (dev : DmaUnit) (segs : List Extent) (hsegs : ∀ seg ∈ segs, ∃ c ∈ caller, seg.Within c)
    (done : List Extent) (block : Nat → Extent) (buf : QatBuf) (pool : PoolState)
    (h : SegmentsFilled caller pool₀ done block buf pool) :
    (∃ buf' pool' block', fillPieces dev caller segs buf pool = (true, buf', pool') ∧
      SegmentsFilled caller pool₀ (done ++ segs) block' buf' pool') ∨
    ∃ buf' pool', fillPieces dev caller segs buf pool = (false, buf', pool') ∧
      pool'.allocated = pool₀.allocated := by
  induction segs generalizing done block buf pool with
  | nil =>
    rw [append_nil]
    exact .inl ⟨buf, pool, block, rfl, h⟩
  | cons seg segs ih =>
    have hnum := fillOneBuffer_numBuffers dev caller seg.start seg.len true buf.numBuffers buf pool
    rcases fillOneBuffer_filled h dev seg (hsegs seg mem_cons_self) with
      ⟨buf', pool', block', hfill, hfilled⟩ | ⟨hsvm, buf', pool', hfill, hfilled⟩
    · rw [hfill] at hnum
      rw [← show buf'.numBuffers = buf.numBuffers from hnum] at hfilled
      have hrest := ih (fun e he => hsegs e (mem_cons_of_mem _ he)) (done ++ [seg]) block' _ pool'
        hfilled
      rw [append_assoc, singleton_append] at hrest
      rw [fillPieces, hfill]
      exact hrest
    · rw [fillPieces, hfill]
      exact .inr ⟨_, _, rfl, hfilled.free dev hsvm⟩

def rangePieces (b : IOBlock) (off : Nat) (mid : IOVector) (b' : IOBlock) (len : Nat) : List Extent :=
  ⟨b.data + off, b.size - off⟩ :: (mid.map IOBlock.extent ++ [⟨b'.data, len⟩])

lemma rangePieces_inRange {mid : IOVector} (hoff : off ≤ b.size) (hlen : len ≤ b'.size)
    (hfront : front = totalSize pre + off)
    (hback : totalSize (pre ++ b :: mid) + len + back = totalSize (pre ++ b :: (mid ++ b' :: rest))) {seg : Extent}
    (hseg : seg ∈ rangePieces b off mid b' len) :
    InRange (pre ++ b :: (mid ++ b' :: rest)) front back seg := by
  simp only [totalSize_append, totalSize_cons] at hback
  rw [rangePieces, mem_cons, mem_append, mem_singleton] at hseg
  rcases hseg with rfl | hseg | rfl
  · refine ⟨pre, b, mid ++ b' :: rest, off, rfl, rfl, ?_, by omega, ?_⟩
    · simp only
      omega
    · simp only [totalSize_append, totalSize_cons]
      omega
  · obtain ⟨m, hm, rfl⟩ := mem_map.mp hseg
    obtain ⟨l, r, rfl⟩ := append_of_mem hm
    refine ⟨pre ++ b :: l, m, r ++ b' :: rest, 0, by simp, rfl, ?_, ?_, ?_⟩
    · simp [IOBlock.extent]
    · simp only [totalSize_append, totalSize_cons]
      omega
    · simp only [totalSize_append, totalSize_cons, IOBlock.extent]
      omega
  · refine ⟨pre ++ b :: mid, b', rest, 0, by simp, rfl, ?_, ?_, ?_⟩
    · simpa using hlen
    · simp only [totalSize_append, totalSize_cons]
      omega
    · simp only [totalSize_append, totalSize_cons]
      omega

section

variable (dev : DmaUnit) (usrData : IOVector) (beginIndex endIndex firstUnit firstUnitLen endLen : Nat)

lemma fillSrcLoop_step {i n : Nat} {block : IOBlock} {buf : QatBuf} {pool : PoolState} (seg : Extent)
    (segs : List Extent) (hblock : usrData[i]? = some block)
    (hseg : (if i = beginIndex then (firstUnit, firstUnitLen)
      else if i = endIndex then (block.data, endLen) else (block.data, block.size)) =
        (seg.start, seg.len))
    (hlen : seg.len < 2 ^ 32) (hnum : buf.numBuffers < 32)
    (hrest : ∀ buf' pool', buf'.numBuffers = buf.numBuffers + 1 →
      fillSrcLoop dev usrData beginIndex endIndex firstUnit firstUnitLen endLen n (i + 1) buf' pool' =
        .ok (fillPieces dev usrData.extents segs buf' pool')) :
    fillSrcLoop dev usrData beginIndex endIndex firstUnit firstUnitLen endLen (n + 1) i buf pool =
      .ok (fillPieces dev usrData.extents (seg :: segs) buf pool) := by
  have hnb := fillOneBuffer_numBuffers dev usrData.extents seg.start seg.len true buf.numBuffers buf pool
  have hmod : seg.len % 2 ^ 32 = seg.len := Nat.mod_eq_of_lt hlen
  rw [fillSrcLoop, blockAt, hblock]
  simp only [bind, Except.bind, hseg, hmod]
  rw [if_neg (by unfold vesalMaxSglNum; omega), fillPieces]
  cases hfill : fillOneBuffer dev usrData.extents seg.start seg.len true buf.numBuffers buf pool with
  | mk ok s =>
    rw [hfill] at hnb
    cases ok with
    | false => rfl
    | true => exact hrest _ _ (by rw [← hnb])

lemma fillSrcLoop_tail (before mid rest : IOVector) (b : IOBlock)
    (husr : usrData = before ++ mid ++ b :: rest) (hbegin : beginIndex < before.length)
    (hend : endIndex = before.length + mid.length) (hlen : endLen ≤ b.size) (buf : QatBuf)
    (pool : PoolState) (hnum : buf.numBuffers + mid.length < 32) :
    fillSrcLoop dev usrData beginIndex endIndex firstUnit firstUnitLen endLen (mid.length + 1)
      before.length buf pool =
      .ok (fillPieces dev usrData.extents (mid.map IOBlock.extent ++ [⟨b.data, endLen⟩]) buf pool) := by
  induction mid generalizing before buf pool with
  | nil =>
    have hblock : usrData[before.length]? = some b := by simp [husr]
    apply fillSrcLoop_step dev usrData beginIndex endIndex firstUnit firstUnitLen endLen
      ⟨b.data, endLen⟩ [] hblock
    · rw [if_neg (by omega), if_pos (by simp [hend])]
    · have hb := b.size_lt
      simp only
      omega
    · simpa using hnum
    · intro buf' pool' _
      rfl
  | cons m mid ih =>
    rw [length_cons] at hnum hend
    have hblock : usrData[before.length]? = some m := by simp [husr]
    apply fillSrcLoop_step dev usrData beginIndex endIndex firstUnit firstUnitLen endLen m.extent
      (mid.map IOBlock.extent ++ [(⟨b.data, endLen⟩ : Extent)]) hblock
    · rw [if_neg (by omega), if_neg (by omega)]
      rfl
    · exact m.size_lt
    · omega
    · intro buf' pool' hbuf'
      have htail := ih (before ++ [m]) (by simp [husr]) (by simp; omega) (by simp; omega) buf' pool'
        (by omega)
      rw [length_append, length_singleton] at htail
      exact htail

lemma fillSrcLoop_pieces (pre mid rest : IOVector) (b b' : IOBlock) (off : Nat)
    (husr : usrData = pre ++ b :: (mid ++ b' :: rest)) (hlen : endLen ≤ b'.size)
    (hnum : mid.length + 2 ≤ 32) (buf : QatBuf) (pool : PoolState) (hbuf : buf.numBuffers = 0) :
    fillSrcLoop dev usrData pre.length (pre.length + (mid.length + 1)) (b.data + off) (b.size - off)
      endLen (mid.length + 1 + 1) pre.length buf pool =
      .ok (fillPieces dev usrData.extents (rangePieces b off mid b' endLen) buf pool) := by
  have hblock : usrData[pre.length]? = some b := by simp [husr]
  apply fillSrcLoop_step dev usrData _ _ _ _ _ _ _ hblock
  · rw [if_pos rfl]
  · have hb := b.size_lt
    simp only
    omega
  · omega
  · intro buf' pool' hbuf'
    have htail := fillSrcLoop_tail dev usrData pre.length (pre.length + (mid.length + 1)) (b.data + off)
      (b.size - off) endLen (pre ++ [b]) mid rest b' (by simp [husr]) (by simp) (by simp; omega) hlen
      buf' pool' (by omega)
    have hindex : (pre ++ [b]).length = pre.length + 1 := by simp
    rw [hindex] at htail
    exact htail

end

lemma segBytes_extents :
    segBytes mem (blocks.map IOBlock.extent) = userBytes mem blocks := by
  unfold segBytes userBytes
  rw [flatMap_map]
  rfl

lemma segBytes_cons (e : Extent) (segs : List Extent) :
    segBytes mem (e :: segs) = readBytes mem e.start e.len ++ segBytes mem segs := flatMap_cons

lemma segBytes_append (xs ys : List Extent) :
    segBytes mem (xs ++ ys) = segBytes mem xs ++ segBytes mem ys := flatMap_append

lemma segBytes_one (pre rest : IOVector) (b : IOBlock) (hoff : off ≤ len) (hlen : len ≤ b.size) :
    segBytes mem [⟨b.data + off, len - off⟩] =
      ((userBytes mem (pre ++ b :: rest)).drop (totalSize pre + off)).take (len - off) := by
  have hdrop : (userBytes mem (pre ++ b :: rest)).drop (totalSize pre + off) =
      readBytes mem (b.data + off) (b.size - off) ++ userBytes mem rest := by
    rw [userBytes_append, userBytes_cons, ← userBytes_length mem pre, drop_length_add_append,
      drop_append_of_le_length (by simp; omega), drop_readBytes _ _ _ _ (by omega)]
  rw [hdrop, take_append_of_le_length (by simp; omega), take_readBytes _ _ _ _ (by omega)]
  simp [segBytes]

lemma segBytes_many (pre mid rest : IOVector) (b b' : IOBlock) (hoff : off ≤ b.size)
    (hlen : len ≤ b'.size) :
    segBytes mem (⟨b.data + off, b.size - off⟩ :: (mid.map IOBlock.extent ++ [⟨b'.data, len⟩])) =
      ((userBytes mem (pre ++ b :: (mid ++ b' :: rest))).drop (totalSize pre + off)).take
        (b.size - off + totalSize mid + len) := by
  have hdrop : (userBytes mem (pre ++ b :: (mid ++ b' :: rest))).drop (totalSize pre + off) =
      (readBytes mem (b.data + off) (b.size - off) ++ userBytes mem mid) ++
        (readBytes mem b'.data b'.size ++ userBytes mem rest) := by
    rw [userBytes_append, userBytes_cons, ← userBytes_length mem pre, drop_length_add_append,
      drop_append_of_le_length (by simp; omega), drop_readBytes _ _ _ _ (by omega),
      userBytes_append, userBytes_cons, append_assoc]
  have hhead : (readBytes mem (b.data + off) (b.size - off) ++ userBytes mem mid).length =
      b.size - off + totalSize mid := by
    rw [length_append, readBytes_length, userBytes_length]
  rw [hdrop, ← hhead, take_length_add_append, take_append_of_le_length (by simp; omega),
    take_readBytes _ _ _ _ hlen, segBytes_cons, segBytes_append, segBytes_extents]
  simp [segBytes]

def flatBytes (buf : QatBuf) : List UInt8 :=
  (List.range buf.numBuffers).flatMap
    (fun k => readBytes mem (buf.pBuffers k).pData (buf.pBuffers k).dataLenInBytes)

lemma SegmentsFilled.flatBytes_eq {buf : QatBuf} (h : SegmentsFilled caller pool₀ segs block buf pool) :
    flatBytes pool.mem buf = segBytes pool₀.mem segs := by
  unfold flatBytes segBytes
  rw [flatMap_def, flatMap_def]
  congr 1
  apply ext_getElem
  · simp [h.count]
  · intro k hk hk'
    have hlt : k < segs.length := by simpa using hk'
    simp only [getElem_map, getElem_range]
    rw [h.lens k hlt]
    exact h.content k hlt

structure SrcFilled (usrData : IOVector) (front back : Nat) (pool : PoolState) (buf' : QatBuf)
    (pool' : PoolState) : Prop where
  count_pos : 1 ≤ buf'.numBuffers
  count_le : buf'.numBuffers ≤ vesalMaxSglNum
  bytes : flatBytes pool'.mem buf' =
    ((userBytes pool.mem usrData).drop front).take (totalSize usrData - front - back)
  aliased : ∀ k < buf'.numBuffers, buf'.dmaAble k = true →
    InRange usrData front back ⟨(buf'.pBuffers k).pData, (buf'.pBuffers k).dataLenInBytes⟩
  owned : ∃ block : Nat → Extent,
    pool'.allocated = ((copiedBuffers buf' buf'.numBuffers).map block).reverse ++ pool.allocated ∧
    ((copiedBuffers buf' buf'.numBuffers).map block).Pairwise Extent.Disjoint ∧
    ∀ k < buf'.numBuffers, buf'.dmaAble k = false →
      (block k).start = (buf'.pBuffers k).pData ∧ (buf'.pBuffers k).dataLenInBytes ≤ (block k).len ∧
        ∀ e ∈ pool.allocated ++ usrData.extents, (block k).Disjoint e
  untouched : ∀ e ∈ pool.allocated ++ usrData.extents, ∀ a, e.start ≤ a → a < e.start + e.len →
    pool'.mem a = pool.mem a

lemma srcFilled_of_filled {pool' : PoolState} {buf' : QatBuf}
    (h : SegmentsFilled usrData.extents pool segs block buf' pool') (hpos : 1 ≤ segs.length)
    (hle : segs.length ≤ vesalMaxSglNum) (hrange : ∀ seg ∈ segs, InRange usrData front back seg)
    (hbytes : segBytes pool.mem segs =
      ((userBytes pool.mem usrData).drop front).take (totalSize usrData - front - back)) :
    SrcFilled usrData front back pool buf' pool' := by
  constructor
  · rw [h.count]
    exact hpos
  · rw [h.count]
    exact hle
  · rw [h.flatBytes_eq]
    exact hbytes
  · intro k hk hd
    rw [h.count] at hk
    rw [h.zeroCopy k hk hd, h.lens k hk]
    exact hrange _ (getElem_mem hk)
  · rw [h.count]
    refine ⟨block, h.allocated, pairwise_copied h, ?_⟩
    intro k hk hd
    obtain ⟨hstart, hlen, -, hdis⟩ := h.copied k hk hd
    rw [h.lens k hk]
    exact ⟨hstart, hlen, hdis⟩
  · intro e he a hlo hhi
    apply h.frame
    intro k hk hd
    obtain ⟨-, -, -, hdis⟩ := h.copied k hk hd
    have hke := hdis e he
    unfold Extent.Disjoint at hke
    omega

/-- What `FillSrc` promises: it never leaves its arrays, it refuses when nothing is left
between header and footer, a success describes exactly the bytes in between, and a
failure keeps nothing of the pool. -/
def FillSrcCorrect (dev : DmaUnit) (usrData : IOVector) (front back : Nat) (buf : QatBuf)
    (pool : PoolState) : Prop :=
  ∃ ok buf' pool', fillSrc dev usrData front back buf pool = .ok (ok, buf', pool') ∧
    (totalSize usrData ≤ front + back → ok = false) ∧
    (front + back < totalSize usrData → ok = true → SrcFilled usrData front back pool buf' pool') ∧
    (ok = false → pool'.allocated = pool.allocated)

lemma fillOneBuffer_numBuffers_irrel (dev : DmaUnit) (caller : List Extent) (addr len : Nat)
    (copy : Bool) (index n : Nat) (buf : QatBuf) (pool : PoolState) :
    fillOneBuffer dev caller addr len copy index { buf with numBuffers := n } pool =
      ((fillOneBuffer dev caller addr len copy index buf pool).1,
        { (fillOneBuffer dev caller addr len copy index buf pool).2.1 with numBuffers := n },
        (fillOneBuffer dev caller addr len copy index buf pool).2.2) := by
  unfold fillOneBuffer
  cases dev.svmEnabled || dev.lookUpAddrAcrossBound addr len == 1 with
  | true => rfl
  | false =>
    cases pool.allocate caller len with
    | mk answer pool' =>
      cases answer with
      | none => rfl
      | some block => cases copy <;> rfl

section

variable (dev : DmaUnit) (usrData : IOVector) (front back : Nat) (buf : QatBuf) (pool : PoolState)

def SrcOutcome (r : Bool × QatBuf × PoolState) : Prop :=
  (r.1 = true → SrcFilled usrData front back pool r.2.1 r.2.2) ∧
    (r.1 = false → r.2.2.allocated = pool.allocated)

lemma one_piece_outcome (seg : Extent) (hrange : InRange usrData front back seg)
    (hbytes : segBytes pool.mem [seg] =
      ((userBytes pool.mem usrData).drop front).take (totalSize usrData - front - back)) :
    SrcOutcome usrData front back pool
      (match fillOneBuffer dev usrData.extents seg.start seg.len true 0 buf pool with
      | (false, buf', pool') => (false, buf', pool')
      | (true, buf', pool') => (true, { buf' with numBuffers := 1 }, pool')) := by
  have hirrel := fillOneBuffer_numBuffers_irrel dev usrData.extents seg.start seg.len true 0 0 buf pool
  cases hres : fillOneBuffer dev usrData.extents seg.start seg.len true 0 buf pool with
  | mk ok s =>
    rw [hres] at hirrel
    rcases fillOneBuffer_filled (filled_nil usrData.extents pool (fun _ => ⟨0, 0⟩) buf) dev seg
      hrange.within with ⟨buf', pool', block', hfill, hfilled⟩ | ⟨hsvm, buf', pool', hfill, hfilled⟩
    · simp only at hfill
      rw [hirrel, Prod.mk.injEq, Prod.mk.injEq] at hfill
      obtain ⟨rfl, rfl, rfl⟩ := hfill
      constructor
      · intro _
        exact srcFilled_of_filled hfilled (by simp) (by simp [vesalMaxSglNum])
          (by simpa using hrange) hbytes
      · intro hok
        cases hok
    · simp only at hfill
      rw [hirrel, Prod.mk.injEq, Prod.mk.injEq] at hfill
      obtain ⟨rfl, rfl, rfl⟩ := hfill
      constructor
      · intro hok
        cases hok
      · intro _
        exact hfilled.allocated

lemma many_pieces_outcome (segs : List Extent) (hpos : 1 ≤ segs.length) (hle : segs.length ≤ 32)
    (hrange : ∀ seg ∈ segs, InRange usrData front back seg)
    (hbytes : segBytes pool.mem segs =
      ((userBytes pool.mem usrData).drop front).take (totalSize usrData - front - back)) :
    SrcOutcome usrData front back pool
      (fillPieces dev usrData.extents segs { buf with numBuffers := 0 } pool) := by
  rcases fillPieces_spec dev segs (fun seg h => (hrange seg h).within) [] (fun _ => ⟨0, 0⟩) _ pool
    (filled_nil usrData.extents pool _ buf) with
    ⟨buf', pool', block', hfill, hfilled⟩ | ⟨buf', pool', hfill, halloc⟩
  · rw [hfill]
    constructor
    · intro _
      exact srcFilled_of_filled hfilled hpos hle hrange hbytes
    · intro hok
      cases hok
  · rw [hfill]
    constructor
    · intro hok
      cases hok
    · intro _
      exact halloc

/-- `FillSrc` with something left between header and footer. -/
theorem fillSrc_outcome (h32 : usrData.length ≤ 32) (hlt : front + back < totalSize usrData) :
    ∃ r, fillSrc dev usrData front back buf pool = .ok r ∧ SrcOutcome usrData front back pool r := by
  have htotal := totalSize_le usrData h32
  obtain ⟨pre, b, rest, off, hsplit, hfront, hoff, hstart⟩ :=
    findSglStartPoint_spec usrData front (by omega)
  obtain ⟨pre', b', rest', len, hsplit', hlen, hback, hend⟩ :=
    findSglEndPoint_spec usrData back (by omega)
  have hblock : blockAt usrData pre.length = .ok b := by simp [blockAt, hsplit]
  have hcheck : ¬totalSize usrData % 2 ^ 64 ≤ (front + back) % 2 ^ 64 := by
    rw [Nat.mod_eq_of_lt (by omega), Nat.mod_eq_of_lt (by omega)]
    omega
  rw [hsplit] at hback hlt
  unfold fillSrc
  rw [if_neg hcheck, hstart]
  simp only [bind, Except.bind, hblock, hend]
  rcases points_ordered (hsplit.symm.trans hsplit') hfront hlen hback hlt with
    ⟨rfl, rfl, rfl⟩ | ⟨mid, rfl, rfl⟩
  · have hofflen : off ≤ len := by omega
    have hb := b.size_lt
    have hsub : (len + 2 ^ 64 - off) % 2 ^ 64 % 2 ^ 32 = len - off := by omega
    rw [if_pos rfl, hsub]
    have hout := one_piece_outcome dev usrData front back buf pool ⟨b.data + off, len - off⟩
      ⟨pre, b, rest, off, hsplit, rfl, by simp only; omega, by omega, by rw [hsplit]; simp only; omega⟩
      (by
        rw [segBytes_one pool.mem pre rest b hofflen hlen, hsplit, ← hfront]
        congr 1
        omega)
    refine ⟨_, ?_, hout⟩
    cases fillOneBuffer dev usrData.extents (b.data + off) (len - off) true 0 buf pool with
    | mk ok s => cases ok <;> rfl
  · have hindex : (pre ++ b :: mid).length = pre.length + (mid.length + 1) := by simp
    have hcount : pre.length + (mid.length + 1) + 1 - pre.length = mid.length + 1 + 1 := by omega
    have hnum : mid.length + 2 ≤ 32 := by
      rw [hsplit] at h32
      simp at h32
      omega
    rw [hindex, if_neg (by omega), hcount]
    refine ⟨_, fillSrcLoop_pieces dev usrData len pre mid rest' b b' off hsplit hlen hnum _ pool rfl,
      many_pieces_outcome dev usrData front back buf pool _ ?_ ?_ ?_ ?_⟩
    · simp [rangePieces]
    · simp [rangePieces]
      omega
    · intro seg hseg
      rw [hsplit]
      exact rangePieces_inRange hoff hlen hfront hback hseg
    · rw [rangePieces, segBytes_many pool.mem pre mid rest' b b' hoff hlen, hsplit, ← hfront]
      congr 1
      simp only [totalSize_append, totalSize_cons] at hback ⊢
      omega

lemma fillSrc_wrap (h32 : usrData.length ≤ 32) (hf : front < 2 ^ 64) (hb : back < 2 ^ 64)
    (hwrap : 2 ^ 64 ≤ front + back) (hsmall : front + back - 2 ^ 64 < totalSize usrData) :
    ∃ e, fillSrc dev usrData front back buf pool = .error e := by
  have htotal := totalSize_le usrData h32
  have hcheck : ¬totalSize usrData % 2 ^ 64 ≤ (front + back) % 2 ^ 64 := by
    rw [Nat.mod_eq_of_lt (by omega), Nat.mod_eq_sub_mod hwrap, Nat.mod_eq_of_lt (by omega)]
    omega
  unfold fillSrc
  rw [if_neg hcheck]
  by_cases hfront : totalSize usrData ≤ front
  · have hstart : findSglStartPoint usrData front =
        .error (.blockIndex (((0 : Nat) : Int) + usrData.length)) := by
      unfold findSglStartPoint
      rw [if_neg (by omega)]
      exact startPointLoop_fault usrData 0 front hfront
    rw [hstart]
    exact ⟨_, rfl⟩
  · obtain ⟨pre, b, rest, off, hsplit, -, -, hstart⟩ :=
      findSglStartPoint_spec usrData front (by omega)
    have hblock : blockAt usrData pre.length = .ok b := by simp [blockAt, hsplit]
    have hend : findSglEndPoint usrData back = .error (.blockIndex (-1)) := by
      unfold findSglEndPoint
      rw [if_neg (by omega)]
      exact endPointLoop_fault usrData.reverse back (by rw [totalSize_reverse]; omega)
    rw [hstart]
    simp only [bind, Except.bind, hblock, hend]
    exact ⟨_, rfl⟩

/-- `FillSrc` does what is asked of it unless the sum of the two offsets overflows
`size_t` to a value below the total size. -/
theorem fillSrc_correct_iff (h32 : usrData.length ≤ 32) (hf : front < 2 ^ 64) (hb : back < 2 ^ 64) :
    FillSrcCorrect dev usrData front back buf pool ↔
      ¬(2 ^ 64 ≤ front + back ∧ front + back - 2 ^ 64 < totalSize usrData) := by
  have htotal := totalSize_le usrData h32
  constructor
  · rintro ⟨ok, buf', pool', hfill, -⟩ ⟨hwrap, hsmall⟩
    obtain ⟨e, he⟩ := fillSrc_wrap dev usrData front back buf pool h32 hf hb hwrap hsmall
    rw [he] at hfill
    cases hfill
  · intro hok
    by_cases hlt : front + back < totalSize usrData
    · obtain ⟨⟨ok, buf', pool'⟩, hfill, htrue, hfalse⟩ :=
        fillSrc_outcome dev usrData front back buf pool h32 hlt
      exact ⟨ok, buf', pool', hfill, fun h => absurd hlt (by omega), fun _ => htrue, hfalse⟩
    · have hcheck : totalSize usrData % 2 ^ 64 ≤ (front + back) % 2 ^ 64 := by
        rw [Nat.mod_eq_of_lt (by omega)]
        by_cases hwrap : 2 ^ 64 ≤ front + back
        · rw [Nat.mod_eq_sub_mod hwrap, Nat.mod_eq_of_lt (by omega)]
          omega
        · rw [Nat.mod_eq_of_lt (by omega)]
          omega
      refine ⟨false, buf, pool, ?_, fun _ => rfl, fun h => absurd h hlt, fun _ => rfl⟩
      unfold fillSrc
      rw [if_pos hcheck]

end

def emptyBuf : QatBuf := ⟨0, fun _ => ⟨0, 0⟩, fun _ => false, 0, 0⟩

def noDma : DmaUnit := ⟨false, fun _ _ => 0⟩

def onePoolBlock : PoolState := ⟨fun _ => 0x61, [], [some ⟨0x9000, 1024⟩]⟩

def eightByteBlock : IOBlock := ⟨8, 0x1000, 0, none, by norm_num⟩

/-- A device that reaches the memory below 0x2000. -/
def lowDma : DmaUnit := ⟨false, fun addr _ => if addr < 0x2000 then 1 else 0⟩

def fourBlocks : IOVector :=
  [⟨3, 0x1100, 0, none, by norm_num⟩, { eightByteBlock with data := 0x2000 }, eightByteBlock,
    ⟨3, 0x2200, 0, none, by norm_num⟩]

/-- Header and footer end inside the second and the third block; the second one is copied. -/
theorem fillSrc_correct_four_blocks :
    FillSrcCorrect lowDma fourBlocks 5 4 emptyBuf onePoolBlock ∧
      ∃ buf' pool', fillSrc lowDma fourBlocks 5 4 emptyBuf onePoolBlock = .ok (true, buf', pool') ∧
        (List.range buf'.numBuffers).map (fun i => (buf'.pBuffers i, buf'.dmaAble i)) =
          [(⟨0x9000, 6⟩, false), (⟨0x1000, 7⟩, true)] :=
  ⟨(fillSrc_correct_iff lowDma fourBlocks 5 4 emptyBuf onePoolBlock (by decide) (by decide) (by decide)).mpr
    (by decide), _, _, rfl, rfl⟩

/-- `front_offset + back_offset` is zero in `size_t`, and the search for the start reads
the block after the last one. -/
theorem fillSrc_offsets_overflow :
    ¬FillSrcCorrect noDma [eightByteBlock] (2 ^ 64 - 1) 1 emptyBuf onePoolBlock := by
  rintro ⟨ok, buf', pool', hfill, -⟩
  have hfault : fillSrc noDma [eightByteBlock] (2 ^ 64 - 1) 1 emptyBuf onePoolBlock =
      .error (.blockIndex 1) := rfl
  rw [hfault] at hfill
  cases hfill

end Vesal.Proofs
