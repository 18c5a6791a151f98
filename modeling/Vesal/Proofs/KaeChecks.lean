import Vesal.KaeCodecChannel
import Vesal.Proofs.ChecksumCompute

/-! # Arguments and checksums of the KAE channel -/

namespace Vesal.Proofs

open Kae Library List

variable (args : KaeArgs)

def totalSrcLen : Nat := (args.srcLen.map UInt32.toNat).sum

def ArgsCheckSound : Prop :=
  argsCheck args = .kOk →
    args.src.length = args.srcLen.length ∧ args.src.length ≤ srcBufferCapacity ∧
      (∀ reqId c i, srcBufferCapacity ≤ i →
        (prepareCtx reqId args c).srcBufferList.buf i = c.srcBufferList.buf i) ∧
      totalSrcLen args ≤ 8 <<< 20

/-- What the checks see at once: an argument that is missing, vectors of different lengths,
more than 255 blocks, or a sum whose low 32 bits are a number over 8 MB. -/
def PlainlyInvalid : Prop :=
  args.src = [] ∨ args.srcLen = [] ∨ args.dst = 0 ∨ args.dstLen = 0 ∨ args.src.length ≠ args.srcLen.length ∨
    255 < args.src.length ∨ (8 <<< 20 < totalSrcLen args % 2 ^ 32 ∧ totalSrcLen args % 2 ^ 32 < 2 ^ 31)

lemma accumulateLen_eq (srcLen : List UInt32) :
    accumulateLen srcLen = ((srcLen.map UInt32.toNat).sum : Int).bmod (2 ^ 32) := by
  have hfold : ∀ a : Int, srcLen.foldl (fun acc len => (acc + len.toNat).bmod (2 ^ 32)) (a.bmod (2 ^ 32)) =
      (a + ((srcLen.map UInt32.toNat).sum : Nat)).bmod (2 ^ 32) := by
    induction srcLen with
    | nil => simp
    | cons len srcLen ih =>
      intro a
      rw [foldl_cons, Int.bmod_add_bmod, ih, map_cons, sum_cons, Nat.cast_add, add_assoc]
  have hzero := hfold 0
  rw [Int.zero_bmod, zero_add] at hzero
  exact hzero

lemma accumulateLen_le_iff :
    ¬(((8 <<< 20 : Nat) : Int) < accumulateLen args.srcLen) ↔
      totalSrcLen args % 2 ^ 32 ≤ 8 <<< 20 ∨ 2 ^ 31 ≤ totalSrcLen args % 2 ^ 32 := by
  have hlimit : ((8 <<< 20 : Nat) : Int) = 8388608 := rfl
  rw [accumulateLen_eq, Int.bmod_def, hlimit]
  unfold totalSrcLen
  generalize (args.srcLen.map UInt32.toNat).sum = total
  split
  · omega
  · omega

lemma argsCheck_eq_kOk_iff : argsCheck args = .kOk ↔ ¬PlainlyInvalid args := by
  have hsum := accumulateLen_le_iff args
  unfold argsCheck PlainlyInvalid
  constructor
  · intro h
    split at h
    · cases h
    split at h
    · cases h
    split at h
    · cases h
    · rename_i hmissing hsame hlimits
      rw [not_or, hsum] at hlimits
      push Not at hmissing hsame hlimits
      push Not
      refine ⟨hmissing.1, hmissing.2.1, hmissing.2.2.1, hmissing.2.2.2, hsame, hlimits.1, ?_⟩
      intro hlarge
      rcases hlimits.2 with hle | hge
      · exact absurd hle (by omega)
      · exact hge
  · intro h
    push Not at h
    obtain ⟨hsrc, hlen, hdst, hdstLen, hsame, hblocks, hlarge⟩ := h
    rw [if_neg (by push Not; exact ⟨hsrc, hlen, hdst, hdstLen⟩), if_neg (not_not.mpr hsame), if_neg]
    rw [not_or, hsum]
    refine ⟨by omega, ?_⟩
    by_cases hle : totalSrcLen args % 2 ^ 32 ≤ 8 <<< 20
    · exact Or.inl hle
    · exact Or.inr (hlarge (by omega))

lemma prepareCtx_buf_of_le (reqId : Nat) (args : KaeArgs) (c : ReqContext) {i : Nat} (h : args.src.length ≤ i) :
    (prepareCtx reqId args c).srcBufferList.buf i = c.srcBufferList.buf i := by
  unfold prepareCtx KaezipBufferList.fill
  dsimp only
  rw [if_neg (by omega)]

/-- The check is sound for what it refuses anyway and for what is within the limits. -/
theorem argsCheck_sound_iff (args : KaeArgs) :
    ArgsCheckSound args ↔
      PlainlyInvalid args ∨ (args.src.length ≤ srcBufferCapacity ∧ totalSrcLen args ≤ 8 <<< 20) := by
  unfold ArgsCheckSound
  rw [argsCheck_eq_kOk_iff]
  constructor
  · intro h
    by_cases hinvalid : PlainlyInvalid args
    · exact Or.inl hinvalid
    · obtain ⟨-, hblocks, -, hsum⟩ := h hinvalid
      exact Or.inr ⟨hblocks, hsum⟩
  · intro h hvalid
    obtain ⟨hblocks, hsum⟩ := h.resolve_left hvalid
    have hsame : args.src.length = args.srcLen.length := by
      by_contra hne
      exact hvalid (Or.inr (Or.inr (Or.inr (Or.inr (Or.inl hne)))))
    refine ⟨hsame, hblocks, ?_, hsum⟩
    intro reqId c i hi
    exact prepareCtx_buf_of_le reqId args c (hblocks.trans hi)

def evenArgs (blocks : Nat) (len : UInt32) : KaeArgs :=
  ⟨List.replicate blocks 0x1000, List.replicate blocks len, 0x2000, 64, 0⟩

/-- 33 blocks of a byte pass, and so does one block of 2 GB. -/
theorem argsCheck_passes_too_much :
    ¬ArgsCheckSound (evenArgs 33 1) ∧ ¬ArgsCheckSound (evenArgs 1 0x80000000) := by
  constructor
  · intro h
    have hpass : argsCheck (evenArgs 33 1) = .kOk := by
      rw [argsCheck_eq_kOk_iff]
      simp [PlainlyInvalid, totalSrcLen, evenArgs]
    exact absurd (h hpass).2.1 (by simp [evenArgs, srcBufferCapacity, vesalMaxSglNum])
  · intro h
    have hpass : argsCheck (evenArgs 1 0x80000000) = .kOk := by
      rw [argsCheck_eq_kOk_iff]
      simp [PlainlyInvalid, totalSrcLen, evenArgs]
    exact absurd (h hpass).2.2.2 (by simp [totalSrcLen, evenArgs])

def gatheredBytes (mem : Memory) (l : KaezipBufferList) : List UInt8 :=
  l.buffers.flatMap fun b => readBytes mem b.data b.bufLen

def totalBufLen (l : KaezipBufferList) : Nat := (l.buffers.map KaezipBuffer.bufLen).sum

/-- The temporary is written inside its `len` bytes, and the checksum is that of the first
`len` bytes. -/
def ChecksumGathered (mem : Memory) (l : KaezipBufferList) (len : Nat) : Prop :=
  (∀ w ∈ (swCalcCRC32 mem l len).2, ∀ i, w.start ≤ i → i < w.start + w.len → i < len) ∧
    (swCalcCRC32 mem l len).1 = crcUpdate kCrc32cInitialValue ((gatheredBytes mem l).take len)

structure Gathered (mem : Memory) (bs : List KaezipBuffer) (g : Gather) : Prop where
  offset : g.offset = (bs.map KaezipBuffer.bufLen).sum
  bytes : readBytes g.tmpBuffer 0 g.offset = bs.flatMap fun b => readBytes mem b.data b.bufLen
  inside : ∀ w ∈ g.writes, w.start + w.len ≤ g.offset
  covered : ∀ i < g.offset, ∃ w ∈ g.writes, w.start ≤ i ∧ i < w.start + w.len

variable {mem : Memory} {bs : List KaezipBuffer} {g : Gather}

lemma Gathered.copy (h : Gathered mem bs g) (b : KaezipBuffer) :
    Gathered mem (bs ++ [b]) (g.copy mem b) where
  offset := by
    rw [map_append, sum_append, ← h.offset]
    simp [Gather.copy]
  bytes := by
    have hwrite := readBytes_writeBytes_append g.tmpBuffer 0 g.offset (readBytes mem b.data b.bufLen)
    rw [zero_add, readBytes_length, h.bytes] at hwrite
    rw [flatMap_append, flatMap_singleton]
    exact hwrite
  inside := by
    intro w hw
    unfold Gather.copy at hw ⊢
    rw [mem_append, mem_singleton] at hw
    rcases hw with hw | rfl
    · exact (h.inside w hw).trans (Nat.le_add_right _ _)
    · exact le_refl _
  covered := by
    intro i hi
    by_cases hold : i < g.offset
    · obtain ⟨w, hw, hrange⟩ := h.covered i hold
      exact ⟨w, mem_append_left _ hw, hrange⟩
    · exact ⟨⟨g.offset, b.bufLen⟩, mem_append_right _ (mem_singleton_self _), by simpa using hold, hi⟩

lemma gathered_gatherBuffers (mem : Memory) (l : KaezipBufferList) : Gathered mem l.buffers (gatherBuffers mem l) := by
  unfold gatherBuffers
  induction l.buffers using List.reverseRecOn with
  | nil => exact ⟨rfl, rfl, by simp, by simp⟩
  | append_singleton bs b ih =>
    rw [foldl_append]
    exact ih.copy b

lemma Gathered.take (h : Gathered mem bs g) {len : Nat} (hlen : len ≤ g.offset) :
    readBytes g.tmpBuffer 0 len = (bs.flatMap fun b => readBytes mem b.data b.bufLen).take len := by
  rw [← h.bytes, take_readBytes _ _ _ _ hlen]

/-- Gathering stays inside the temporary for a single buffer, which is not copied, and when
all bytes were asked for. -/
theorem swCalcCRC32_gathered_iff (mem : Memory) (l : KaezipBufferList) (len : Nat) (hlen : len ≤ totalBufLen l) :
    ChecksumGathered mem l len ↔ l.bufNum = 1 ∨ len = totalBufLen l := by
  have hg := gathered_gatherBuffers mem l
  have hoffset : (gatherBuffers mem l).offset = totalBufLen l := hg.offset
  unfold ChecksumGathered swCalcCRC32
  by_cases hone : l.bufNum = 1
  · rw [if_pos hone]
    have hbuffers : l.buffers = [l.buf 0] := by
      unfold KaezipBufferList.buffers
      rw [hone]
      rfl
    have hbytes : gatheredBytes mem l = readBytes mem (l.buf 0).data (l.buf 0).bufLen := by
      unfold gatheredBytes
      rw [hbuffers, List.flatMap_singleton]
    have htotal : totalBufLen l = (l.buf 0).bufLen := by
      unfold totalBufLen
      rw [hbuffers]
      simp
    rw [htotal] at hlen
    rw [computeCRC32_eq, hbytes, take_readBytes _ _ _ _ hlen]
    simp [hone]
  · rw [if_neg hone]
    dsimp only
    rw [computeCRC32_eq, hg.take (hoffset ▸ hlen)]
    constructor
    · intro h
      refine Or.inr (le_antisymm hlen ?_)
      by_contra hshort
      obtain ⟨w, hw, hrange⟩ := hg.covered len (by omega)
      exact lt_irrefl _ (h.1 w hw len hrange.1 hrange.2)
    · intro h
      refine ⟨?_, rfl⟩
      intro w hw i _ hi
      have hinside := hg.inside w hw
      have hall := h.resolve_left hone
      omega

def twoBuffers : KaezipBufferList := ⟨fun i => ⟨i, 1⟩, 2⟩

theorem swCalcCRC32_gathers_two : ChecksumGathered (fun a => UInt8.ofNat a) twoBuffers 2 :=
  (swCalcCRC32_gathered_iff _ twoBuffers 2 (by decide)).mpr (Or.inr (by decide))

/-- The hardware consumed the first of two bytes: the second goes behind the temporary. -/
theorem swCalcCRC32_writes_behind : ¬ChecksumGathered (fun a => UInt8.ofNat a) twoBuffers 1 := by
  intro h
  have hw : (⟨1, 1⟩ : Extent) ∈ (swCalcCRC32 (fun a => UInt8.ofNat a) twoBuffers 1).2 := by
    simp [swCalcCRC32, twoBuffers, gatherBuffers, KaezipBufferList.buffers, List.range_succ, Gather.copy]
  exact absurd (h.1 _ hw 1 (le_refl _) (by decide)) (lt_irrefl _)

end Vesal.Proofs
