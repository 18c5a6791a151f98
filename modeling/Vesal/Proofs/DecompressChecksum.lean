import Vesal.Proofs.FrameAssembly

/-! # The input checksum of a decompression -/

namespace Vesal.Proofs

open Library List Function RequestCbContext

section Registers

variable {a b : BitVec 32} {s t : List UInt8} {n : Nat}

lemma xPow_ne_zero (ha : a ≠ 0) (n : Nat) : xPow n a ≠ 0 := by
  induction n with
  | zero => exact ha
  | succ n ih =>
    intro hzero
    have hstep : xPow (n + 1) a = mulX kCrc32cPolyReflect (xPow n a) :=
      iterate_succ_apply' _ n a
    rw [hstep] at hzero
    exact ih (mulX_eq_zero _ _ (by decide) hzero)

lemma xPow_inj (h : xPow n a = xPow n b) : a = b := by
  by_contra hne
  refine xPow_ne_zero (a := a ^^^ b) ?_ n ?_
  · intro hzero
    exact hne (BitVec.xor_eq_zero_iff.mp hzero)
  · rw [xPow_xor, h]
    exact BitVec.xor_self

lemma crcUpdate_inj (h : crcUpdate a s = crcUpdate b s) : a = b := by
  rw [crcUpdate_eq a, crcUpdate_eq b, BitVec.xor_left_inj] at h
  exact xPow_inj h

lemma crcUpdate_append_ne (h : crcUpdate a s ≠ crcUpdate b t) (u : List UInt8) :
    crcUpdate a (s ++ u) ≠ crcUpdate b (t ++ u) := by
  rw [crcUpdate_append, crcUpdate_append]
  intro heq
  exact h (crcUpdate_inj heq)

lemma crc32b_zero_ne_one (a : BitVec 32) : crc32b a 0 ≠ crc32b a 1 := by
  intro heq
  have hin : a ^^^ (0 : UInt8).toBitVec.setWidth 32 = a ^^^ (1 : UInt8).toBitVec.setWidth 32 :=
    xPow_inj (n := 8) heq
  rw [BitVec.xor_right_inj] at hin
  revert hin
  decide

end Registers

section Overlays

def overlay (pieces : List (List UInt8)) (buf : List UInt8) : List UInt8 :=
  pieces.foldl (fun buf piece => piece ++ buf.drop piece.length) buf

def zeros (n : Nat) : List UInt8 := List.replicate n 0

variable {pieces : List (List UInt8)} {piece buf : List UInt8} {k m n : Nat}

lemma overlay_cons (piece buf : List UInt8) (pieces : List (List UInt8)) :
    overlay (piece :: pieces) buf = overlay pieces (piece ++ buf.drop piece.length) := rfl

lemma overlay_append (pieces pieces' : List (List UInt8)) (buf : List UInt8) :
    overlay (pieces ++ pieces') buf = overlay pieces' (overlay pieces buf) := foldl_append

lemma length_zeros (n : Nat) : (zeros n).length = n := length_replicate

lemma zeros_add (m n : Nat) : zeros (m + n) = zeros m ++ zeros n := replicate_add m n 0

lemma drop_zeros (m n : Nat) : (zeros n).drop m = zeros (n - m) := drop_replicate

lemma take_zeros (h : m ≤ n) : (zeros n).take m = zeros m := by
  unfold zeros
  rw [take_replicate, Nat.min_eq_left h]

lemma eq_zeros_of_flatten (h : pieces.flatten = zeros n) (hpiece : piece ∈ pieces) : piece = zeros piece.length := by
  refine eq_replicate_of_mem fun x hx => ?_
  have hmem : x ∈ zeros n := h ▸ mem_flatten_of_mem hpiece hx
  exact eq_of_mem_replicate hmem

lemma overlay_zeros (hzero : ∀ piece ∈ pieces, piece = zeros piece.length) (hle : ∀ piece ∈ pieces, piece.length ≤ m) :
    ∃ k ≤ m, (∀ buf, overlay pieces buf = zeros k ++ buf.drop k) ∧ ∀ piece ∈ pieces, piece.length ≤ k := by
  induction pieces with
  | nil => exact ⟨0, Nat.zero_le m, fun _ => rfl, fun _ hpiece => by cases hpiece⟩
  | cons piece pieces ih =>
    have hpiece := hzero piece mem_cons_self
    obtain ⟨k, hk, heq, hmax⟩ := ih (fun p hp => hzero p (mem_cons_of_mem piece hp))
      fun p hp => hle p (mem_cons_of_mem piece hp)
    rcases Nat.le_total piece.length k with hshort | hlong
    · refine ⟨k, hk, ?_, ?_⟩
      · intro buf
        rw [overlay_cons, heq, drop_append, drop_eq_nil_of_le hshort, nil_append, drop_drop,
          Nat.add_sub_cancel' hshort]
      · exact forall_mem_cons.mpr ⟨hshort, hmax⟩
    · refine ⟨piece.length, hle piece mem_cons_self, ?_, ?_⟩
      · intro buf
        have hdrop : piece.drop k = zeros (piece.length - k) := by
          conv_lhs => rw [hpiece]
          exact drop_zeros k piece.length
        rw [overlay_cons, heq, drop_append_of_le_length hlong, ← append_assoc, hdrop, ← zeros_add,
          Nat.add_sub_cancel' hlong]
      · exact forall_mem_cons.mpr ⟨le_rfl, fun p hp => (hmax p hp).trans hlong⟩

lemma length_lt_of_two (hne : ∀ piece ∈ pieces, piece ≠ []) (htwo : 2 ≤ pieces.length) (hpiece : piece ∈ pieces) :
    piece.length < pieces.flatten.length := by
  obtain ⟨before, after, rfl⟩ := append_of_mem hpiece
  have hothers := length_le_sum_of_one_le ((before ++ after).map List.length) ?_
  · rw [length_map, length_append, ← length_flatten, flatten_append, length_append] at hothers
    rw [length_append, length_cons] at htwo
    rw [flatten_append, flatten_cons, length_append, length_append]
    omega
  · intro n hn
    obtain ⟨other, hother, rfl⟩ := mem_map.mp hn
    refine length_pos_iff.mpr (hne other ?_)
    rcases mem_append.mp hother with h | h
    · exact mem_append_left _ h
    · exact mem_append_right _ (mem_cons_of_mem piece h)

end Overlays

section Copies

def InOneBlock : List Nat → Nat → Nat → Prop
  | [], _, _ => False
  | size :: sizes, offset, len =>
    if offset < size then offset + len ≤ size else InOneBlock sizes (offset - size) len

instance decidableInOneBlock : (sizes : List Nat) → (offset len : Nat) → Decidable (InOneBlock sizes offset len)
  | [], _, _ => isFalse id
  | size :: sizes, offset, len =>
    if h : offset < size then decidable_of_iff (offset + len ≤ size) (by simp [InOneBlock, h])
    else
      have := decidableInOneBlock sizes (offset - size) len
      decidable_of_iff (InOneBlock sizes (offset - size) len) (by simp [InOneBlock, h])

def srcBytes (mem : Memory) (srcs : List (Nat × Nat)) : List UInt8 :=
  srcs.flatMap fun s => readBytes mem s.1 s.2

def srcSizes (srcs : List (Nat × Nat)) : List Nat := srcs.map Prod.snd

variable {mem : Memory} {srcs : List (Nat × Nat)} {left toGo len offset : Nat} {buf : List UInt8}

lemma length_srcBytes (mem : Memory) (srcs : List (Nat × Nat)) :
    (srcBytes mem srcs).length = (srcSizes srcs).sum := by
  induction srcs with
  | nil => rfl
  | cons s srcs ih =>
    rw [srcBytes, flatMap_cons, length_append, readBytes_length, ← srcBytes, ih]
    rfl

def cut : List Nat → List UInt8 → List (List UInt8)
  | _, [] => []
  | [], _ => []
  | size :: sizes, bytes => bytes.take size :: cut sizes (bytes.drop size)

variable {sizes : List Nat} {bytes : List UInt8} {size : Nat}

@[simp] lemma cut_nil (sizes : List Nat) : cut sizes [] = [] := by
  cases sizes <;> rfl

lemma cut_cons (h : bytes ≠ []) : cut (size :: sizes) bytes = bytes.take size :: cut sizes (bytes.drop size) := by
  cases bytes with
  | nil => exact absurd rfl h
  | cons b bytes => rfl

structure CopiedFrom (bytes : List UInt8) (room : Nat) (pieces : List (List UInt8)) : Prop where
  flatten : pieces.flatten = bytes
  nonempty : ∀ piece ∈ pieces, piece ≠ []
  one : pieces.length ≤ 1 ↔ bytes.length ≤ room

lemma copiedFrom_nil (room : Nat) : CopiedFrom [] room [] := by
  refine ⟨rfl, ?_, by simp⟩
  intro piece hpiece
  cases hpiece

lemma copiedFrom_cut (hpos : ∀ size ∈ sizes, 0 < size) (hfit : bytes.length ≤ sizes.sum) :
    CopiedFrom bytes (sizes.headD 0) (cut sizes bytes) := by
  induction sizes generalizing bytes with
  | nil =>
    obtain rfl : bytes = [] := length_eq_zero_iff.mp (Nat.le_zero.mp hfit)
    exact copiedFrom_nil 0
  | cons size sizes ih =>
    by_cases hnil : bytes = []
    · subst hnil
      exact copiedFrom_nil size
    · have hsize := hpos size mem_cons_self
      have hbytes := length_pos_iff.mpr hnil
      rw [sum_cons] at hfit
      have hfit' : (bytes.drop size).length ≤ sizes.sum := by
        rw [length_drop]
        omega
      have hrest := ih (fun s hs => hpos s (mem_cons_of_mem size hs)) hfit'
      rw [cut_cons hnil, headD_cons]
      refine ⟨?_, ?_, ?_⟩
      · rw [flatten_cons, hrest.flatten, take_append_drop]
      · intro piece hpiece hempty
        rcases mem_cons.mp hpiece with h | h
        · have hlength := congrArg List.length (h.symm.trans hempty)
          rw [length_take, length_nil] at hlength
          omega
        · exact hrest.nonempty piece h hempty
      · rw [length_cons]
        have hflatten := congrArg List.length hrest.flatten
        rw [length_drop] at hflatten
        constructor
        · intro hone
          have hnone : cut sizes (bytes.drop size) = [] := length_eq_zero_iff.mp (by omega)
          rw [hnone] at hflatten
          simp only [flatten_nil, length_nil] at hflatten
          omega
        · intro hle
          rw [drop_eq_nil_of_le hle, cut_nil]
          rfl

lemma copySrcLoop_spec (hfit : toGo ≤ (srcSizes srcs).sum) (buf : List UInt8) :
    copySrcLoop mem srcs 0 toGo buf = .ok (overlay (cut (srcSizes srcs) ((srcBytes mem srcs).take toGo)) buf) := by
  induction srcs generalizing toGo buf with
  | nil =>
    obtain rfl : toGo = 0 := Nat.le_zero.mp hfit
    rfl
  | cons s srcs ih =>
    obtain ⟨data, size⟩ := s
    have htotal : (srcSizes ((data, size) :: srcs)).sum = size + (srcSizes srcs).sum := rfl
    unfold copySrcLoop
    by_cases hzero : toGo = 0
    · subst hzero
      rfl
    · have hlength : ((srcBytes mem ((data, size) :: srcs)).take toGo).length = toGo := by
        rw [length_take, length_srcBytes, Nat.min_eq_left hfit]
      have hne : (srcBytes mem ((data, size) :: srcs)).take toGo ≠ [] := by
        rw [← length_pos_iff, hlength]
        exact Nat.pos_of_ne_zero hzero
      have hpiece : ((srcBytes mem ((data, size) :: srcs)).take toGo).take size = readBytes mem data (min toGo size) := by
        rw [take_take, srcBytes, flatMap_cons, take_append_of_le_length
          (by rw [readBytes_length]; exact Nat.min_le_left _ _), take_readBytes _ _ _ _ (Nat.min_le_left _ _),
          Nat.min_comm]
      have hdrop : ((srcBytes mem ((data, size) :: srcs)).take toGo).drop size =
          (srcBytes mem srcs).take (toGo - min toGo size) := by
        rw [drop_take, srcBytes, flatMap_cons, drop_left' (readBytes_length mem data size),
          show toGo - size = toGo - min toGo size by omega]
        rfl
      rw [if_neg hzero, srcSizes, map_cons, cut_cons hne, hpiece, hdrop, overlay_cons, readBytes_length]
      exact ih (by rw [htotal] at hfit; omega) _

lemma copySrcLoop_inside (data size left toGo : Nat) (buf : List UInt8) :
    copySrcLoop mem ((data, size) :: srcs) left toGo buf =
      copySrcLoop mem ((data + left, size - left) :: srcs) 0 toGo buf := rfl

lemma copySrcSkip_spec (hpos : ∀ s ∈ srcs, 0 < s.2) (hfit : offset < (srcSizes srcs).sum) :
    ∃ data size rest left, copySrcSkip srcs offset = .ok ((data, size) :: rest, left) ∧ left < size ∧
      (∀ s ∈ (data + left, size - left) :: rest, 0 < s.2) ∧
      offset + (srcSizes ((data + left, size - left) :: rest)).sum = (srcSizes srcs).sum ∧
      srcBytes mem ((data + left, size - left) :: rest) = (srcBytes mem srcs).drop offset ∧
      ∀ len, InOneBlock (srcSizes srcs) offset len ↔ len ≤ size - left := by
  induction srcs generalizing offset with
  | nil => exact absurd hfit (Nat.not_lt_zero _)
  | cons s srcs ih =>
    obtain ⟨data, size⟩ := s
    have htotal : (srcSizes ((data, size) :: srcs)).sum = size + (srcSizes srcs).sum := rfl
    unfold copySrcSkip
    by_cases hle : size ≤ offset
    · rw [if_pos hle]
      rw [htotal] at hfit
      have hfit' : offset - size < (srcSizes srcs).sum := by omega
      obtain ⟨data', size', rest, left, heq, hlt, hpos', hsum, hbytes, hone⟩ := ih
        (fun s hs => hpos s (mem_cons_of_mem _ hs)) hfit'
      refine ⟨data', size', rest, left, heq, hlt, hpos', ?_, ?_, ?_⟩
      · rw [htotal, ← hsum]
        omega
      · have hskip : (readBytes mem data size).drop offset = [] := by
          apply drop_eq_nil_of_le
          rw [readBytes_length]
          exact hle
        have hcons : srcBytes mem ((data, size) :: srcs) = readBytes mem data size ++ srcBytes mem srcs := rfl
        rw [hbytes, hcons, drop_append, hskip, readBytes_length, nil_append]
      · intro len
        rw [← hone len]
        have hnot : ¬ offset < size := by omega
        simp [InOneBlock, srcSizes, hnot]
    · have hlt : offset < size := by omega
      rw [if_neg hle]
      refine ⟨data, size, srcs, offset, rfl, hlt, ?_, ?_, ?_, ?_⟩
      · intro s hs
        rcases mem_cons.mp hs with rfl | hs
        · exact Nat.sub_pos_of_lt hlt
        · exact hpos s (mem_cons_of_mem _ hs)
      · have htotal' : (srcSizes ((data + offset, size - offset) :: srcs)).sum = size - offset + (srcSizes srcs).sum := rfl
        rw [htotal, htotal']
        omega
      · rw [srcBytes, srcBytes, flatMap_cons, flatMap_cons,
          drop_append_of_le_length (by rw [readBytes_length]; exact hlt.le), drop_readBytes _ _ _ _ hlt.le]
      · intro len
        simp only [InOneBlock, srcSizes, map_cons, hlt, if_true]
        omega

variable {cb : RequestCbContext} {bytes : List UInt8} {room : Nat}

lemma copySrcData_spec (mem : Memory) (len offset : Nat) (hpos : ∀ s ∈ cb.srcData, 0 < s.2)
    (hfit : offset + len ≤ (srcSizes cb.srcData).sum) (hoffset : offset < (srcSizes cb.srcData).sum)
    (buf : List UInt8) :
    ∃ pieces room, cb.copySrcData mem buf len offset = .ok (overlay pieces buf) ∧
      CopiedFrom (((srcBytes mem cb.srcData).drop offset).take len) room pieces ∧
      (InOneBlock (srcSizes cb.srcData) offset len ↔ len ≤ room) := by
  obtain ⟨data, size, rest, left, heq, hlt, hpos', hsum, hbytes, hone⟩ := copySrcSkip_spec hpos hoffset
  have hfit' : len ≤ (srcSizes ((data + left, size - left) :: rest)).sum := by omega
  refine ⟨cut (srcSizes ((data + left, size - left) :: rest))
    ((srcBytes mem ((data + left, size - left) :: rest)).take len), size - left, ?_, ?_, hone len⟩
  · rw [copySrcData, heq]
    exact (copySrcLoop_inside data size left len buf).trans (copySrcLoop_spec hfit' buf)
  · rw [← hbytes]
    have hhead : size - left = (srcSizes ((data + left, size - left) :: rest)).headD 0 := rfl
    rw [hhead]
    refine copiedFrom_cut ?_ ?_
    · intro size' hsize'
      obtain ⟨s, hs, rfl⟩ := mem_map.mp hsize'
      exact hpos' s hs
    · rw [length_take]
      exact (Nat.min_le_left _ _).trans hfit'

lemma copySrcData_start (mem : Memory) (len : Nat) (hpos : ∀ s ∈ cb.srcData, 0 < s.2)
    (hfit : len ≤ (srcSizes cb.srcData).sum) (hcons : cb.srcData ≠ []) (buf : List UInt8) :
    cb.copySrcData mem buf len 0 =
      .ok (overlay (cut (srcSizes cb.srcData) ((srcBytes mem cb.srcData).take len)) buf) := by
  rw [copySrcData]
  cases hsrc : cb.srcData with
  | nil => exact absurd hsrc hcons
  | cons s rest =>
    have hsize := hpos s (hsrc ▸ mem_cons_self)
    rw [hsrc] at hfit
    rw [copySrcSkip, if_neg (by omega)]
    exact copySrcLoop_spec hfit buf

variable {pieces : List (List UInt8)}

lemma CopiedFrom.overlay_eq (h : CopiedFrom bytes room pieces) (hone : bytes.length ≤ room)
    (hbuf : buf.length = bytes.length) :
    overlay pieces buf = bytes := by
  have hlength := h.one.mpr hone
  have hflatten := h.flatten
  match pieces, hlength with
  | [], _ =>
    have hnil : bytes = [] := hflatten.symm
    rw [hnil] at hbuf ⊢
    exact length_eq_zero_iff.mp hbuf
  | [piece], _ =>
    rw [flatten_cons, flatten_nil, append_nil] at hflatten
    rw [overlay_cons, hflatten, ← hbuf, drop_length, append_nil]
    rfl

lemma length_overlay (h : ∀ piece ∈ pieces, piece.length ≤ buf.length) :
    (overlay pieces buf).length = buf.length := by
  induction pieces generalizing buf with
  | nil => rfl
  | cons piece pieces ih =>
    have hpiece := h piece mem_cons_self
    have hlength : (piece ++ buf.drop piece.length).length = buf.length := by
      rw [length_append, length_drop]
      omega
    rw [overlay_cons, ih, hlength]
    intro p hp
    rw [hlength]
    exact h p (mem_cons_of_mem piece hp)

lemma CopiedFrom.length_le (h : CopiedFrom bytes room pieces) :
    ∀ piece ∈ pieces, piece.length ≤ bytes.length := by
  intro piece hpiece
  rw [← h.flatten, length_flatten]
  exact single_le_sum (fun _ _ => Nat.zero_le _) _ (mem_map_of_mem hpiece)

end Copies

structure DecompCompletion where
  dev : DmaUnit
  opts : CodecChannelOption
  args : CodecRequestArgs
  /-- The context before the request took it. -/
  cb : RequestCbContext
  reqId : Nat
  srcBuf : QatBuf
  dstBuf : QatBuf
  results : CpaDcRqResults
  scratch : ZlibScratch
  mem : Memory

namespace DecompCompletion

def memory (d : DecompCompletion) : Memory := decompCopyBackIfNecessary d.dev d.dstBuf d.results.produced d.mem

def source (d : DecompCompletion) : List UInt8 := userBytes d.memory d.args.src

def context (d : DecompCompletion) : RequestCbContext :=
  d.cb.setRequest d.opts d.reqId d.args d.srcBuf d.dstBuf

end DecompCompletion

/-- The decompressions of one kind: an algorithm, who computes the CRC, the sizes of the blocks of
the source, and how much payload the hardware consumed. -/
structure Completes (algo : CodecAlgorithm) (offloaded : Bool) (sizes : List Nat) (consumed : Nat)
    (d : DecompCompletion) : Prop where
  direction : d.args.direction = .kDecomp
  algorithm : d.args.codecAlgorithm = algo
  sizes_eq : d.args.src.map IOBlock.size = sizes
  checksumType : d.opts.checksumType = .kCrc32
  compressedChecksum : d.opts.compressedChecksum = true
  offloaded_eq : d.cb.integrityCrcCheck = offloaded
  consumed_eq : d.results.consumed = consumed
  iCrc : d.results.iCrc = (crcUpdate kCrc32cInitialValue
    ((d.source.drop (headerFooterSize algo).1).take consumed)).setWidth 64
  lz4 : algo = .kLz4 → d.source.take kLz4FrameHeaderSize = lz4FrameHeaderGen ∧
    (d.source.drop (kLz4FrameHeaderSize + consumed)).take kLz4FrameFooterSize = lz4FrameFooterGen
  scratchHeader : d.scratch.header.length = kZlibHeaderSize
  scratchFooter : d.scratch.footer.length = kZlibFooterSize

def inputLength (algo : CodecAlgorithm) (consumed : Nat) : Nat :=
  (headerFooterSize algo).1 + consumed + (headerFooterSize algo).2

def DeliversInChecksum (algo : CodecAlgorithm) (offloaded : Bool) (sizes : List Nat) (consumed : Nat) : Prop :=
  ∀ d, Completes algo offloaded sizes consumed d →
    ∃ res, callbackSuccess d.dev d.opts (frameMetaOf d.args) d.context d.results d.scratch d.mem =
        .ok (d.memory, res) ∧
      res.inChecksum =
        (crcUpdate kCrc32cInitialValue (d.source.take (inputLength algo consumed))).setWidth 64

def GathersOneBlock (algo : CodecAlgorithm) (offloaded : Bool) (sizes : List Nat) (consumed : Nat) : Prop :=
  if offloaded then
    algo = .kZlib → InOneBlock sizes 0 kZlibHeaderSize ∧
      InOneBlock sizes (kZlibHeaderSize + consumed) kZlibFooterSize
  else InOneBlock sizes 0 (inputLength algo consumed)

section Completion

variable {algo : CodecAlgorithm} {offloaded : Bool} {sizes : List Nat} {consumed : Nat} {d : DecompCompletion}

/-- What the theorem is about: splits into `1..32` blocks that are not empty, and the three algorithms. -/
structure DecompInput (algo : CodecAlgorithm) (sizes : List Nat) (consumed : Nat) : Prop where
  algorithm : algo = .kLz4 ∨ algo = .kDeflate ∨ algo = .kZlib
  blocks : 1 ≤ sizes.length ∧ sizes.length ≤ vesalMaxSglNum
  nonempty : ∀ size ∈ sizes, 0 < size ∧ size < 2 ^ 32
  fits : inputLength algo consumed ≤ sizes.sum

lemma DecompInput.consumed_lt (h : DecompInput algo sizes consumed) : consumed < 2 ^ 64 := by
  have hbound : ∀ l : List Nat, (∀ size ∈ l, size < 2 ^ 32) → l.sum ≤ l.length * 2 ^ 32 := by
    intro l hl
    exact sum_le_card_nsmul l (2 ^ 32) fun size hsize => (hl size hsize).le
  have hsum := hbound sizes fun size hsize => (h.nonempty size hsize).2
  have hmax : sizes.length ≤ 32 := h.blocks.2
  have hfits := h.fits
  unfold inputLength at hfits
  omega

section

variable (h : Completes algo offloaded sizes consumed d)
include h

lemma Completes.srcData :
    d.context.srcData = d.args.src.map fun b => (b.data, b.size) := by
  unfold DecompCompletion.context setRequest
  rw [h.checksumType]
  rfl

lemma Completes.srcSizes_eq : srcSizes d.context.srcData = sizes := by
  rw [h.srcData, ← h.sizes_eq, srcSizes, map_map]
  rfl

lemma Completes.srcBytes_eq :
    srcBytes d.memory d.context.srcData = d.source := by
  rw [h.srcData, srcBytes, flatMap_map]
  rfl

lemma Completes.length_source : d.source.length = sizes.sum := by
  rw [← h.srcBytes_eq, length_srcBytes, h.srcSizes_eq]

lemma Completes.srcData_pos (hin : DecompInput algo sizes consumed) :
    ∀ s ∈ d.context.srcData, 0 < s.2 := by
  intro s hs
  refine (hin.nonempty s.2 ?_).1
  rw [← h.srcSizes_eq]
  exact mem_map_of_mem hs

lemma Completes.integrityCrcCheck :
    d.context.integrityCrcCheck = offloaded := by
  rw [DecompCompletion.context, setRequest_integrityCrcCheck, h.offloaded_eq]

end

def inCrcOf (d : DecompCompletion) (algo : CodecAlgorithm) (consumed : Nat) : Except CallbackFault (BitVec 32) :=
  compressedCRC32 d.opts d.context d.results d.scratch d.memory
    (consumed + ((headerFooterSize algo).1 + (headerFooterSize algo).2)) d.results.produced .kDecomp algo

lemma Completes.delivers_iff (h : Completes algo offloaded sizes consumed d) (crc : BitVec 32) :
    (∃ res, callbackSuccess d.dev d.opts (frameMetaOf d.args) d.context d.results d.scratch d.mem =
      .ok (d.memory, res) ∧ res.inChecksum = crc.setWidth 64) ↔ inCrcOf d algo consumed = .ok crc := by
  have hout : ∃ outCrc, uncompressedCRC32 d.context d.results d.memory
      (consumed + ((headerFooterSize algo).1 + (headerFooterSize algo).2)) d.results.produced .kDecomp = .ok outCrc := by
    have hne : CodecDirection.kDecomp ≠ .kComp := by decide
    simp only [uncompressedCRC32, if_neg hne]
    split
    · exact ⟨_, rfl⟩
    · exact ⟨_, rfl⟩
  obtain ⟨outCrc, hout⟩ := hout
  have hdst : d.context.dstQat = some d.dstBuf := setRequest_dstQat _ _ _ _ _ _
  have hcallback : callbackSuccess d.dev d.opts (frameMetaOf d.args) d.context d.results d.scratch d.mem = do
      let inCrc ← inCrcOf d algo consumed
      return (d.memory, successResult d.args.ctx
        (consumed + ((headerFooterSize algo).1 + (headerFooterSize algo).2)) d.results.produced
        (inCrc.setWidth 64) (outCrc.setWidth 64)) := by
    unfold callbackSuccess frameMetaOf
    rw [hdst]
    have hne : CodecDirection.kDecomp ≠ .kComp := by decide
    simp only [h.direction, h.algorithm, h.checksumType, getQatProcessedDataSize, h.consumed_eq, if_neg hne, if_true]
    have hmem : decompCopyBackIfNecessary d.dev d.dstBuf d.results.produced d.mem = d.memory := rfl
    rw [hmem, hout]
    rfl
  rw [hcallback]
  cases hin : inCrcOf d algo consumed with
  | error fault =>
    constructor
    · rintro ⟨res, hres, _⟩
      cases hres
    · intro hcrc
      cases hcrc
  | ok inCrc =>
    constructor
    · rintro ⟨res, hres, hcrc⟩
      cases hres
      have hwidth := congrArg (BitVec.setWidth 32) hcrc
      dsimp only [successResult] at hwidth
      rw [setWidth_64_32, setWidth_64_32] at hwidth
      rw [hwidth]
    · intro hcrc
      cases hcrc
      exact ⟨_, rfl, rfl⟩

lemma Completes.offloadedCrc (h : Completes algo offloaded sizes consumed d) :
    getOffloadedCRC32 d.results .kInput =
      crcUpdate kCrc32cInitialValue ((d.source.drop (headerFooterSize algo).1).take consumed) := by
  rw [getOffloadedCRC32, h.iCrc, setWidth_64_32]

lemma Completes.inCrcOf_offloaded (h : Completes algo true sizes consumed d) :
    inCrcOf d algo consumed =
      match algo with
      | .kLz4 => combineFrame preCalcLz4HeaderCrc
          (crcUpdate kCrc32cInitialValue ((d.source.drop kLz4FrameHeaderSize).take consumed)) preCalcLz4FooterCrc
          consumed kLz4FrameFooterSize
      | .kDeflate => .ok (crcUpdate kCrc32cInitialValue (d.source.take consumed))
      | .kZlib => do
        let header ← d.context.copySrcData d.memory d.scratch.header kZlibHeaderSize 0
        let footer ← d.context.copySrcData d.memory d.scratch.footer kZlibFooterSize (kZlibHeaderSize + consumed)
        combineFrame (computeCRC32 kCrc32cInitialValue header)
          (crcUpdate kCrc32cInitialValue ((d.source.drop kZlibHeaderSize).take consumed))
          (computeCRC32 kCrc32cInitialValue footer) consumed kZlibFooterSize
      | _ => .ok 0 := by
  have hne : CodecDirection.kDecomp ≠ .kComp := by decide
  have hcrc := h.offloadedCrc
  simp only [inCrcOf, compressedCRC32, h.compressedChecksum, h.integrityCrcCheck, Bool.not_true, Bool.false_eq_true,
    if_false, if_neg hne, hcrc, getQatProcessedDataSize, h.consumed_eq]
  cases algo <;> rfl

lemma take_inputLength (source : List UInt8) (algo : CodecAlgorithm) (consumed : Nat) :
    source.take (inputLength algo consumed) =
      source.take (headerFooterSize algo).1 ++ (source.drop (headerFooterSize algo).1).take consumed ++
        (source.drop ((headerFooterSize algo).1 + consumed)).take (headerFooterSize algo).2 := by
  rw [inputLength, take_add, take_add]

lemma Completes.length_payload (h : Completes algo offloaded sizes consumed d) (hin : DecompInput algo sizes consumed) :
    ((d.source.drop (headerFooterSize algo).1).take consumed).length = consumed := by
  have hfits := hin.fits
  unfold inputLength at hfits
  rw [length_take, length_drop, h.length_source]
  omega

lemma Completes.inCrcOf_zlib (h : Completes .kZlib true sizes consumed d) (hin : DecompInput .kZlib sizes consumed) :
    ∃ header headerRoom footer footerRoom,
      inCrcOf d .kZlib consumed = .ok (crcUpdate kCrc32cInitialValue (overlay header d.scratch.header ++
        (d.source.drop kZlibHeaderSize).take consumed ++ overlay footer d.scratch.footer)) ∧
      CopiedFrom (d.source.take kZlibHeaderSize) headerRoom header ∧
      (InOneBlock sizes 0 kZlibHeaderSize ↔ kZlibHeaderSize ≤ headerRoom) ∧
      CopiedFrom ((d.source.drop (kZlibHeaderSize + consumed)).take kZlibFooterSize) footerRoom footer ∧
      (InOneBlock sizes (kZlibHeaderSize + consumed) kZlibFooterSize ↔ kZlibFooterSize ≤ footerRoom) := by
  have hfits : kZlibHeaderSize + consumed + kZlibFooterSize ≤ sizes.sum := hin.fits
  have hfour : 0 < kZlibFooterSize := by decide
  have hsizes := h.srcSizes_eq
  obtain ⟨header, headerRoom, hcopy, hheader, hheaderOne⟩ := copySrcData_spec d.memory kZlibHeaderSize 0
    (h.srcData_pos hin) (by rw [hsizes]; omega) (by rw [hsizes]; omega)
    d.scratch.header
  obtain ⟨footer, footerRoom, hcopy', hfooter, hfooterOne⟩ := copySrcData_spec d.memory kZlibFooterSize
    (kZlibHeaderSize + consumed) (h.srcData_pos hin) (by rw [hsizes]; omega)
    (by rw [hsizes]; omega) d.scratch.footer
  rw [h.srcBytes_eq] at hheader hfooter
  rw [hsizes] at hheaderOne hfooterOne
  refine ⟨header, headerRoom, footer, footerRoom, ?_, hheader, hheaderOne, hfooter, hfooterOne⟩
  have hlength : (overlay footer d.scratch.footer).length = kZlibFooterSize := by
    rw [length_overlay, h.scratchFooter]
    intro piece hpiece
    rw [h.scratchFooter]
    refine (hfooter.length_le piece hpiece).trans ?_
    rw [length_take]
    exact Nat.min_le_left _ _
  have hpayload : ((d.source.drop kZlibHeaderSize).take consumed).length = consumed := h.length_payload hin
  have hcombine := combineFrame_eq (overlay header d.scratch.header) ((d.source.drop kZlibHeaderSize).take consumed)
    (overlay footer d.scratch.footer) (by rw [hpayload]; exact hin.consumed_lt) (by rw [hlength]; decide)
  rw [hlength, hpayload] at hcombine
  rw [h.inCrcOf_offloaded]
  simp only [hcopy, hcopy', bind, Except.bind]
  exact hcombine

lemma Completes.inCrcOf_lz4 (h : Completes .kLz4 true sizes consumed d) (hin : DecompInput .kLz4 sizes consumed) :
    inCrcOf d .kLz4 consumed =
      .ok (crcUpdate kCrc32cInitialValue (d.source.take (inputLength .kLz4 consumed))) := by
  obtain ⟨hheader, hfooter⟩ := h.lz4 rfl
  have hpayload : ((d.source.drop kLz4FrameHeaderSize).take consumed).length = consumed := h.length_payload hin
  have hcombine := combineFrame_eq lz4FrameHeaderGen ((d.source.drop kLz4FrameHeaderSize).take consumed)
    lz4FrameFooterGen (by rw [hpayload]; exact hin.consumed_lt) (by decide)
  rw [hpayload] at hcombine
  rw [h.inCrcOf_offloaded, take_inputLength]
  refine hcombine.trans ?_
  rw [← hheader, ← hfooter]
  rfl

lemma DecompInput.copiedFrom_take (hin : DecompInput algo sizes consumed) (source : List UInt8) :
    CopiedFrom (source.take (inputLength algo consumed)) (sizes.headD 0)
      (cut sizes (source.take (inputLength algo consumed))) := by
  refine copiedFrom_cut (fun size hsize => (hin.nonempty size hsize).1) ?_
  rw [length_take]
  exact (Nat.min_le_left _ _).trans hin.fits

lemma Completes.inCrcOf_software (h : Completes algo false sizes consumed d) (hin : DecompInput algo sizes consumed) :
    inCrcOf d algo consumed = .ok (crcUpdate kCrc32cInitialValue
      (overlay (cut sizes (d.source.take (inputLength algo consumed))) (zeros (inputLength algo consumed)))) := by
  have hsizes := h.srcSizes_eq
  have hfits := hin.fits
  have hne : CodecDirection.kDecomp ≠ .kComp := by decide
  have hlength : consumed + ((headerFooterSize algo).1 + (headerFooterSize algo).2) = inputLength algo consumed := by
    unfold inputLength
    omega
  simp only [inCrcOf, compressedCRC32, h.compressedChecksum, h.integrityCrcCheck, Bool.not_true, Bool.not_false,
    Bool.false_eq_true, if_false, if_true, if_neg hne, hlength]
  dsimp only [RequestCbContext.swCalcCRC32]
  split
  case h_1 data size hsrc =>
    -- one block is read in place
    have hsize : sizes = [size] := by rw [← hsizes, hsrc]; rfl
    have hsource : d.source = readBytes d.memory data size := by
      rw [← h.srcBytes_eq, hsrc, srcBytes]
      simp
    have hle : inputLength algo consumed ≤ size := by simpa [hsize] using hfits
    have htake : d.source.take (inputLength algo consumed) = readBytes d.memory data (inputLength algo consumed) := by
      rw [hsource, take_readBytes _ _ _ _ hle]
    rw [(hin.copiedFrom_take d.source).overlay_eq, htake, computeCRC32_eq]
    · rw [htake, readBytes_length, hsize]
      exact hle
    · rw [htake, readBytes_length, length_zeros]
  case h_2 =>
    have hcons : d.context.srcData ≠ [] := by
      intro hnil
      have hblocks := hin.blocks.1
      rw [← hsizes, hnil] at hblocks
      exact absurd hblocks (by decide)
    have hfits' : inputLength algo consumed ≤ (srcSizes d.context.srcData).sum := by
      rw [hsizes]
      exact hfits
    have hcopy := copySrcData_start d.memory (inputLength algo consumed) (h.srcData_pos hin) hfits' hcons
      (zeros (inputLength algo consumed))
    rw [hsizes, h.srcBytes_eq] at hcopy
    rw [show replicate (inputLength algo consumed) 0 = zeros (inputLength algo consumed) from rfl, hcopy]
    simp only [bind, Except.bind, computeCRC32_eq]
    rfl

lemma inOneBlock_zero (hin : DecompInput algo sizes consumed) (len : Nat) :
    InOneBlock sizes 0 len ↔ len ≤ sizes.headD 0 := by
  cases sizes with
  | nil => exact absurd hin.blocks.1 (by decide)
  | cons size sizes =>
    have hsize := (hin.nonempty size mem_cons_self).1
    simp [InOneBlock, hsize]

lemma deliversInChecksum_of_gathersOneBlock (hin : DecompInput algo sizes consumed)
    (hone : GathersOneBlock algo offloaded sizes consumed) : DeliversInChecksum algo offloaded sizes consumed := by
  intro d h
  rw [h.delivers_iff]
  have hfits := hin.fits
  cases offloaded with
  | true =>
    rcases hin.algorithm with rfl | rfl | rfl
    · exact h.inCrcOf_lz4 hin
    · rw [h.inCrcOf_offloaded]
      simp [inputLength, headerFooterSize]
    · obtain ⟨header, headerRoom, footer, footerRoom, heq, hheader, hheaderOne, hfooter, hfooterOne⟩ := h.inCrcOf_zlib hin
      obtain ⟨hone, hone'⟩ := hone rfl
      have hfits : kZlibHeaderSize + consumed + kZlibFooterSize ≤ sizes.sum := hfits
      have hlen : (d.source.take kZlibHeaderSize).length = kZlibHeaderSize := by
        rw [length_take, h.length_source]
        omega
      have hlen' : ((d.source.drop (kZlibHeaderSize + consumed)).take kZlibFooterSize).length = kZlibFooterSize := by
        rw [length_take, length_drop, h.length_source]
        omega
      rw [heq, take_inputLength, hheader.overlay_eq, hfooter.overlay_eq]
      · rfl
      · rw [hlen']
        exact hfooterOne.mp hone'
      · rw [hlen', h.scratchFooter]
      · rw [hlen]
        exact hheaderOne.mp hone
      · rw [hlen, h.scratchHeader]
  | false =>
    have hlen : (d.source.take (inputLength algo consumed)).length = inputLength algo consumed := by
      rw [length_take, h.length_source, Nat.min_eq_left hfits]
    rw [h.inCrcOf_software hin, (hin.copiedFrom_take d.source).overlay_eq]
    · rw [hlen]
      exact (inOneBlock_zero hin _).mp hone
    · rw [hlen, length_zeros]

end Completion

end Vesal.Proofs
