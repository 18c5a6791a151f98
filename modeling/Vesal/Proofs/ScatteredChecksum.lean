import Vesal.Proofs.DecompressChecksum

/-! # Checksums of scattered sources -/

namespace Vesal.Proofs

open Library List

variable {algo : CodecAlgorithm} {offloaded : Bool} {sizes : List Nat} {consumed n : Nat} {f : List UInt8}

section Sources

lemma exists_contiguous (sizes : List Nat) (h : ∀ size ∈ sizes, size < 2 ^ 32) (a : Nat) :
    ∃ blocks : IOVector, blocks.map IOBlock.size = sizes ∧
      ∀ mem, userBytes mem blocks = readBytes mem a sizes.sum := by
  induction sizes generalizing a with
  | nil => exact ⟨[], rfl, fun _ => rfl⟩
  | cons size sizes ih =>
    obtain ⟨blocks, hsizes, hbytes⟩ := ih (fun s hs => h s (mem_cons_of_mem size hs)) (a + size)
    refine ⟨⟨size, a, 0, none, h size mem_cons_self⟩ :: blocks, ?_, ?_⟩
    · rw [map_cons, hsizes]
    · intro mem
      rw [userBytes_cons, hbytes, sum_cons, readBytes_add]

def startsWith (f : List UInt8) : Memory := fun a => f.getD a 0

lemma readBytes_startsWith (h : f.length ≤ n) : readBytes (startsWith f) 0 n = f ++ zeros (n - f.length) := by
  apply ext_getElem
  · rw [readBytes_length, length_append, length_zeros]
    omega
  · intro i hi _
    simp only [readBytes, getElem_map, getElem_range, Nat.zero_add, startsWith, getElem_append, zeros,
      getElem_replicate]
    by_cases hlt : i < f.length <;> simp [hlt]

lemma take_startsWith {m : Nat} (hf : f.length ≤ m) (hm : m ≤ n) :
    (f ++ zeros (n - f.length)).take m = f ++ zeros (m - f.length) := by
  rw [take_append, take_of_length_le hf, take_zeros (by omega)]

def sharedCompletion (algo : CodecAlgorithm) (offloaded : Bool) (blocks : IOVector) (consumed : Nat)
    (scratch : ZlibScratch) (mem : Memory) : DecompCompletion where
  dev := svmDevice
  opts := ⟨.kNone, .kCrc32, true, 3000⟩
  args := ⟨blocks, byteBlock 0, 0, algo, .kLevel1, .kDecomp⟩
  cb := { newRequestCbContext .kCrc32 with integrityCrcCheck := offloaded }
  reqId := 0
  srcBuf := emptyBuf
  dstBuf := emptyBuf
  results := ⟨.ok, 0, consumed, 0, (crcUpdate kCrc32cInitialValue
    (((userBytes mem blocks).drop (headerFooterSize algo).1).take consumed)).setWidth 64, 0⟩
  scratch := scratch
  mem := mem

variable {scratch : ZlibScratch}

lemma completes_sharedCompletion {blocks : IOVector} {mem : Memory} (hsizes : blocks.map IOBlock.size = sizes)
    (hheader : scratch.header.length = kZlibHeaderSize) (hfooter : scratch.footer.length = kZlibFooterSize)
    (hlz4 : algo = .kLz4 → (userBytes mem blocks).take kLz4FrameHeaderSize = lz4FrameHeaderGen ∧
      ((userBytes mem blocks).drop (kLz4FrameHeaderSize + consumed)).take kLz4FrameFooterSize = lz4FrameFooterGen) :
    Completes algo offloaded sizes consumed (sharedCompletion algo offloaded blocks consumed scratch mem) :=
  ⟨rfl, rfl, hsizes, rfl, rfl, rfl, rfl, rfl, hlz4, hheader, hfooter⟩

lemma exists_completes (hin : DecompInput algo sizes consumed) (offloaded : Bool)
    (hheader : scratch.header.length = kZlibHeaderSize) (hfooter : scratch.footer.length = kZlibFooterSize)
    (hf : f.length ≤ sizes.sum)
    (hlz4 : algo = .kLz4 → (f ++ zeros (sizes.sum - f.length)).take kLz4FrameHeaderSize = lz4FrameHeaderGen ∧
      ((f ++ zeros (sizes.sum - f.length)).drop (kLz4FrameHeaderSize + consumed)).take kLz4FrameFooterSize =
        lz4FrameFooterGen) :
    ∃ d, Completes algo offloaded sizes consumed d ∧ d.source = f ++ zeros (sizes.sum - f.length) ∧
      d.scratch = scratch := by
  obtain ⟨blocks, hsizes, hbytes⟩ := exists_contiguous sizes (fun size hsize => (hin.nonempty size hsize).2) 0
  have hsource : userBytes (startsWith f) blocks = f ++ zeros (sizes.sum - f.length) :=
    (hbytes (startsWith f)).trans (readBytes_startsWith hf)
  refine ⟨sharedCompletion algo offloaded blocks consumed scratch (startsWith f), ?_, hsource, rfl⟩
  refine completes_sharedCompletion hsizes hheader hfooter ?_
  rw [hsource]
  exact hlz4

lemma not_deliversInChecksum {d : DecompCompletion} (h : Completes algo offloaded sizes consumed d) {crc : BitVec 32}
    (hcrc : inCrcOf d algo consumed = .ok crc)
    (hne : crc ≠ crcUpdate kCrc32cInitialValue (d.source.take (inputLength algo consumed))) :
    ¬ DeliversInChecksum algo offloaded sizes consumed := by
  intro hall
  have hok := (h.delivers_iff _).mp (hall d h)
  exact hne (Except.ok.inj (hcrc.symm.trans hok))

end Sources

section Zlib

lemma crcUpdate_last_ne (a : BitVec 32) (s : List UInt8) : crcUpdate a (s ++ [1]) ≠ crcUpdate a (s ++ [0]) := by
  rw [crcUpdate_append, crcUpdate_append]
  exact (crc32b_zero_ne_one _).symm

variable {pieces : List (List UInt8)} {room m : Nat}

lemma CopiedFrom.overlay_last (h : CopiedFrom (zeros (m + 1)) room pieces) (hroom : room < m + 1) (b : UInt8) :
    overlay pieces (zeros m ++ [b]) = zeros m ++ [b] := by
  have htwo : 2 ≤ pieces.length := by
    by_contra hlt
    have hle := h.one.mp (by omega)
    rw [length_zeros] at hle
    omega
  have hshort : ∀ piece ∈ pieces, piece.length ≤ m := by
    intro piece hpiece
    have hlt := length_lt_of_two h.nonempty htwo hpiece
    rw [h.flatten, length_zeros] at hlt
    omega
  obtain ⟨k, hk, heq, _⟩ := overlay_zeros (fun piece hpiece => eq_zeros_of_flatten h.flatten hpiece) hshort
  rw [heq, drop_append_of_le_length (by rw [length_zeros]; exact hk), drop_zeros, ← append_assoc,
    ← zeros_add, Nat.add_sub_cancel' hk]

lemma CopiedFrom.overlay_zeros_eq (h : CopiedFrom (zeros m) room pieces) :
    overlay pieces (zeros m) = zeros m := by
  obtain ⟨k, hk, heq, _⟩ := overlay_zeros (fun piece hpiece => eq_zeros_of_flatten h.flatten hpiece) h.length_le
  rw [length_zeros] at hk
  rw [heq, drop_zeros, ← zeros_add, Nat.add_sub_cancel' hk]

lemma Completes.inCrcOf_zeros {d : DecompCompletion} (h : Completes .kZlib true sizes consumed d)
    (hin : DecompInput .kZlib sizes consumed) (hsource : d.source = zeros sizes.sum) :
    ∃ header headerRoom footer footerRoom,
      inCrcOf d .kZlib consumed = .ok (crcUpdate kCrc32cInitialValue
        (overlay header d.scratch.header ++ zeros consumed ++ overlay footer d.scratch.footer)) ∧
      CopiedFrom (zeros 2) headerRoom header ∧ (InOneBlock sizes 0 kZlibHeaderSize ↔ 2 ≤ headerRoom) ∧
      CopiedFrom (zeros 4) footerRoom footer ∧
      (InOneBlock sizes (kZlibHeaderSize + consumed) kZlibFooterSize ↔ 4 ≤ footerRoom) := by
  have hfits : 2 + consumed + 4 ≤ sizes.sum := hin.fits
  obtain ⟨header, headerRoom, footer, footerRoom, heq, hheader, hheaderOne, hfooter, hfooterOne⟩ := h.inCrcOf_zlib hin
  rw [hsource] at heq hheader hfooter
  unfold kZlibHeaderSize kZlibFooterSize at *
  rw [drop_zeros, take_zeros (by omega)] at heq hfooter
  rw [take_zeros (by omega)] at hheader
  exact ⟨header, headerRoom, footer, footerRoom, heq, hheader, hheaderOne, hfooter, hfooterOne⟩

lemma take_zeros_frame (hin : DecompInput .kZlib sizes consumed) :
    (zeros sizes.sum).take (inputLength .kZlib consumed) = zeros 2 ++ zeros consumed ++ (zeros 3 ++ [0]) := by
  rw [take_zeros hin.fits]
  exact zeros_add (2 + consumed) 4 ▸ zeros_add 2 consumed ▸ rfl

lemma zlib_wrong (hin : DecompInput .kZlib sizes consumed)
    (hsplit : ¬ (InOneBlock sizes 0 kZlibHeaderSize ∧ InOneBlock sizes (kZlibHeaderSize + consumed) kZlibFooterSize)) :
    ¬ DeliversInChecksum .kZlib true sizes consumed := by
  have hzero : ∀ scratch : ZlibScratch, scratch.header.length = kZlibHeaderSize →
      scratch.footer.length = kZlibFooterSize → ∃ d, Completes .kZlib true sizes consumed d ∧
        d.source = zeros sizes.sum ∧ d.scratch = scratch := by
    intro scratch hheader hfooter
    exact exists_completes (f := []) hin true hheader hfooter (Nat.zero_le _) fun heq => by cases heq
  by_cases hone : InOneBlock sizes 0 kZlibHeaderSize
  · -- the footer is split: the last byte that an earlier call left there stays
    obtain ⟨d, h, hsource, hscratch⟩ := hzero ⟨zeros 2, zeros 3 ++ [1]⟩ rfl rfl
    obtain ⟨header, _, footer, footerRoom, heq, hheader, _, hfooter, hfooterOne⟩ := h.inCrcOf_zeros hin hsource
    have hroom : footerRoom < 3 + 1 := by
      have hnot := mt hfooterOne.mpr fun hfooter => hsplit ⟨hone, hfooter⟩
      omega
    refine not_deliversInChecksum h heq ?_
    rw [hscratch, hheader.overlay_zeros_eq, hfooter.overlay_last hroom, hsource, take_zeros_frame hin,
      ← append_assoc, ← append_assoc]
    exact crcUpdate_last_ne _ _
  · -- the header is split
    obtain ⟨d, h, hsource, hscratch⟩ := hzero ⟨zeros 1 ++ [1], zeros 4⟩ rfl rfl
    obtain ⟨header, headerRoom, footer, _, heq, hheader, hheaderOne, hfooter, _⟩ := h.inCrcOf_zeros hin hsource
    have hroom : headerRoom < 1 + 1 := by
      have hnot := mt hheaderOne.mpr hone
      omega
    refine not_deliversInChecksum h heq ?_
    rw [hscratch, hheader.overlay_last hroom, hfooter.overlay_zeros_eq, hsource, take_zeros_frame hin,
      append_assoc, append_assoc]
    have hne : crcUpdate kCrc32cInitialValue (zeros 1 ++ [1]) ≠ crcUpdate kCrc32cInitialValue (zeros 2) := by
      decide +kernel
    exact crcUpdate_append_ne hne _

end Zlib

section Software

variable {pieces : List (List UInt8)} {buf : List UInt8} {room m : Nat}

lemma overlay_take (hbuf : buf.length = n)
    (h : ∀ piece ∈ pieces, piece.drop n = zeros (piece.length - n) ∧ piece.length ≤ n + m) :
    overlay pieces (buf ++ zeros m) = overlay (pieces.map (take n)) buf ++ zeros m := by
  induction pieces generalizing buf with
  | nil => rfl
  | cons piece pieces ih =>
    obtain ⟨hzeros, hle⟩ := h piece mem_cons_self
    have hpiece : piece ++ (buf ++ zeros m).drop piece.length =
        piece.take n ++ buf.drop (piece.take n).length ++ zeros m := by
      rcases Nat.le_total piece.length n with hshort | hlong
      · rw [take_of_length_le hshort, drop_append_of_le_length (hbuf ▸ hshort), append_assoc]
      · have hsplit : piece.take n ++ zeros (piece.length - n) = piece := hzeros ▸ take_append_drop n piece
        have hrest : zeros (piece.length - n) ++ zeros (n + m - piece.length) = zeros m := by
          rw [← zeros_add]
          congr 1
          omega
        rw [drop_append, drop_eq_nil_of_le (hbuf ▸ hlong), nil_append, drop_zeros, hbuf, length_take_of_le hlong,
          drop_eq_nil_of_le hbuf.le, append_nil, ← hrest, ← append_assoc, hsplit]
        congr 2
        omega
    rw [overlay_cons, hpiece, map_cons, overlay_cons]
    refine ih ?_ fun p hp => h p (mem_cons_of_mem piece hp)
    rw [length_append, length_drop, length_take]
    omega

def cuts : List UInt8 → List (List (List UInt8))
  | [] => [[]]
  | b :: bytes => (cuts bytes).flatMap fun pieces =>
    match pieces with
    | [] => [[[b]]]
    | piece :: rest => [[b] :: piece :: rest, (b :: piece) :: rest]

lemma mem_cuts (h : ∀ piece ∈ pieces, piece ≠ []) : pieces ∈ cuts pieces.flatten := by
  induction pieces with
  | nil => exact mem_singleton.mpr rfl
  | cons piece pieces ih =>
    have hrest := ih fun p hp => h p (mem_cons_of_mem piece hp)
    have hpiece := h piece mem_cons_self
    clear h ih
    -- over the bytes of the first piece, whose last one starts it
    induction piece with
    | nil => exact absurd rfl hpiece
    | cons b piece ih =>
      rw [flatten_cons, cons_append, cuts, mem_flatMap]
      by_cases hnil : piece = []
      · subst hnil
        refine ⟨pieces, hrest, ?_⟩
        cases pieces <;> simp
      · refine ⟨piece :: pieces, ih hnil, ?_⟩
        simp

/-- However the first bytes of a source are cut, when they are gathered from more than one block and
zeros come behind them, the checksum is another one. -/
def StartMatters (f : List UInt8) : Prop :=
  ∀ pieces ∈ cuts f, ∀ j ≤ f.length - (pieces.getLastD []).length, ∀ k ≤ f.length, (pieces.length = 1 → 1 ≤ k) →
    crcUpdate kCrc32cInitialValue
        (overlay (pieces.dropLast ++ [pieces.getLastD [] ++ zeros j, zeros k]) (zeros f.length)) ≠
      crcUpdate kCrc32cInitialValue f

lemma startMatters_one : StartMatters [1] := by
  unfold StartMatters
  decide +kernel

lemma startMatters_lz4FrameHeaderGen : StartMatters lz4FrameHeaderGen := by
  unfold StartMatters
  decide +kernel

lemma exists_last (hne : ∀ piece ∈ pieces, piece ≠ []) (hflatten : pieces.flatten = f ++ zeros m) (hf : f ≠ []) :
    ∃ before last j behind, pieces = before ++ (last ++ zeros j) :: behind ∧
      (∀ piece ∈ before ++ [last], piece ≠ []) ∧ (before ++ [last]).flatten = f ∧
      ∀ piece ∈ behind, piece = zeros piece.length := by
  induction pieces generalizing f with
  | nil => exact absurd (append_eq_nil_iff.mp hflatten.symm).1 hf
  | cons piece pieces ih =>
    rw [flatten_cons] at hflatten
    by_cases hlast : f.length ≤ piece.length
    · -- the rest of the start is in this piece
      obtain ⟨u, rfl, hrest⟩ : ∃ u, piece = f ++ u ∧ u ++ pieces.flatten = zeros m := by
        rcases append_eq_append_iff.mp hflatten with ⟨u, rfl, hu⟩ | ⟨u, rfl, hu⟩
        · obtain rfl : u = [] := by simpa using hlast
          exact ⟨[], by simp, hu⟩
        · exact ⟨u, rfl, hu.symm⟩
      have hzeros : ∀ p ∈ u :: pieces, p = zeros p.length := fun p hp =>
        eq_zeros_of_flatten (flatten_cons.trans hrest) hp
      refine ⟨[], f, u.length, pieces, ?_, by simpa using hf, by simp, fun p hp => hzeros p (mem_cons_of_mem u hp)⟩
      rw [← hzeros u mem_cons_self]
      rfl
    · obtain ⟨u, rfl, hrest⟩ : ∃ u, f = piece ++ u ∧ pieces.flatten = u ++ zeros m := by
        rcases append_eq_append_iff.mp hflatten with h | ⟨u, rfl, _⟩
        · exact h
        · simp at hlast
      have hu : u ≠ [] := by
        rintro rfl
        simp at hlast
      obtain ⟨before, last, j, behind, rfl, hne', hstart, hbehind⟩ := ih
        (fun p hp => hne p (mem_cons_of_mem piece hp)) hrest hu
      refine ⟨piece :: before, last, j, behind, rfl, ?_, by rw [cons_append, flatten_cons, hstart], hbehind⟩
      intro p hp
      rcases mem_cons.mp hp with rfl | hp
      · exact hne p mem_cons_self
      · exact hne' p hp

lemma StartMatters.overlay_ne (h : StartMatters f) (hf : f ≠ []) (hcopied : CopiedFrom (f ++ zeros m) room pieces)
    (hsplit : room < f.length + m) :
    crcUpdate kCrc32cInitialValue (overlay pieces (zeros (f.length + m))) ≠
      crcUpdate kCrc32cInitialValue (f ++ zeros m) := by
  obtain ⟨before, last, j, behind, rfl, hne, hstart, hbehind⟩ := exists_last hcopied.nonempty hcopied.flatten hf
  have hle : ∀ piece ∈ before ++ [last], piece.length ≤ f.length := by
    intro piece hpiece
    rw [← hstart, length_flatten]
    exact single_le_sum (fun _ _ => Nat.zero_le _) _ (mem_map_of_mem hpiece)
  have hlast := hle last (mem_append_right _ mem_cons_self)
  have hshort : ∀ piece ∈ before, piece.take f.length = piece := fun piece hpiece =>
    take_of_length_le (hle piece (mem_append_left _ hpiece))
  have hall := hcopied.length_le
  rw [length_append, length_zeros] at hall
  obtain ⟨k, hk, hzeros, hmax⟩ := overlay_zeros hbehind fun piece hpiece =>
    hall piece (mem_append_right _ (mem_cons_of_mem _ hpiece))
  -- the blocks behind the start are like one block of zeros, and what goes beyond the start does not matter
  have hover : overlay (before ++ (last ++ zeros j) :: behind) (zeros (f.length + m)) =
      overlay (before ++ [last ++ zeros (min (f.length - last.length) j), zeros (min f.length k)]) (zeros f.length) ++
        zeros m := by
    have hone : overlay (before ++ (last ++ zeros j) :: behind) (zeros (f.length + m)) =
        overlay (before ++ [last ++ zeros j, zeros k]) (zeros f.length ++ zeros m) := by
      rw [overlay_append, overlay_cons, hzeros, overlay_append, zeros_add, overlay_cons, overlay_cons, length_zeros]
      rfl
    rw [hone, overlay_take (length_zeros _)]
    · rw [map_append, map_congr_left hshort, map_id', map_cons, map_singleton, take_append, take_of_length_le hlast]
      unfold zeros
      rw [take_replicate, take_replicate]
    · intro piece hpiece
      rcases mem_append.mp hpiece with hmem | hmem
      · have hpiece := hle piece (mem_append_left _ hmem)
        rw [drop_eq_nil_of_le hpiece, Nat.sub_eq_zero_of_le hpiece]
        exact ⟨rfl, by omega⟩
      · have hj := hall (last ++ zeros j) (mem_append_right _ mem_cons_self)
        rcases mem_cons.mp hmem with rfl | hmem
        · refine ⟨?_, hj⟩
          rw [drop_append, drop_eq_nil_of_le hlast, drop_zeros, length_append, length_zeros, nil_append]
          congr 1
          omega
        · rw [mem_singleton.mp hmem, drop_zeros, length_zeros]
          exact ⟨rfl, hk⟩
  rw [hover]
  refine crcUpdate_append_ne ?_ _
  have hmatters := h (before ++ [last]) (hstart ▸ mem_cuts hne) (min (f.length - last.length) j)
  rw [dropLast_concat, getLastD_concat] at hmatters
  refine hmatters (Nat.min_le_left _ _) _ (Nat.min_le_left _ k) ?_
  intro hone
  have htwo : ¬ (before ++ (last ++ zeros j) :: behind).length ≤ 1 := by
    rw [hcopied.one, length_append, length_zeros]
    omega
  rw [length_append, length_cons] at htwo
  rw [length_append, length_singleton] at hone
  obtain ⟨piece, hpiece⟩ := exists_mem_of_length_pos (l := behind) (by omega)
  have hpos := length_pos_iff.mpr (hcopied.nonempty piece (mem_append_right _ (mem_cons_of_mem _ hpiece)))
  exact le_min (length_pos_iff.mpr hf) (hpos.trans_le (hmax piece hpiece))

lemma exists_startMatters (hpos : 0 < inputLength algo consumed) :
    ∃ f, StartMatters f ∧ f ≠ [] ∧ f.length ≤ inputLength algo consumed ∧ (algo = .kLz4 → f = lz4FrameHeaderGen) := by
  by_cases hlz4 : algo = .kLz4
  · subst hlz4
    refine ⟨lz4FrameHeaderGen, startMatters_lz4FrameHeaderGen, by decide, ?_, fun _ => rfl⟩
    exact Nat.le_add_right_of_le (Nat.le_add_right 7 consumed)
  · exact ⟨[1], startMatters_one, by decide, hpos, fun heq => absurd heq hlz4⟩

lemma software_wrong (hin : DecompInput algo sizes consumed) (hsplit : ¬ InOneBlock sizes 0 (inputLength algo consumed)) :
    ¬ DeliversInChecksum algo false sizes consumed := by
  rw [inOneBlock_zero hin, Nat.not_le] at hsplit
  obtain ⟨f, hmatters, hne, hf, hlz4⟩ := exists_startMatters (Nat.zero_lt_of_lt hsplit)
  have hfits := hin.fits
  have hframe : algo = .kLz4 → (f ++ zeros (sizes.sum - f.length)).take kLz4FrameHeaderSize = lz4FrameHeaderGen ∧
      ((f ++ zeros (sizes.sum - f.length)).drop (kLz4FrameHeaderSize + consumed)).take kLz4FrameFooterSize =
        lz4FrameFooterGen := by
    intro heq
    obtain rfl := hlz4 heq
    subst heq
    have hlength : lz4FrameHeaderGen.length = kLz4FrameHeaderSize := by decide
    have hfits : kLz4FrameHeaderSize + consumed + kLz4FrameFooterSize ≤ sizes.sum := hfits
    have hfooter : lz4FrameFooterGen = zeros kLz4FrameFooterSize := by decide
    refine ⟨take_left' hlength, ?_⟩
    rw [← drop_drop, drop_left' hlength, drop_zeros, hfooter, take_zeros (by omega)]
  have hscratch : (⟨zeros 2, zeros 4⟩ : ZlibScratch).header.length = kZlibHeaderSize := rfl
  obtain ⟨d, h, hsource, _⟩ := exists_completes hin false hscratch rfl (hf.trans hfits) hframe
  have hcopied := hin.copiedFrom_take d.source
  have htake : d.source.take (inputLength algo consumed) = f ++ zeros (inputLength algo consumed - f.length) := by
    rw [hsource, take_startsWith hf hfits]
  refine not_deliversInChecksum h (h.inCrcOf_software hin) ?_
  rw [htake] at hcopied ⊢
  have hgathered := hmatters.overlay_ne hne hcopied (by omega)
  rw [Nat.add_sub_cancel' hf] at hgathered
  exact hgathered

end Software

/-- The checksum that a decompression delivers is the CRC of header, payload and footer, whatever the
source holds, exactly when each range that is copied from the source lies in one block. -/
theorem decompress_in_checksum_iff (algo : CodecAlgorithm) (offloaded : Bool) (sizes : List Nat) (consumed : Nat)
    (hin : DecompInput algo sizes consumed) :
    DeliversInChecksum algo offloaded sizes consumed ↔ GathersOneBlock algo offloaded sizes consumed := by
  constructor
  · intro hdelivers
    by_contra hnot
    cases offloaded with
    | true =>
      obtain ⟨rfl, hsplit⟩ := Classical.not_imp.mp hnot
      exact zlib_wrong hin hsplit hdelivers
    | false => exact software_wrong hin hnot hdelivers
  · exact deliversInChecksum_of_gathersOneBlock hin

/-- A zlib frame with the header in one block and the rest in another. -/
theorem decompress_in_checksum_two_blocks : DeliversInChecksum .kZlib true [2, 6] 2 :=
  (decompress_in_checksum_iff .kZlib true [2, 6] 2
    ⟨Or.inr (Or.inr rfl), by decide, by decide, by decide⟩).mpr fun _ => by decide

def emptyStream : DecompCompletion :=
  sharedCompletion .kZlib true [byteBlock 0x1000, ⟨7, 0x1001, 0, none, by norm_num⟩] 2
    ⟨[0, 0], [0, 0, 0, 0]⟩ fun a => [0x78, 0x9C, 0x03, 0x00, 0x00, 0x00, 0x00, 0x01].getD (a - 0x1000) 0

/-- The second byte of the header is copied over the first one. -/
theorem decompress_in_checksum_split_header :
    DecompInput .kZlib [1, 7] 2 ∧ Completes .kZlib true [1, 7] 2 emptyStream ∧
      ∃ res, callbackSuccess emptyStream.dev emptyStream.opts (frameMetaOf emptyStream.args) emptyStream.context
          emptyStream.results emptyStream.scratch emptyStream.mem = .ok (emptyStream.memory, res) ∧
        res.inChecksum ≠
          (crcUpdate kCrc32cInitialValue (emptyStream.source.take (inputLength .kZlib 2))).setWidth 64 := by
  refine ⟨⟨Or.inr (Or.inr rfl), by decide, by decide, by decide⟩, ?_, _, rfl, ?_⟩
  · refine completes_sharedCompletion rfl rfl rfl ?_
    intro heq
    cases heq
  · decide +kernel

end Vesal.Proofs
