import Vesal.Proofs.Lz4sDecode

/-! # Arbitrary input of the lz4s decoder -/

namespace Vesal.Proofs

open List Option

variable (t : Lz4sToken) (lz4s : List UInt8)

lemma longest_token_list (ip : Nat) (hip : ip ≤ lz4s.length) :
    ∃ tokens rest, lz4s.drop ip = encodeTokens tokens ++ rest ∧
      (rest = [] ∨ (∃ l : Lz4sLast, rest = l.encode) ∨
        (ip + (encodeTokens tokens).length < lz4s.length ∧
          ∀ capacity st, st.ip = ip + (encodeTokens tokens).length →
            ∃ e, decodeToken lz4s capacity st = .error e)) := by
  generalize hn : lz4s.length - ip = n
  induction n using Nat.strongRecOn generalizing ip with
  | ind n ih =>
    by_cases hend : ip = lz4s.length
    · exact ⟨[], [], by simp [hend, encodeTokens], .inl rfl⟩
    · have hlt : ip < lz4s.length := by omega
      obtain ⟨t, r, ht⟩ | ⟨l, hl⟩ | hfault := token_cases lz4s ip hlt
      · have hlen := congrArg List.length ht
        rw [length_drop, length_append, encode_length] at hlen
        have hnext := drop_add_length _ ht
        have hpos := encode_length t
        obtain ⟨tokens, rest, hr, hcases⟩ := ih (lz4s.length - (ip + t.encode.length)) (by omega)
          (ip + t.encode.length) (by omega) rfl
        have hcons : (encodeTokens (t :: tokens)).length =
            t.encode.length + (encodeTokens tokens).length := by simp [encodeTokens]
        refine ⟨t :: tokens, rest, ?_, ?_⟩
        · rw [ht, ← hnext, hr]
          simp [encodeTokens]
        · rw [hcons, ← Nat.add_assoc]
          exact hcases
      · exact ⟨[], l.encode, by simp [hl, encodeTokens], .inr (.inl ⟨l, rfl⟩)⟩
      · refine ⟨[], lz4s.drop ip, by simp [encodeTokens], .inr (.inr ⟨by simpa [encodeTokens], ?_⟩)⟩
        intro capacity st hst
        exact hfault capacity st (by simpa [encodeTokens] using hst)

lemma decodeLoop_no_room (fuel : Nat) (tokens : List Lz4sToken)
    (rest : List UInt8) (ip hist : Nat) (h : lz4s.drop ip = encodeTokens tokens ++ rest)
    (hhist : hist < 2 ^ 32) (hm : matchCount tokens ≠ 0) :
    ∃ e, decodeLoop lz4s 0 (fuel + tokens.length) (loopState ip hist [] 0) = .error e := by
  induction tokens generalizing ip hist with
  | nil => exact absurd rfl hm
  | cons t tokens ih =>
    have ht : lz4s.drop ip = t.encode ++ (encodeTokens tokens ++ rest) := by
      rw [h]
      simp [encodeTokens]
    rw [length_cons, ← Nat.add_assoc]
    by_cases hc : t.matchCode = 0
    · rw [decodeLoop_carry ht hhist hc]
      apply ih _ _ (drop_add_length _ ht) (Nat.mod_lt _ (by norm_num))
      simpa [matchCount, hc] using hm
    · have hip := drop_lt_length ht (by rw [encode_length]; omega)
      refine ⟨.writePastEnd 0, ?_⟩
      rw [decodeLoop, if_pos (by exact hip), decodeToken_token t ht hhist, if_neg hc]
      rfl

variable (capacity : Nat)

lemma decode_cases :
    (∃ e, decodeLz4sToZstdSequence lz4s capacity = .error e) ∨
    (∃ tokens last, lz4s = encodeStream tokens last ∧ matchCount tokens < capacity) ∨
    (∃ tokens rest, lz4s = encodeTokens tokens ++ rest ∧ 1 ≤ capacity ∧
      capacity ≤ matchCount tokens) ∨
    (∃ tokens, lz4s = encodeStream tokens none ∧ capacity = 0 ∧ matchCount tokens = 0) := by
  obtain ⟨tokens, rest, hsplit, hcases⟩ := longest_token_list lz4s 0 (Nat.zero_le _)
  rw [drop_zero] at hsplit
  by_cases hfull : 1 ≤ capacity ∧ capacity ≤ matchCount tokens
  · exact .inr (.inr (.inl ⟨tokens, rest, hsplit, hfull⟩))
  · by_cases hzero : capacity = 0 ∧ matchCount tokens ≠ 0
    · obtain ⟨rfl, hm⟩ := hzero
      obtain ⟨e, he⟩ := decodeLoop_no_room lz4s (lz4s.length + 1 - tokens.length) tokens rest 0 0
        (by rw [drop_zero]; exact hsplit) (by norm_num) hm
      have hle := tokens_length_le tokens
      have hlen := congrArg List.length hsplit
      rw [length_append] at hlen
      refine .inl ⟨e, ?_⟩
      unfold decodeLz4sToZstdSequence
      rw [initial_loopState, show lz4s.length + 1 = lz4s.length + 1 - tokens.length + tokens.length
        by omega]
      exact he
    · have hroom : matchCount tokens = 0 ∨ matchCount tokens < capacity := by omega
      obtain rfl | ⟨l, rfl⟩ | ⟨hlt, hfault⟩ := hcases
      · by_cases hc : capacity = 0
        · exact .inr (.inr (.inr ⟨tokens, by simpa [encodeStream] using hsplit, hc, by omega⟩))
        · exact .inr (.inl ⟨tokens, none, by simpa [encodeStream] using hsplit, by omega⟩)
      · by_cases hc : capacity = 0
        · obtain ⟨fuel, hf⟩ := decode_after_tokens tokens l.encode capacity hroom
          have hdrop : (encodeTokens tokens ++ l.encode).drop (encodeTokens tokens).length =
              l.encode := drop_left
          have hip := drop_lt_length (hdrop.trans (append_nil _).symm)
            (by simp [Lz4sLast.encode])
          refine .inl ⟨.writePastEnd (emitAll 0 tokens).1.length, ?_⟩
          rw [hsplit, hf, decodeLoop, if_pos (by exact hip)]
          rw [decodeToken_last l hdrop]
          have hno : ¬(emitAll 0 tokens).1.length <
              (filledArray (emitAll 0 tokens).1 capacity).length := by
            simp [filledArray, hc]
          simp only [loopState, hno, if_false]
        · exact .inr (.inl ⟨tokens, some l, hsplit, by omega⟩)
      · obtain ⟨fuel, hf⟩ := decode_after_tokens tokens rest capacity hroom
        rw [Nat.zero_add] at hlt hfault
        obtain ⟨e, he⟩ := hfault capacity (loopState (encodeTokens tokens).length
          (emitAll 0 tokens).2 (emitAll 0 tokens).1 capacity) rfl
        refine .inl ⟨e, ?_⟩
        rw [hsplit] at he hlt ⊢
        rw [hf, decodeLoop, if_pos ⟨by exact hlt, by omega⟩, he]

def sequenceBytes (entries : List ZstdSequence) : Nat :=
  (entries.map (fun e => e.litLength + e.matchLength)).sum

/-- A count is only returned together with that many written entries, and these stand
for all bytes of the tokens of the input. -/
def ReportsAllData : Prop :=
  ∀ n out, decodeLz4sToZstdSequence lz4s capacity = .ok ⟨some n, out⟩ →
    ∃ entries : List ZstdSequence, entries.length = n ∧ out.take n = entries.map some ∧
      (∃ tokens last, lz4s = encodeStream tokens last) ∧
      ∀ tokens last, lz4s = encodeStream tokens last →
        sequenceBytes entries = decodedLength tokens last

def storedMatch : Nat :=
  if t.matchCode = 0 then 0 else (t.matchCode + lz4MinMatch) % 2 ^ 16

lemma storedMatch_le : storedMatch t ≤ t.matchLength := by
  unfold storedMatch Lz4sToken.matchLength
  split
  · exact le_rfl
  · exact Nat.mod_le _ _

lemma storedMatch_eq_iff : storedMatch t = t.matchLength ↔ t.matchLength ≤ 65535 := by
  unfold storedMatch Lz4sToken.matchLength
  split
  · simp
  · omega

lemma emitAll_bytes (hist : Nat) (tokens : List Lz4sToken)
    (hlit : hist + (tokens.map (fun t => t.literals.length)).sum < 2 ^ 32) :
    sequenceBytes (emitAll hist tokens).1 + (emitAll hist tokens).2 =
      hist + (tokens.map (fun t => t.literals.length)).sum + (tokens.map storedMatch).sum := by
  induction tokens generalizing hist with
  | nil => simp [emitAll, sequenceBytes]
  | cons t tokens ih =>
    simp only [map_cons, sum_cons] at hlit ⊢
    by_cases hm : t.matchCode = 0
    · have hs : storedMatch t = 0 := by simp [storedMatch, hm]
      rw [emitAll, if_pos hm, Nat.mod_eq_of_lt (by omega), ih _ (by omega), hs]
      omega
    · have hs : storedMatch t = (t.matchCode + lz4MinMatch) % 2 ^ 16 := by simp [storedMatch, hm]
      have hrest := ih 0 (by omega)
      rw [emitAll, if_neg hm, hs]
      simp only [sequenceBytes, map_cons, sum_cons, emittedEntry] at hrest ⊢
      omega

lemma emitAll_hist_le (hist : Nat) (tokens : List Lz4sToken) :
    (emitAll hist tokens).2 ≤ hist + (tokens.map (fun t => t.literals.length)).sum := by
  induction tokens generalizing hist with
  | nil => simp [emitAll]
  | cons t tokens ih =>
    simp only [map_cons, sum_cons]
    by_cases hm : t.matchCode = 0
    · have hmod := Nat.mod_le (hist + t.literals.length) (2 ^ 32)
      have hrest := ih ((hist + t.literals.length) % 2 ^ 32)
      rw [emitAll, if_pos hm]
      omega
    · have hrest := ih 0
      rw [emitAll, if_neg hm]
      omega

variable (tokens : List Lz4sToken)

lemma stored_sum_eq_iff :
    (tokens.map storedMatch).sum = (tokens.map Lz4sToken.matchLength).sum ↔
      ∀ t ∈ tokens, t.matchLength ≤ 65535 := by
  induction tokens with
  | nil => simp
  | cons t tokens ih =>
    have hle : (tokens.map storedMatch).sum ≤ (tokens.map Lz4sToken.matchLength).sum :=
      sum_le_sum fun t _ => storedMatch_le t
    have ht := storedMatch_le t
    have hiff := storedMatch_eq_iff t
    simp only [map_cons, sum_cons, forall_mem_cons]
    constructor
    · intro h
      exact ⟨hiff.mp (by omega), ih.mp (by omega)⟩
    · rintro ⟨h1, h2⟩
      rw [hiff.mpr h1, ih.mpr h2]

lemma decodedLength_eq (l : Lz4sLast) :
    decodedLength tokens (some l) = (tokens.map (fun t => t.literals.length)).sum +
      (tokens.map Lz4sToken.matchLength).sum + l.literals.length := by
  simp only [decodedLength, elim_some, sum_map_add]

lemma literalTotal_le (last : Option Lz4sLast) :
    literalTotal tokens last ≤ (encodeStream tokens last).length := by
  have htok : (tokens.map (fun t => t.literals.length)).sum ≤ (encodeTokens tokens).length := by
    rw [encodeTokens, length_flatMap]
    apply sum_le_sum
    intro t _
    rw [encode_length]
    omega
  unfold literalTotal encodeStream
  cases last with
  | none => simpa using htok
  | some l =>
    simp only [elim_some, Lz4sLast.encode, length_cons, length_append]
    omega

lemma stream_bytes_iff (l : Lz4sLast)
    (hlit : literalTotal tokens (some l) < 2 ^ 32) :
    sequenceBytes (streamEntries 0 tokens l) = decodedLength tokens (some l) ↔
      ∀ t ∈ tokens, t.matchLength ≤ 65535 := by
  simp only [literalTotal, elim_some] at hlit
  have hsum := emitAll_bytes 0 tokens (by omega)
  have hcarry := emitAll_hist_le 0 tokens
  have hlast : sequenceBytes [lastEntry (emitAll 0 tokens).2 l] =
      l.literals.length + (emitAll 0 tokens).2 := by
    simp only [sequenceBytes, lastEntry, map_cons, map_nil, sum_cons, sum_nil]
    omega
  have happend : sequenceBytes (streamEntries 0 tokens l) =
      sequenceBytes (emitAll 0 tokens).1 + sequenceBytes [lastEntry (emitAll 0 tokens).2 l] := by
    simp [sequenceBytes, streamEntries]
  rw [← stored_sum_eq_iff, happend, hlast, decodedLength_eq]
  omega

lemma filledArray_unwritten (entries : List ZstdSequence) (capacity : Nat)
    (h : entries.length < capacity) :
    (filledArray entries capacity)[entries.length]? = some none := by
  unfold filledArray
  rw [getElem?_append_right (by simp), length_map, Nat.sub_self,
    getElem?_replicate_of_lt (by omega)]

lemma decode_stream_last_entries {lz4s : List UInt8} {tokens : List Lz4sToken} {l : Lz4sLast}
    {capacity n : Nat} {out : SequenceArray} (hstream : lz4s = encodeStream tokens (some l))
    (hroom : matchCount tokens < capacity)
    (hdec : decodeLz4sToZstdSequence lz4s capacity = .ok ⟨some n, out⟩) :
    n = matchCount tokens + 1 ∧ out.take n = (streamEntries 0 tokens l).map some := by
  have hval := decode_stream_last tokens l capacity hroom
  rw [← hstream, hdec] at hval
  obtain ⟨rfl, rfl⟩ := hval
  refine ⟨rfl, ?_⟩
  rw [← filledArray_take capacity, streamEntries_length]

/-- The exact inputs on which a returned count accounts for all data: whenever the input
is a token list that fits the array, it has a last token and no match length above
65535. `lz4s_size` is an `int`. -/
theorem decodeLz4s_reports_all_data_iff (lz4s : List UInt8) (hsize : lz4s.length < 2 ^ 31)
    (capacity : Nat) (hcap : 1 ≤ capacity) :
    ReportsAllData lz4s capacity ↔
      ∀ tokens last, lz4s = encodeStream tokens last → matchCount tokens < capacity →
        last.isSome ∧ ∀ t ∈ tokens, t.matchLength ≤ 65535 := by
  constructor
  · intro hrep tokens last hstream hroom
    have hlit := literalTotal_le tokens last
    rw [← hstream] at hlit
    cases last with
    | none =>
      -- the count is one more than the number of entries written
      have hdec := decode_stream_none tokens capacity (.inr hroom)
      rw [← hstream] at hdec
      obtain ⟨entries, hlen, htake, -⟩ := hrep _ _ hdec
      have hun := filledArray_unwritten (emitAll 0 tokens).1 capacity
        (by rw [emitAll_length]; exact hroom)
      have hget := congrArg (fun xs => xs[matchCount tokens]?) htake
      simp only [List.getElem?_take, Nat.lt_succ_self, if_true, List.getElem?_map] at hget
      rw [emitAll_length] at hun
      rw [hun, List.getElem?_eq_getElem (by omega)] at hget
      simp at hget
    | some l =>
      refine ⟨rfl, ?_⟩
      have hdec := decode_stream_last tokens l capacity hroom
      rw [← hstream] at hdec
      obtain ⟨entries, -, htake, -, hbytes⟩ := hrep _ _ hdec
      have hfront : entries = streamEntries 0 tokens l := by
        apply List.map_injective_iff.mpr (some_injective _)
        rw [← htake]
        exact (decode_stream_last_entries hstream hroom hdec).2
      rw [← stream_bytes_iff tokens l (by omega), ← hfront]
      exact hbytes tokens (some l) hstream
  · intro hcond n out hdec
    have hfits : ∀ tokens last, lz4s = encodeStream tokens last → matchCount tokens < capacity := by
      intro tokens last hstream
      by_contra hge
      obtain ⟨out', hout, -⟩ := decode_stream_full tokens (last.elim [] Lz4sLast.encode)
        capacity hcap (by omega)
      rw [show encodeTokens tokens ++ last.elim [] Lz4sLast.encode = lz4s from hstream.symm,
        hdec] at hout
      cases hout
    obtain ⟨e, he⟩ | ⟨tokens, last, hstream, hroom⟩ | ⟨tokens, rest, hsplit, -, hfull⟩ |
      ⟨-, -, hzero, -⟩ := decode_cases lz4s capacity
    · rw [he] at hdec
      cases hdec
    · obtain ⟨hlast, -⟩ := hcond tokens last hstream hroom
      obtain ⟨l, rfl⟩ := isSome_iff_exists.mp hlast
      obtain ⟨hn, htake⟩ := decode_stream_last_entries hstream hroom hdec
      refine ⟨streamEntries 0 tokens l, by rw [streamEntries_length, hn], htake,
        ⟨tokens, some l, hstream⟩, ?_⟩
      intro tokens' last' hstream'
      have hroom' := hfits tokens' last' hstream'
      obtain ⟨hlast', hmatch'⟩ := hcond tokens' last' hstream' hroom'
      obtain ⟨l', rfl⟩ := isSome_iff_exists.mp hlast'
      have hlit' := literalTotal_le tokens' (some l')
      rw [← hstream'] at hlit'
      have hfront : streamEntries 0 tokens l = streamEntries 0 tokens' l' := by
        apply List.map_injective_iff.mpr (some_injective _)
        rw [← htake]
        exact (decode_stream_last_entries hstream' hroom' hdec).2
      rw [hfront]
      exact (stream_bytes_iff tokens' l' (by omega)).mpr hmatch'
    · obtain ⟨out', hout, -⟩ := decode_stream_full tokens rest capacity hcap hfull
      rw [← hsplit, hdec] at hout
      cases hout
    · omega

/-- A match length of 65536 is stored as 0. -/
theorem decodeLz4s_loses_long_match :
    ¬ReportsAllData (encodeStream [⟨[], 1, 65534⟩] (some ⟨[0x61], 0⟩)) 2 := by
  intro h
  have hsize : (encodeStream [⟨[], 1, 65534⟩] (some ⟨[0x61], 0⟩)).length < 2 ^ 31 := by
    simp only [encodeStream, encodeTokens, List.flatMap_cons, List.flatMap_nil, List.append_nil,
      List.length_append, encode_length, elim_some, Lz4sLast.encode, lengthTail, lengthChain]
    norm_num
  have hcond := (decodeLz4s_reports_all_data_iff _ hsize 2 (by decide)).mp h
    [⟨[], 1, 65534⟩] (some ⟨[0x61], 0⟩) rfl (by decide)
  exact absurd (hcond.2 ⟨[], 1, 65534⟩ (by simp)) (by decide)

/-- One literal and a match at the very end: two entries are reported, one is written. -/
theorem decodeLz4s_reports_unwritten_entry : ¬ReportsAllData [0x11, 0x61, 0x01, 0x00] 4 := by
  intro h
  obtain ⟨entries, hlen, htake, -⟩ := h 2 [some ⟨1, 1, 3⟩, none, none, none] (by decide)
  have hmem : none ∈ entries.map some := by
    rw [← htake]
    decide
  simp at hmem

def StaysInBounds : Prop :=
  ∃ r, decodeLz4sToZstdSequence lz4s capacity = .ok r ∧
    (¬WellFormedLz4s lz4s → r.count = none)

lemma tokens_not_wellFormed :
    ¬WellFormedLz4s (encodeStream tokens none) := by
  rintro ⟨tokens', l, hstream⟩
  have hdec := decode_stream_none tokens (matchCount tokens + matchCount tokens' + 1) (.inr (by omega))
  obtain ⟨hn, htake⟩ := decode_stream_last_entries hstream (by omega) hdec
  have hun := filledArray_unwritten (emitAll 0 tokens).1 (matchCount tokens + matchCount tokens' + 1)
    (by rw [emitAll_length]; omega)
  have hget := congrArg (fun xs => xs[matchCount tokens]?) htake
  simp only [getElem?_take, Nat.lt_succ_self, if_true, getElem?_map] at hget
  rw [emitAll_length] at hun
  rw [hun, getElem?_eq_getElem (by rw [streamEntries_length]; omega)] at hget
  simp at hget

/-- The exact inputs on which the decoder stays in bounds: the array has an entry, and
the input is well formed or already its first complete tokens fill the array. -/
theorem decodeLz4s_stays_in_bounds_iff (lz4s : List UInt8) (capacity : Nat) :
    StaysInBounds lz4s capacity ↔
      1 ≤ capacity ∧ (WellFormedLz4s lz4s ∨
        ∃ tokens rest, lz4s = encodeTokens tokens ++ rest ∧ capacity ≤ matchCount tokens) := by
  constructor
  · rintro ⟨r, hdec, hmal⟩
    obtain ⟨e, he⟩ | ⟨tokens, last, rfl, hroom⟩ | ⟨tokens, rest, hsplit, hcap, hfull⟩ |
      ⟨tokens, rfl, hzero, hm⟩ := decode_cases lz4s capacity
    · rw [he] at hdec
      cases hdec
    · refine ⟨by omega, .inl ?_⟩
      cases last with
      | none =>
        have hcount := hmal (tokens_not_wellFormed tokens)
        rw [decode_stream_none tokens capacity (.inr hroom)] at hdec
        cases hdec
        cases hcount
      | some l => exact ⟨tokens, l, rfl⟩
    · exact ⟨hcap, .inr ⟨tokens, rest, hsplit, hfull⟩⟩
    · have hcount := hmal (tokens_not_wellFormed tokens)
      rw [decode_stream_none tokens capacity (.inl hm)] at hdec
      cases hdec
      cases hcount
  · rintro ⟨hcap, ⟨tokens, l, rfl⟩ | ⟨tokens, rest, rfl, hfull⟩⟩
    · by_cases hroom : matchCount tokens < capacity
      · exact ⟨_, decode_stream_last tokens l capacity hroom, fun h => absurd ⟨tokens, l, rfl⟩ h⟩
      · obtain ⟨out, hout, -⟩ := decode_stream_full tokens l.encode capacity hcap (by omega)
        exact ⟨_, hout, fun _ => rfl⟩
    · obtain ⟨out, hout, -⟩ := decode_stream_full tokens rest capacity hcap hfull
      exact ⟨_, hout, fun _ => rfl⟩

/-- A lone token byte that announces a long literal run: its length is read past the end. -/
theorem decodeLz4s_reads_past_end : ¬StaysInBounds [0xF0] 4 := by
  rintro ⟨r, hdec, -⟩
  have hfault : decodeLz4sToZstdSequence [0xF0] 4 = .error (.readPastEnd 1) := by decide
  rw [hfault] at hdec
  cases hdec

end Vesal.Proofs
