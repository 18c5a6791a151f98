import Vesal.Proofs.Lz4sTokens

/-! # The lz4s loop over whole streams -/

namespace Vesal.Proofs

open List

def emitAll : Nat → List Lz4sToken → List ZstdSequence × Nat
  | hist, [] => ([], hist)
  | hist, t :: rest =>
    if t.matchCode = 0 then emitAll ((hist + t.literals.length) % 2 ^ 32) rest
    else (emittedEntry hist t :: (emitAll 0 rest).1, (emitAll 0 rest).2)

def filledArray (entries : List ZstdSequence) (capacity : Nat) : SequenceArray :=
  entries.map some ++ List.replicate (capacity - entries.length) none

def loopState (ip hist : Nat) (entries : List ZstdSequence) (capacity : Nat) : DecodeState :=
  ⟨ip, hist, entries.length, filledArray entries capacity⟩

variable {entries : List ZstdSequence} {capacity : Nat}

lemma filledArray_length (h : entries.length ≤ capacity) : (filledArray entries capacity).length = capacity := by
  simp [filledArray]
  omega

lemma filledArray_set (e : ZstdSequence) (h : entries.length < capacity) :
    (filledArray entries capacity).set entries.length (some e) =
      filledArray (entries ++ [e]) capacity := by
  obtain ⟨d, hd⟩ : ∃ d, capacity - entries.length = d + 1 := ⟨capacity - entries.length - 1, by omega⟩
  have hd' : capacity - (entries ++ [e]).length = d := by
    simp only [length_append, length_cons, length_nil]
    omega
  simp only [filledArray, hd, hd', replicate_succ, map_append, map_cons,
    map_nil, append_assoc, cons_append, nil_append]
  simp

lemma filledArray_take (capacity : Nat) :
    (filledArray entries capacity).take entries.length = entries.map some := by
  apply take_left'
  simp

lemma emitAll_length (hist : Nat) (tokens : List Lz4sToken) :
    (emitAll hist tokens).1.length = matchCount tokens := by
  induction tokens generalizing hist with
  | nil => rfl
  | cons t rest ih =>
    by_cases hm : t.matchCode = 0
    · rw [emitAll, if_pos hm, ih]
      simp [matchCount, hm]
    · rw [emitAll, if_neg hm, length_cons, ih]
      simp [matchCount, hm]

variable {lz4s rest : List UInt8} {ip : Nat}

lemma drop_lt_length {xs : List UInt8} (h : lz4s.drop ip = xs ++ rest) (hx : 0 < xs.length) :
    ip < lz4s.length ∧ 0 < lz4s.length := by
  have hl := congrArg List.length h
  rw [length_drop, length_append] at hl
  omega

variable {hist fuel : Nat} {t : Lz4sToken}

lemma decodeLoop_carry (h : lz4s.drop ip = t.encode ++ rest) (hhist : hist < 2 ^ 32) (hm : t.matchCode = 0) :
    decodeLoop lz4s capacity (fuel + 1) (loopState ip hist entries capacity) =
      decodeLoop lz4s capacity fuel (loopState (ip + t.encode.length)
        ((hist + t.literals.length) % 2 ^ 32) entries capacity) := by
  have hip := drop_lt_length h (by rw [encode_length]; omega)
  rw [decodeLoop, if_pos (by exact hip), decodeToken_token t h hhist, if_pos hm]
  rfl

lemma decodeLoop_match (h : lz4s.drop ip = t.encode ++ rest) (hhist : hist < 2 ^ 32) (hm : t.matchCode ≠ 0)
    (hroom : entries.length < capacity) :
    decodeLoop lz4s capacity (fuel + 1) (loopState ip hist entries capacity) =
      if capacity ≤ entries.length + 1 then
        .ok ⟨none, filledArray (entries ++ [emittedEntry hist t]) capacity⟩
      else decodeLoop lz4s capacity fuel (loopState (ip + t.encode.length) 0
        (entries ++ [emittedEntry hist t]) capacity) := by
  have hip := drop_lt_length h (by rw [encode_length]; omega)
  have hroom' : entries.length < (filledArray entries capacity).length := by
    rw [filledArray_length hroom.le]
    exact hroom
  rw [decodeLoop, if_pos (by exact hip), decodeToken_token t h hhist, if_neg hm]
  simp only [loopState, hroom', if_true, emitMatch, filledArray_set _ hroom]
  by_cases hc : capacity ≤ entries.length + 1
  · simp only [hc, if_true]
  · simp only [hc, if_false, length_append, length_cons, length_nil]

lemma decodeLoop_tokens (lz4s : List UInt8) (capacity fuel : Nat) (tokens : List Lz4sToken)
    (rest : List UInt8) (ip hist : Nat) (entries : List ZstdSequence)
    (h : lz4s.drop ip = encodeTokens tokens ++ rest) (hhist : hist < 2 ^ 32)
    (hroom : matchCount tokens = 0 ∨ entries.length + matchCount tokens < capacity) :
    decodeLoop lz4s capacity (fuel + tokens.length) (loopState ip hist entries capacity) =
      decodeLoop lz4s capacity fuel (loopState (ip + (encodeTokens tokens).length)
        (emitAll hist tokens).2 (entries ++ (emitAll hist tokens).1) capacity) := by
  induction tokens generalizing ip hist entries with
  | nil => simp [encodeTokens, emitAll]
  | cons t tokens ih =>
    have ht : lz4s.drop ip = t.encode ++ (encodeTokens tokens ++ rest) := by
      rw [h]
      simp [encodeTokens]
    have hnext := drop_add_length _ ht
    have hlen : (encodeTokens (t :: tokens)).length =
        t.encode.length + (encodeTokens tokens).length := by simp [encodeTokens]
    rw [length_cons, ← Nat.add_assoc, hlen, ← Nat.add_assoc]
    by_cases hm : t.matchCode = 0
    · have hcount : matchCount (t :: tokens) = matchCount tokens := by simp [matchCount, hm]
      rw [hcount] at hroom
      rw [decodeLoop_carry ht hhist hm, ih _ _ _ hnext (Nat.mod_lt _ (by norm_num)) hroom]
      simp only [emitAll, hm, if_true]
    · have hcount : matchCount (t :: tokens) = matchCount tokens + 1 := by simp [matchCount, hm]
      rw [decodeLoop_match ht hhist hm (by omega), if_neg (by omega),
        ih _ _ _ hnext (by norm_num) (by simp; omega)]
      simp only [emitAll, hm, if_false, append_assoc, cons_append, nil_append]

lemma decodeLoop_full (lz4s : List UInt8) (capacity fuel : Nat) (tokens : List Lz4sToken)
    (rest : List UInt8) (ip hist : Nat) (entries : List ZstdSequence)
    (h : lz4s.drop ip = encodeTokens tokens ++ rest) (hhist : hist < 2 ^ 32)
    (hroom : entries.length < capacity) (hfull : capacity ≤ entries.length + matchCount tokens) :
    ∃ out, decodeLoop lz4s capacity (fuel + tokens.length) (loopState ip hist entries capacity) =
      .ok ⟨none, out⟩ ∧ out.length = capacity := by
  induction tokens generalizing ip hist entries with
  | nil =>
    have : matchCount [] = 0 := rfl
    omega
  | cons t tokens ih =>
    have ht : lz4s.drop ip = t.encode ++ (encodeTokens tokens ++ rest) := by
      rw [h]
      simp [encodeTokens]
    have hnext := drop_add_length _ ht
    rw [length_cons, ← Nat.add_assoc]
    by_cases hm : t.matchCode = 0
    · have hcount : matchCount (t :: tokens) = matchCount tokens := by simp [matchCount, hm]
      rw [decodeLoop_carry ht hhist hm]
      exact ih _ _ _ hnext (Nat.mod_lt _ (by norm_num)) hroom (by omega)
    · have hcount : matchCount (t :: tokens) = matchCount tokens + 1 := by simp [matchCount, hm]
      rw [decodeLoop_match ht hhist hm hroom]
      by_cases hc : capacity ≤ entries.length + 1
      · rw [if_pos hc]
        exact ⟨_, rfl, filledArray_length (by simp; omega)⟩
      · rw [if_neg hc]
        exact ih _ _ _ hnext (by norm_num) (by simp; omega) (by simp; omega)

variable (tokens : List Lz4sToken)

lemma tokens_length_le : tokens.length ≤ (encodeTokens tokens).length := by
  induction tokens with
  | nil => simp
  | cons t tokens ih =>
    have hlen : (encodeTokens (t :: tokens)).length =
        t.encode.length + (encodeTokens tokens).length := by simp [encodeTokens]
    rw [hlen, encode_length, length_cons]
    omega

lemma initial_loopState (capacity : Nat) :
    (⟨0, 0, 0, replicate capacity none⟩ : DecodeState) = loopState 0 0 [] capacity := rfl

lemma decode_after_tokens (rest : List UInt8) (capacity : Nat)
    (hroom : matchCount tokens = 0 ∨ matchCount tokens < capacity) :
    ∃ fuel, decodeLz4sToZstdSequence (encodeTokens tokens ++ rest) capacity =
      decodeLoop (encodeTokens tokens ++ rest) capacity (fuel + 1)
        (loopState (encodeTokens tokens).length (emitAll 0 tokens).2 (emitAll 0 tokens).1
          capacity) := by
  have hle := tokens_length_le tokens
  refine ⟨(encodeTokens tokens ++ rest).length - tokens.length, ?_⟩
  have hfuel : (encodeTokens tokens ++ rest).length + 1 =
      (encodeTokens tokens ++ rest).length - tokens.length + 1 + tokens.length := by
    rw [length_append]
    omega
  unfold decodeLz4sToZstdSequence
  rw [hfuel, initial_loopState, decodeLoop_tokens _ capacity _ tokens rest 0 0 [] (by simp)
    (by norm_num) (by simpa using hroom)]
  simp

def streamEntries (hist : Nat) (tokens : List Lz4sToken) (l : Lz4sLast) : List ZstdSequence :=
  (emitAll hist tokens).1 ++ [lastEntry (emitAll hist tokens).2 l]

lemma streamEntries_length (hist : Nat) (tokens : List Lz4sToken) (l : Lz4sLast) :
    (streamEntries hist tokens l).length = matchCount tokens + 1 := by
  simp [streamEntries, emitAll_length]

lemma decode_stream_last (l : Lz4sLast) (capacity : Nat)
    (hroom : matchCount tokens < capacity) :
    decodeLz4sToZstdSequence (encodeStream tokens (some l)) capacity =
      .ok ⟨some (matchCount tokens + 1), filledArray (streamEntries 0 tokens l) capacity⟩ := by
  obtain ⟨fuel, hf⟩ := decode_after_tokens tokens l.encode capacity (.inr hroom)
  have hlen := emitAll_length 0 tokens
  have hdrop : (encodeTokens tokens ++ l.encode).drop (encodeTokens tokens).length = l.encode :=
    drop_left
  have hip := drop_lt_length (hdrop.trans (append_nil _).symm) (by simp [Lz4sLast.encode])
  have hlt : (emitAll 0 tokens).1.length < (filledArray (emitAll 0 tokens).1 capacity).length := by
    rw [filledArray_length (by omega)]
    omega
  simp only [encodeStream, Option.elim_some]
  rw [hf, decodeLoop, if_pos (by exact hip)]
  rw [decodeToken_last l hdrop]
  simp only [loopState, hlt, if_true, decodeReturn, ne_eq, not_true_eq_false, if_false]
  rw [filledArray_set _ (by omega), hlen]
  rfl

lemma decode_stream_none (capacity : Nat)
    (hroom : matchCount tokens = 0 ∨ matchCount tokens < capacity) :
    decodeLz4sToZstdSequence (encodeStream tokens none) capacity =
      .ok ⟨some (matchCount tokens + 1), filledArray (emitAll 0 tokens).1 capacity⟩ := by
  obtain ⟨fuel, hf⟩ := decode_after_tokens tokens [] capacity hroom
  have hlen := emitAll_length 0 tokens
  simp only [encodeStream, Option.elim_none]
  rw [hf, decodeLoop]
  simp [loopState, decodeReturn, hlen]

lemma decode_stream_full (rest : List UInt8) (capacity : Nat)
    (hcap : 1 ≤ capacity) (hfull : capacity ≤ matchCount tokens) :
    ∃ out, decodeLz4sToZstdSequence (encodeTokens tokens ++ rest) capacity = .ok ⟨none, out⟩ ∧
      out.length = capacity := by
  have hle := tokens_length_le tokens
  have hfuel : (encodeTokens tokens ++ rest).length + 1 =
      (encodeTokens tokens ++ rest).length - tokens.length + 1 + tokens.length := by
    rw [length_append]
    omega
  unfold decodeLz4sToZstdSequence
  rw [hfuel, initial_loopState]
  exact decodeLoop_full _ capacity _ tokens rest 0 0 [] (by simp) (by norm_num) hcap
    (by simpa using hfull)

lemma specSequences_eq_streamEntries (hist : Nat) (tokens : List Lz4sToken) (l : Lz4sLast)
    (hmatch : ∀ t ∈ tokens, t.matchLength ≤ 65535)
    (hlit : hist + literalTotal tokens (some l) < 2 ^ 32) :
    specSequences hist tokens l = streamEntries hist tokens l := by
  unfold streamEntries
  induction tokens generalizing hist with
  | nil =>
    simp only [literalTotal, map_nil, sum_nil, Option.elim_some] at hlit
    simp only [specSequences, emitAll, lastEntry, nil_append]
    rw [Nat.mod_eq_of_lt (by omega), Nat.add_comm]
  | cons t tokens ih =>
    have hrest : ∀ t' ∈ tokens, t'.matchLength ≤ 65535 := fun t' h => hmatch t' (by simp [h])
    have htotal : literalTotal (t :: tokens) (some l) =
        t.literals.length + literalTotal tokens (some l) := by
      simp [literalTotal, Nat.add_assoc]
    by_cases hm : t.matchCode = 0
    · simp only [specSequences, emitAll, hm, if_true]
      rw [Nat.mod_eq_of_lt (by omega)]
      exact ih _ hrest (by omega)
    · have hlen := hmatch t (by simp)
      simp only [Lz4sToken.matchLength, hm, if_false] at hlen
      simp only [specSequences, emitAll, hm, if_false, cons_append, ih 0 hrest (by omega),
        emittedEntry, Lz4sToken.matchLength]
      rw [Nat.mod_eq_of_lt (show t.literals.length + hist < 2 ^ 32 by omega),
        Nat.mod_eq_of_lt (show t.matchCode + lz4MinMatch < 2 ^ 16 by omega), Nat.add_comm]

/-- On every well-formed stream the decoder returns the specified sequence list, or the
error code if the list does not fit. No entry beyond the capacity is written: such a
write would be a fault. -/
theorem decodeLz4s_well_formed (tokens : List Lz4sToken) (l : Lz4sLast) (capacity : Nat)
    (hmatch : ∀ t ∈ tokens, t.matchLength ≤ 65535)
    (hlit : literalTotal tokens (some l) < 2 ^ 32) :
    (matchCount tokens < capacity →
      ∃ out, decodeLz4sToZstdSequence (encodeStream tokens (some l)) capacity =
          .ok ⟨some (matchCount tokens + 1), out⟩ ∧
        out.take (matchCount tokens + 1) = (specSequences 0 tokens l).map some) ∧
    (1 ≤ capacity → capacity ≤ matchCount tokens →
      ∃ out, decodeLz4sToZstdSequence (encodeStream tokens (some l)) capacity = .ok ⟨none, out⟩ ∧
        out.length = capacity) := by
  constructor
  · intro hroom
    refine ⟨_, decode_stream_last tokens l capacity hroom, ?_⟩
    rw [specSequences_eq_streamEntries 0 tokens l hmatch (by omega), ← filledArray_take capacity,
      streamEntries_length]
  · intro hcap hfull
    exact decode_stream_full tokens l.encode capacity hcap hfull

theorem decodeLz4s_well_formed_two_tokens :
    ∃ out, decodeLz4sToZstdSequence [0x11, 0x61, 0x07, 0x00, 0x10, 0x62] 4 = .ok ⟨some 2, out⟩ ∧
      out.take 2 = [some ⟨7, 1, 3⟩, some ⟨0, 1, 0⟩] :=
  (decodeLz4s_well_formed [⟨[0x61], 7, 1⟩] ⟨[0x62], 0⟩ 4 (by decide) (by decide)).1 (by decide)

end Vesal.Proofs
