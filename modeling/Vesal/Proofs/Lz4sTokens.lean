import Vesal.Lz4s

/-! # One pass of the lz4s loop -/

namespace Vesal.Proofs

open List UInt8

lemma drop_add_length {α : Type} {l rest : List α} {i : Nat} (xs : List α)
    (h : l.drop i = xs ++ rest) :
    l.drop (i + xs.length) = rest := by
  rw [← drop_drop, h, drop_left]

variable {lz4s rest : List UInt8} {ip : Nat}

lemma readByte_of_drop {b : UInt8} (h : lz4s.drop ip = b :: rest) : readByte lz4s ip = .ok b := by
  have hget : lz4s[ip]? = some b := by
    rw [← head?_drop, h]
    rfl
  simp [readByte, hget]

lemma readByte_past_end (h : lz4s.drop ip = []) :
    readByte lz4s ip = .error (.readPastEnd ip) := by
  have hget : lz4s[ip]? = none := by
    rw [← head?_drop, h]
    rfl
  simp [readByte, hget]

lemma read16_of_drop {offset : UInt16} (h : lz4s.drop ip = offsetBytes offset ++ rest) :
    read16 lz4s ip = .ok offset.toNat := by
  have hlt := offset.toNat_lt
  have h1 : lz4s.drop (ip + 1) = ofNat (offset.toNat / 256) :: rest :=
    drop_add_length [ofNat (offset.toNat % 256)] h
  unfold read16
  rw [readByte_of_drop h, readByte_of_drop h1]
  simp only [Bind.bind, Except.bind, Pure.pure, Except.pure, toNat_ofNat',
    Nat.shiftLeft_eq]
  congr 1
  omega

lemma getLength_chain (k : Nat) (rest : List UInt8) (ip length : Nat) :
    getLength (lengthChain k ++ rest) ip length =
      .ok (ip + (lengthChain k).length, length + k) := by
  unfold lengthChain
  generalize hq : k / 255 = q
  induction q generalizing k ip length with
  | zero =>
    have hne : ofNat (k % 255) ≠ 255 := by
      intro h
      have := congrArg toNat h
      simp at this
      omega
    simp [getLength, hne]
    omega
  | succ q ih =>
    have hstep := ih (k - 255) (ip + 1) (length + 255) (by omega)
    have hmod : (k - 255) % 255 = k % 255 := by omega
    rw [hmod] at hstep
    simp only [replicate_succ, cons_append, getLength, if_true]
    rw [show (255 : UInt8).toNat = 255 from rfl, hstep]
    simp only [length_append, length_cons, Except.ok.injEq, Prod.mk.injEq]
    omega

lemma getLength_cases (xs : List UInt8) (ip length : Nat) :
    (∃ k rest, xs = lengthChain k ++ rest) ∨
      ∃ e, getLength xs ip length = .error e := by
  induction xs generalizing ip length with
  | nil => exact .inr ⟨_, rfl⟩
  | cons s xs ih =>
    by_cases hs : s = 255
    · rcases ih (ip + 1) (length + s.toNat) with ⟨k, rest, rfl⟩ | ⟨e, he⟩
      · refine .inl ⟨k + 255, rest, ?_⟩
        have hdiv : (k + 255) / 255 = k / 255 + 1 := by omega
        have hmod : (k + 255) % 255 = k % 255 := by omega
        simp [lengthChain, hs, hdiv, hmod, replicate_succ]
      · exact .inr ⟨e, by simp only [getLength, hs, if_true] at he ⊢; exact he⟩
    · have hlt : s.toNat < 255 := by
        have := s.toNat_lt
        have hne : s.toNat ≠ 255 := fun h => hs (UInt8.toNat_inj.mp h)
        omega
      refine .inl ⟨s.toNat, xs, ?_⟩
      simp [lengthChain, Nat.div_eq_of_lt hlt, Nat.mod_eq_of_lt hlt]

variable {n high : Nat}

lemma extendLength_tail (h : lz4s.drop ip = lengthTail n ++ rest) :
    extendLength lz4s ip (lengthNibble n) 15 = .ok (ip + (lengthTail n).length, n) := by
  unfold extendLength lengthNibble
  unfold lengthTail at h ⊢
  by_cases hn : n < 15
  · have hne : min n 15 ≠ 15 := by omega
    simp [hn, hne]
    omega
  · rw [if_neg hn] at h ⊢
    have he : min n 15 = 15 := by omega
    rw [if_pos he, h, getLength_chain, he]
    congr 2
    omega

lemma extendLength_cases (lz4s : List UInt8) (ip nibble : Nat) (hn : nibble < 16) :
    (∃ n rest, nibble = lengthNibble n ∧ lz4s.drop ip = lengthTail n ++ rest) ∨
      ∃ e, extendLength lz4s ip nibble 15 = .error e := by
  by_cases h15 : nibble = 15
  · subst h15
    rcases getLength_cases (lz4s.drop ip) ip 15 with ⟨k, rest, hk⟩ | ⟨e, he⟩
    · exact .inl ⟨15 + k, rest, by simp [lengthNibble], by simpa [lengthTail] using hk⟩
    · exact .inr ⟨e, by simpa [extendLength] using he⟩
  · refine .inl ⟨nibble, lz4s.drop ip, ?_, ?_⟩
    · unfold lengthNibble
      omega
    · rw [lengthTail, if_pos (by omega), nil_append]

lemma lengthNibble_lt (n : Nat) : lengthNibble n < 16 := by
  unfold lengthNibble
  omega

lemma offsetBytes_pair (lo hi : UInt8) :
    offsetBytes (UInt16.ofNat (lo.toNat + 256 * hi.toNat)) = [lo, hi] := by
  have hlo := lo.toNat_lt
  have hhi := hi.toNat_lt
  have hnat : (UInt16.ofNat (lo.toNat + 256 * hi.toNat)).toNat = lo.toNat + 256 * hi.toNat := by
    rw [UInt16.toNat_ofNat']
    omega
  rw [offsetBytes, hnat, show (lo.toNat + 256 * hi.toNat) % 256 = lo.toNat by omega,
    show (lo.toNat + 256 * hi.toNat) / 256 = hi.toNat by omega, UInt8.ofNat_toNat,
    UInt8.ofNat_toNat]

variable {low capacity : Nat} {st : DecodeState}

lemma tokenByte_high (hh : high < 16) (hl : low < 16) :
    (tokenByte high low).toNat >>> matchLengthBits = high := by
  rw [tokenByte, toNat_ofNat', Nat.shiftRight_eq_div_pow]
  unfold matchLengthBits
  omega

lemma tokenByte_low (_hh : high < 16) (hl : low < 16) :
    (tokenByte high low).toNat &&& matchLengthMask = low := by
  rw [tokenByte, toNat_ofNat']
  unfold matchLengthMask
  rw [Nat.and_two_pow_sub_one_eq_mod]
  unfold matchLengthBits
  omega

lemma tokenByte_surjective (b : UInt8) :
    ∃ high low, high < 16 ∧ low < 16 ∧ b = tokenByte high low := by
  have hlt := b.toNat_lt
  refine ⟨b.toNat / 16, b.toNat % 16, by omega, by omega, UInt8.toNat_inj.mp ?_⟩
  rw [tokenByte, UInt8.toNat_ofNat']
  omega

lemma decodeToken_literals {tl r : List UInt8} (hl : low < 16)
    (hb : lz4s.drop st.ip = tokenByte (lengthNibble n) low :: tl) (hr : lz4s.drop (st.ip + 1) = lengthTail n ++ r) :
    decodeToken lz4s capacity st =
      if st.ip + 1 + (lengthTail n).length + n = lz4s.length then
        (writeSequence st.zstdSequence st.seqsIdx
            ⟨0, (n + st.histLiteralLen) % 2 ^ 32, 0⟩).map fun out =>
          .endOfSequence { st with
            ip := st.ip + 1 + (lengthTail n).length + n
            zstdSequence := out }
      else decodeMatch lz4s capacity st (tokenByte (lengthNibble n) low) n
        (st.ip + 1 + (lengthTail n).length + n) := by
  unfold decodeToken
  rw [readByte_of_drop hb]
  simp only [Bind.bind, Except.bind, Pure.pure, Except.pure,
    tokenByte_high (lengthNibble_lt n) hl]
  rw [show runMask = 15 from rfl, extendLength_tail hr]
  dsimp only
  split
  · cases writeSequence st.zstdSequence st.seqsIdx ⟨0, (n + st.histLiteralLen) % 2 ^ 32, 0⟩ <;>
      rfl
  · rfl

def carryLiterals (st : DecodeState) (t : Lz4sToken) : DecodeState :=
  { st with
    ip := st.ip + t.encode.length
    histLiteralLen := (st.histLiteralLen + t.literals.length) % 2 ^ 32 }

def emittedEntry (hist : Nat) (t : Lz4sToken) : ZstdSequence :=
  ⟨t.offset.toNat, (t.literals.length + hist) % 2 ^ 32, (t.matchCode + lz4MinMatch) % 2 ^ 16⟩

def emitMatch (st : DecodeState) (t : Lz4sToken) : DecodeState :=
  ⟨st.ip + t.encode.length, 0, st.seqsIdx + 1,
    st.zstdSequence.set st.seqsIdx (some (emittedEntry st.histLiteralLen t))⟩

lemma encode_length (t : Lz4sToken) : t.encode.length = 1 + (lengthTail t.literals.length).length +
    t.literals.length + 2 + (lengthTail t.matchCode).length := by
  simp [Lz4sToken.encode, offsetBytes]
  omega

lemma decodeToken_token (t : Lz4sToken) (h : lz4s.drop st.ip = t.encode ++ rest)
    (hhist : st.histLiteralLen < 2 ^ 32) :
    decodeToken lz4s capacity st =
      if t.matchCode = 0 then .ok (.next (carryLiterals st t))
      else if st.seqsIdx < st.zstdSequence.length then
        .ok (if capacity ≤ st.seqsIdx + 1 then .capacityReached (emitMatch st t)
          else .next (emitMatch st t))
      else .error (.writePastEnd st.seqsIdx) := by
  have htok : lz4s.drop st.ip = tokenByte (lengthNibble t.literals.length)
      (lengthNibble t.matchCode) :: (lengthTail t.literals.length ++ (t.literals ++
        (offsetBytes t.offset ++ (lengthTail t.matchCode ++ rest)))) := by
    rw [h]
    simp [Lz4sToken.encode]
  have h1 : lz4s.drop (st.ip + 1) = _ :=
    drop_add_length [tokenByte (lengthNibble t.literals.length)
      (lengthNibble t.matchCode)] htok
  have h3 := drop_add_length _ (drop_add_length _ h1)
  have h4 : lz4s.drop (st.ip + 1 + (lengthTail t.literals.length).length + t.literals.length + 2) =
      lengthTail t.matchCode ++ rest := drop_add_length _ h3
  have hnotEnd : st.ip + 1 + (lengthTail t.literals.length).length + t.literals.length ≠
      lz4s.length := by
    intro he
    rw [he, drop_length] at h3
    simp [offsetBytes] at h3
  have hip : st.ip + 1 + (lengthTail t.literals.length).length + t.literals.length + 2 +
      (lengthTail t.matchCode).length = st.ip + t.encode.length := by
    rw [encode_length]
    omega
  rw [decodeToken_literals (lengthNibble_lt _) htok h1, if_neg hnotEnd]
  unfold decodeMatch
  simp only [Bind.bind, Except.bind, Pure.pure, Except.pure, read16_of_drop h3,
    tokenByte_low (lengthNibble_lt _) (lengthNibble_lt _)]
  rw [show matchLengthMask = 15 from rfl, extendLength_tail h4]
  simp only [hip]
  by_cases hm : t.matchCode = 0
  · have hlit : (if 0 < t.literals.length then (st.histLiteralLen + t.literals.length) % 2 ^ 32
        else st.histLiteralLen) = (st.histLiteralLen + t.literals.length) % 2 ^ 32 := by
      by_cases hl : 0 < t.literals.length
      · rw [if_pos hl]
      · rw [if_neg hl]
        omega
    simp only [hm, ne_eq, not_true_eq_false, if_false, if_true, carryLiterals, hlit]
  · simp only [ne_eq, hm, not_false_eq_true, if_true, if_false, writeSequence]
    by_cases hw : st.seqsIdx < st.zstdSequence.length
    · simp only [hw, if_true, emitMatch, emittedEntry]
      split <;> rfl
    · simp only [hw, if_false]

def lastEntry (hist : Nat) (l : Lz4sLast) : ZstdSequence :=
  ⟨0, (l.literals.length + hist) % 2 ^ 32, 0⟩

lemma decodeToken_last (l : Lz4sLast) (h : lz4s.drop st.ip = l.encode) :
    decodeToken lz4s capacity st =
      if st.seqsIdx < st.zstdSequence.length then
        .ok (.endOfSequence { st with
          ip := lz4s.length
          zstdSequence := st.zstdSequence.set st.seqsIdx
            (some (lastEntry st.histLiteralLen l)) })
      else .error (.writePastEnd st.seqsIdx) := by
  have htok : lz4s.drop st.ip = tokenByte (lengthNibble l.literals.length) l.lowNibble.val ::
      (lengthTail l.literals.length ++ l.literals) := h
  have h1 : lz4s.drop (st.ip + 1) = lengthTail l.literals.length ++ l.literals :=
    drop_add_length [tokenByte (lengthNibble l.literals.length) l.lowNibble.val] htok
  have hend : st.ip + 1 + (lengthTail l.literals.length).length + l.literals.length =
      lz4s.length := by
    have hl := congrArg List.length htok
    simp only [length_drop, length_cons, length_append] at hl
    omega
  rw [decodeToken_literals l.lowNibble.isLt htok h1, if_pos hend, hend]
  unfold writeSequence
  split <;> rfl

lemma token_cases (lz4s : List UInt8) (ip : Nat) (hip : ip < lz4s.length) :
    (∃ (t : Lz4sToken) (rest : List UInt8), lz4s.drop ip = t.encode ++ rest) ∨
    (∃ l : Lz4sLast, lz4s.drop ip = l.encode) ∨
    ∀ capacity st, st.ip = ip → ∃ e, decodeToken lz4s capacity st = .error e := by
  obtain ⟨b, tl, hb⟩ : ∃ b tl, lz4s.drop ip = b :: tl := by
    cases hd : lz4s.drop ip with
    | nil => rw [drop_eq_nil_iff] at hd; omega
    | cons b tl => exact ⟨b, tl, rfl⟩
  obtain ⟨high, low, hh, hl, rfl⟩ := tokenByte_surjective b
  have h1 : lz4s.drop (ip + 1) = tl := drop_add_length [tokenByte high low] hb
  rcases extendLength_cases lz4s (ip + 1) high hh with ⟨n, r, rfl, hr⟩ | ⟨e, he⟩
  · have h2 := drop_add_length _ hr
    have hr' : tl = lengthTail n ++ r := h1.symm.trans hr
    have hlen : lz4s.length = ip + 1 + (lengthTail n).length + r.length := by
      have := congrArg List.length hb
      rw [length_drop, hr', length_cons, length_append] at this
      omega
    -- the literal run: beyond the end of the input, exactly up to it, or inside
    rcases Nat.lt_trichotomy r.length n with hlt | heq | hgt
    · refine .inr (.inr fun capacity st hst =>
        ⟨.readPastEnd (ip + 1 + (lengthTail n).length + n), ?_⟩)
      subst hst
      have hpast : lz4s.drop (st.ip + 1 + (lengthTail n).length + n) = [] := by
        rw [drop_eq_nil_iff]
        omega
      rw [decodeToken_literals hl hb hr, if_neg (by omega)]
      simp only [decodeMatch, read16, readByte_past_end hpast, Bind.bind, Except.bind]
    · refine .inr (.inl ⟨⟨r, ⟨low, hl⟩⟩, ?_⟩)
      rw [hb, hr']
      simp only [Lz4sLast.encode, heq]
    · have h3 : lz4s.drop (ip + 1 + (lengthTail n).length + n) = r.drop n := by
        rw [← drop_drop, h2]
      have htake : (r.take n).length = n := by
        rw [length_take]
        omega
      cases hd : r.drop n with
      | nil => rw [drop_eq_nil_iff] at hd; omega
      | cons lo r1 =>
        rw [hd] at h3
        have h4 : lz4s.drop (ip + 1 + (lengthTail n).length + n + 1) = r1 :=
          drop_add_length [lo] h3
        cases r1 with
        | nil =>
          -- one byte is left where the two bytes of the offset are read
          refine .inr (.inr fun capacity st hst =>
            ⟨.readPastEnd (ip + 1 + (lengthTail n).length + n + 1), ?_⟩)
          subst hst
          rw [decodeToken_literals hl hb hr, if_neg (by omega)]
          simp only [decodeMatch, read16, readByte_of_drop h3, readByte_past_end h4, Bind.bind,
            Except.bind]
        | cons hi r2 =>
          have h5 : lz4s.drop (ip + 1 + (lengthTail n).length + n + 1 + 1) = r2 :=
            drop_add_length [hi] h4
          rcases extendLength_cases lz4s (ip + 1 + (lengthTail n).length + n + 2) low hl with
            ⟨m, r3, rfl, hr3⟩ | ⟨e, he⟩
          · refine .inl ⟨⟨r.take n, UInt16.ofNat (lo.toNat + 256 * hi.toNat), m⟩, r3, ?_⟩
            have hsplit : r = r.take n ++ (lo :: hi :: (lengthTail m ++ r3)) := by
              rw [← h5.symm.trans hr3, ← hd, take_append_drop]
            rw [hb, hr']
            simp only [Lz4sToken.encode, offsetBytes_pair, htake]
            nth_rewrite 1 [hsplit]
            simp
          · refine .inr (.inr fun capacity st hst => ⟨e, ?_⟩)
            subst hst
            rw [decodeToken_literals hl hb hr, if_neg (by omega)]
            simp only [decodeMatch, read16, readByte_of_drop h3, readByte_of_drop h4, Bind.bind,
              Except.bind, Pure.pure, Except.pure, tokenByte_low hh hl]
            rw [show matchLengthMask = 15 from rfl, he]
  · refine .inr (.inr fun capacity st hst => ⟨e, ?_⟩)
    subst hst
    unfold decodeToken
    rw [readByte_of_drop hb]
    simp only [Bind.bind, Except.bind, tokenByte_high hh hl]
    rw [show runMask = 15 from rfl, he]

end Vesal.Proofs
