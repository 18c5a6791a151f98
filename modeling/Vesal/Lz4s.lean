import Mathlib.Tactic

/-!
# Decoding of lz4s streams

`ZSTDHelperImpl::DecodeLz4sToZstdSequence` of `zstd_helper_impl.cc`: the intermediate lz4s stream
of the hardware is rewritten as an array of `ZSTD_Sequence`. The stream is a list of bytes, the cursor
`ip` an index into it, and an access outside a buffer is a `DecodeFault`.
-/

namespace Vesal

/-- The three fields of `ZSTD_Sequence` that the decoder writes (all `unsigned int`). -/
structure ZstdSequence where
  offset : Nat
  litLength : Nat
  matchLength : Nat
deriving DecidableEq, Repr

/-- An access outside the input or the caller's array; `stuck` is the loop of the model running out of
iterations, which it never does. -/
inductive DecodeFault where
  | readPastEnd (index : Nat)
  | writePastEnd (index : Nat)
  | stuck
deriving DecidableEq, Repr

def matchLengthBits : Nat := 4
def matchLengthMask : Nat := 2 ^ matchLengthBits - 1
def runBits : Nat := 8 - matchLengthBits
def runMask : Nat := 2 ^ runBits - 1
def lz4MinMatch : Nat := 2

/-- `GetLength`: adds bytes to `length` up to and including the first that is not 255.
The list is the part of the input from `ip` on. -/
def getLength : List UInt8 → Nat → Nat → Except DecodeFault (Nat × Nat)
  | [], ip, _ => .error (.readPastEnd ip)
  | s :: rest, ip, length =>
    if s = 255 then getLength rest (ip + 1) (length + s.toNat)
    else .ok (ip + 1, length + s.toNat)

variable (tokens : List Lz4sToken) (last : Option Lz4sLast) (lz4s : List UInt8)

def readByte (ip : Nat) : Except DecodeFault UInt8 :=
  match lz4s[ip]? with
  | some b => .ok b
  | none => .error (.readPastEnd ip)

/-- `read16_function_`: both byte orders of the host give the little-endian value. -/
def read16 (ip : Nat) : Except DecodeFault Nat := do
  let lo ← readByte lz4s ip
  let hi ← readByte lz4s (ip + 1)
  return lo.toNat + hi.toNat <<< 8

/-- The caller's array. An entry is `none` as long as this call has not written it. -/
abbrev SequenceArray := List (Option ZstdSequence)

def writeSequence (out : SequenceArray) (idx : Nat) (seq : ZstdSequence) :
    Except DecodeFault SequenceArray :=
  if idx < out.length then .ok (out.set idx (some seq)) else .error (.writePastEnd idx)

structure DecodeState where
  ip : Nat
  histLiteralLen : Nat
  seqsIdx : Nat
  zstdSequence : SequenceArray
deriving DecidableEq, Repr

/-- How a pass of the loop ends: at its closing brace, by the `break` after the last literals, or by the
`return` when the array is full. -/
inductive IterationEnd where
  | next (st : DecodeState)
  | endOfSequence (st : DecodeState)
  | capacityReached (st : DecodeState)
deriving DecidableEq, Repr

/-- The length field of a token: the nibble itself, or 15 and the bytes of `GetLength`. -/
def extendLength (ip nibble mask : Nat) : Except DecodeFault (Nat × Nat) :=
  if nibble = mask then getLength (lz4s.drop ip) ip nibble else .ok (ip, nibble)

variable (capacity : Nat) (st : DecodeState)

def decodeMatch (token : UInt8)
    (literalLen ip : Nat) : Except DecodeFault IterationEnd := do
  let offset ← read16 lz4s ip
  let (ip, length) ← extendLength lz4s (ip + 2) (token.toNat &&& matchLengthMask) matchLengthMask
  if length ≠ 0 then
    -- `match_len` passes through a `uint16_t`, the entry fields are `unsigned int`
    let matchLen := (length + lz4MinMatch) % 2 ^ 16
    let out ← writeSequence st.zstdSequence st.seqsIdx
      ⟨offset, (literalLen + st.histLiteralLen) % 2 ^ 32, matchLen⟩
    let st' : DecodeState := ⟨ip, 0, st.seqsIdx + 1, out⟩
    if capacity ≤ st'.seqsIdx then return .capacityReached st' else return .next st'
  else
    -- `hist_literal_len` is an `unsigned int`
    return .next { st with
      ip := ip
      histLiteralLen := if 0 < literalLen then (st.histLiteralLen + literalLen) % 2 ^ 32
        else st.histLiteralLen }

def decodeToken :
    Except DecodeFault IterationEnd := do
  let token ← readByte lz4s st.ip
  let (ip, literalLen) ← extendLength lz4s (st.ip + 1) (token.toNat >>> matchLengthBits) runMask
  let ip := ip + literalLen
  if ip = lz4s.length then
    let out ← writeSequence st.zstdSequence st.seqsIdx
      ⟨0, (literalLen + st.histLiteralLen) % 2 ^ 32, 0⟩
    return .endOfSequence { st with ip := ip, zstdSequence := out }
  decodeMatch lz4s capacity st token literalLen ip

/-- What the function returns: `none` is `ZSTD_SEQUENCE_PRODUCER_ERROR`. -/
structure DecodeResult where
  count : Option Nat
  zstdSequence : SequenceArray
deriving DecidableEq, Repr

def decodeReturn : DecodeResult :=
  ⟨if st.ip ≠ lz4s.length then none else some (st.seqsIdx + 1), st.zstdSequence⟩

def decodeLoop (lz4s : List UInt8) (capacity : Nat) :
    Nat → DecodeState → Except DecodeFault DecodeResult
  | 0, _ => .error .stuck
  | fuel + 1, st =>
    if st.ip < lz4s.length ∧ 0 < lz4s.length then
      match decodeToken lz4s capacity st with
      | .error e => .error e
      | .ok (.next st') => decodeLoop lz4s capacity fuel st'
      | .ok (.endOfSequence st') => .ok (decodeReturn lz4s st')
      | .ok (.capacityReached st') => .ok ⟨none, st'.zstdSequence⟩
    else .ok (decodeReturn lz4s st)

/-- Every pass of the loop reads a token byte, so `lz4s.length + 1` passes are enough. -/
def decodeLz4sToZstdSequence :
    Except DecodeFault DecodeResult :=
  decodeLoop lz4s capacity (lz4s.length + 1) ⟨0, 0, 0, List.replicate capacity none⟩

/-- A token with a match. `matchCode` is the length field as it is stored. -/
structure Lz4sToken where
  literals : List UInt8
  offset : UInt16
  matchCode : Nat
deriving DecidableEq, Repr

/-- The token that ends a stream. Its low nibble is not read. -/
structure Lz4sLast where
  literals : List UInt8
  lowNibble : Fin 16
deriving DecidableEq, Repr

def lengthChain (k : Nat) : List UInt8 :=
  List.replicate (k / 255) 255 ++ [UInt8.ofNat (k % 255)]

def lengthNibble (n : Nat) : Nat := min n 15

def lengthTail (n : Nat) : List UInt8 := if n < 15 then [] else lengthChain (n - 15)

def offsetBytes (offset : UInt16) : List UInt8 :=
  [UInt8.ofNat (offset.toNat % 256), UInt8.ofNat (offset.toNat / 256)]

def tokenByte (high low : Nat) : UInt8 := UInt8.ofNat (16 * high + low)

def Lz4sToken.encode (t : Lz4sToken) : List UInt8 :=
  tokenByte (lengthNibble t.literals.length) (lengthNibble t.matchCode) ::
    (lengthTail t.literals.length ++ t.literals ++ offsetBytes t.offset ++ lengthTail t.matchCode)

def Lz4sLast.encode (l : Lz4sLast) : List UInt8 :=
  tokenByte (lengthNibble l.literals.length) l.lowNibble.val ::
    (lengthTail l.literals.length ++ l.literals)

def encodeTokens : List UInt8 := tokens.flatMap Lz4sToken.encode

/-- The bytes of a token list, with or without the literals-only token at its end. -/
def encodeStream : List UInt8 :=
  encodeTokens tokens ++ last.elim [] Lz4sLast.encode

def WellFormedLz4s : Prop :=
  ∃ tokens last, lz4s = encodeStream tokens (some last)

/-- The decoded match length: a stored code of 0 means no match. -/
def Lz4sToken.matchLength (t : Lz4sToken) : Nat :=
  if t.matchCode = 0 then 0 else t.matchCode + lz4MinMatch

def matchCount : Nat :=
  (tokens.filter (fun t => t.matchCode ≠ 0)).length

def literalTotal : Nat :=
  (tokens.map (fun t => t.literals.length)).sum + last.elim 0 (fun l => l.literals.length)

def decodedLength : Nat :=
  (tokens.map (fun t => t.literals.length + t.matchLength)).sum +
    last.elim 0 (fun l => l.literals.length)

/-- The sequences that a stream stands for: the literals of a token without a match go to the next
entry. -/
def specSequences : Nat → List Lz4sToken → Lz4sLast → List ZstdSequence
  | carry, [], last => [⟨0, carry + last.literals.length, 0⟩]
  | carry, t :: rest, last =>
    if t.matchCode = 0 then specSequences (carry + t.literals.length) rest last
    else ⟨t.offset.toNat, carry + t.literals.length, t.matchLength⟩ :: specSequences 0 rest last

end Vesal
