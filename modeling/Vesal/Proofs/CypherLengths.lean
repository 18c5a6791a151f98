import Vesal.Proofs.Ownership

/-! # Lengths of cypher requests -/

namespace Vesal.Proofs

open ChannelState Library

/-- The source of an AES-XTS request fits into its destination, and the hardware is told its
length. -/
structure LengthsExact (args : CypherReqArgs) : Prop where
  fits : totalSize args.src ≤ args.dst.size
  stored : ∀ p reqId srcBuf dstBuf cb mem, p.algorithm = .kAES_XTS → p.opened = true →
    ∃ cb' mem', newCypherCallbackCtx p reqId args srcBuf dstBuf cb mem = .ok (cb', mem') ∧
      cb'.op.messageLenToCipherInBytes = totalSize args.src

lemma newCypherCallbackCtx_aes {p : CypherSessionPair} (halgorithm : p.algorithm = .kAES_XTS)
    (hopened : p.opened = true) (reqId : Nat) (args : CypherReqArgs) (srcBuf dstBuf : QatBuf)
    (cb : CypherCbContext) (mem : Library.Memory) :
    newCypherCallbackCtx p reqId args srcBuf dstBuf cb mem =
      .ok (⟨true, reqId, { cb.op with messageLenToCipherInBytes := totLen args.src }, some srcBuf, some dstBuf⟩,
        writeBytes mem cb.op.pIv (readBytes mem args.aesXtsTweak kIvSize)) := by
  unfold newCypherCallbackCtx
  simp [hopened, halgorithm]

/-- `ValidateArgs` is right about an AES-XTS request, unless it accepts one whose sizes do not
add up to a 32-bit number. -/
theorem aes_lengths_exact_iff (args : CypherReqArgs) :
    (validateArgs args .kAES_XTS = true → LengthsExact args) ↔
      totalSize args.src < 2 ^ 32 ∨ args.dst.size < totalSize args.src % 2 ^ 32 := by
  have hvalid : validateArgs args .kAES_XTS = true ↔ ¬ args.dst.size < totLen args.src := by
    simp [validateArgs]
  rw [hvalid]
  unfold totLen
  constructor
  · intro h
    by_cases hrejected : args.dst.size < totalSize args.src % 2 ^ 32
    · exact Or.inr hrejected
    · exact Or.inl ((h hrejected).fits.trans_lt args.dst.size_lt)
  · rintro (hsum | hrejected) haccepted
    · have hmod : totalSize args.src % 2 ^ 32 = totalSize args.src := Nat.mod_eq_of_lt hsum
      rw [hmod, not_lt] at haccepted
      refine ⟨haccepted, fun p reqId srcBuf dstBuf cb mem halgorithm hopened => ?_⟩
      exact ⟨_, _, newCypherCallbackCtx_aes halgorithm hopened reqId args srcBuf dstBuf cb mem, hmod⟩
    · exact absurd hrejected haccepted

def aesSampleConfig : CypherConfig := { cypherSampleConfig with algorithm := .kAES_XTS }

lemma one_lt_maxSize : 1 < 2 ^ 32 := by norm_num

def wrappingArgs : CypherReqArgs :=
  ⟨[⟨2 ^ 32 - 1, 4096, 0, none, by norm_num⟩, ⟨2, 2 ^ 33, 0, none, by norm_num⟩],
    ⟨1, 2 ^ 34, 0, none, one_lt_maxSize⟩, .kEncrypt, 64, 0, none⟩

/-- The channel accepts the request, and the hardware is told to encrypt one byte of the
`2 ^ 32 + 1`. -/
theorem wrapping_lengths_accepted :
    validateArgs wrappingArgs .kAES_XTS = true ∧ ¬ LengthsExact wrappingArgs ∧
    totalSize wrappingArgs.src = 2 ^ 32 + 1 ∧
    ∃ run, runCypher aesSampleConfig (initCypherRun aesSampleConfig 16384 samplePool)
        [.submit ⟨.success, 0⟩ wrappingArgs] = .ok run ∧
      run.accepted = [wrappingArgs] ∧
      (run.channel.hw.map fun c => (run.channel.cbs c).op.messageLenToCipherInBytes) = [1] := by
  refine ⟨by decide +kernel, fun h => absurd h.fits (by decide +kernel), by decide +kernel, ?_⟩
  obtain ⟨run, -, hrun, hgoal⟩ := exists_runs_of_reaches (cypherStep aesSampleConfig)
    (initCypherRun aesSampleConfig 16384 samplePool) [.submit ⟨.success, 0⟩ wrappingArgs] (fun _ _ => true)
    (fun run => run.accepted == [wrappingArgs] &&
      (run.channel.hw.map fun c => (run.channel.cbs c).op.messageLenToCipherInBytes) == [1])
    (fun _ _ h => h) (by decide +kernel)
  simp only [Bool.and_eq_true, beq_iff_eq] at hgoal
  exact ⟨run, hrun, hgoal.1, hgoal.2⟩

end Vesal.Proofs
