import CompactChain.Proofs.Chain.Size
import CompactChain.Proofs.Store.Script
import CompactChain.Store.Operation

set_option autoImplicit false

namespace CompactChain

open Store (Error HeldChain Script)

namespace Store.HeldChain

variable {chain : HeldChain} {height : Nat} {block : CompactBlock}

theorem append_of_short (chain : HeldChain) (height : Nat) (short : block.encode.length < 0x100000000) :
    (chain.append height block).Ensures fun outcome => outcome.answer ≠ .error .numberTooLarge := by
  have fits : ¬ 0x100000000 ≤ block.encodedLength := by
    rw [block.le_encodedLength_iff (by decide)]
    exact Nat.not_le.mpr short
  unfold append
  rw [if_neg fits]
  apply Script.Ensures.bind_forall
  intro written
  cases written with
  | ok => exact Script.Ensures.pure nofun
  | error cause =>
    apply Script.Ensures.bind_forall
    intro cut
    cases cut with
    | ok => exact Script.Ensures.pure nofun
    | error cause => exact Script.Ensures.pure nofun

theorem validate_numberTooLarge (refused : chain.validate height block = .error .numberTooLarge) :
    0x100000000 ≤ height := by
  unfold validate at refused
  split at refused
  · simp at refused
  split at refused
  · simp at refused
  split at refused
  · simp at refused
  split at refused
  next high => exact high
  split at refused <;> simp at refused

theorem add_of_valid (short : block.encode.length < 0x100000000)
    (valid : chain.validate height block = .ok ()) :
    (chain.add height block).Ensures fun outcome => outcome.answer ≠ .error .numberTooLarge := by
  simp only [add, valid]
  split
  next =>
    apply Script.Ensures.bind_forall
    intro cut
    cases cut with
    | error cause => exact Script.Ensures.pure nofun
    | ok => exact append_of_short (chain.below height) height short
  next => exact append_of_short chain height short

-- Heights are numbers of the index too, but they are looked at before anything is dropped.
theorem add_of_short (chain : HeldChain) (height : Nat) (short : block.encode.length < 0x100000000) :
    (chain.add height block).Ensures fun outcome => outcome.answer = .error .numberTooLarge →
      0x100000000 ≤ height ∧ chain.add height block = pure ⟨chain, .error .numberTooLarge, []⟩ := by
  cases valid : chain.validate height block with
  | error fault =>
    have refused : chain.add height block = pure ⟨chain, .error fault, []⟩ := by rw [add, valid]
    rw [refused]
    apply Script.Ensures.pure
    intro same
    obtain rfl := Except.error.inj same
    exact ⟨validate_numberTooLarge valid, rfl⟩
  | ok => exact (add_of_valid short valid).mono fun outcome differs same => absurd same differs

end Store.HeldChain

/-- A block takes no more room in its compact form than where it was read from. Where that was fewer than
2^32 bytes, its length is no reason to refuse it. -/
theorem compact_within_raw (data rest : Bytes) (txids : List Bytes) (txVersion : Option UInt32)
    (block : Block) (treeSize : UInt32)
    (parsed : (Block.read (some txids) txVersion).parse data = .ok (block, rest)) :
    ∃ compact, block.toCompact treeSize = .ok compact ∧
      compact.encode.length + rest.length ≤ data.length ∧
      (data.length < 0x100000000 → ∀ (chain : HeldChain) (height : Nat),
        (chain.add height compact).Ensures fun outcome => outcome.answer = .error .numberTooLarge →
          0x100000000 ≤ height ∧ chain.add height compact = pure ⟨chain, .error .numberTooLarge, []⟩) := by
  obtain ⟨taken, reads, rfl⟩ := Reader.parse_eq_ok_iff.mp parsed
  cases txVersion with
  | some version => exact reads.elim
  | none =>
    obtain ⟨form, rfl, gives⟩ := Block.reads_read.mp reads
    have identified : block.Identified := Block.EncodedIn.identified ⟨form, rfl, gives⟩
    have compacted := identified.toCompact_eq treeSize
    have within := Block.length_encode_le treeSize gives
      fun entry member => (identified.mem_kept member).1
    refine ⟨_, compacted, ?_, fun small chain height => HeldChain.add_of_short chain height ?_⟩
    · rw [List.length_append]
      exact Nat.add_le_add_right within _
    · rw [List.length_append] at small
      exact Nat.lt_of_le_of_lt (Nat.le_add_right_of_le within) small

theorem compact_within_mixed : ∃ compact,
    let ids : List Bytes := [List.replicate 32 1, List.replicate 32 2, List.replicate 32 3]
    (Block.read (some ids) none).parse (Block.mixedForm.bytes ++ [1]) =
        .ok (Block.mixedBlock (some ids), [1]) ∧
      (Block.mixedBlock (some ids)).toCompact 3 = .ok compact ∧
      compact.encode.length + 1 ≤ (Block.mixedForm.bytes ++ [1]).length ∧
      ∀ chain : HeldChain, (chain.add 6 compact).Ensures fun outcome =>
        outcome.answer ≠ .error .numberTooLarge := by
  let ids : List Bytes := [List.replicate 32 1, List.replicate 32 2, List.replicate 32 3]
  have parsed : (Block.read (some ids) none).parse (Block.mixedForm.bytes ++ [1]) =
      .ok (Block.mixedBlock (some ids), [1]) :=
    Block.parse_mixed (by rintro _ ⟨⟩; rfl) (by rintro _ ⟨⟩; decide) [1]
  have small : (Block.mixedForm.bytes ++ [1]).length < 0x100000000 := by decide +kernel
  obtain ⟨compact, compacted, within, added⟩ := compact_within_raw _ _ ids none _ 3 parsed
  refine ⟨compact, parsed, compacted, within, fun chain => (added small chain 6).mono ?_⟩
  intro outcome told refused
  exact absurd (told refused).1 (by decide)

end CompactChain
