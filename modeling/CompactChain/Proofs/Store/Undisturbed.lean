import CompactChain.Proofs.Message.Faithful
import CompactChain.Proofs.Store.Image

set_option autoImplicit false

namespace CompactChain.Store

namespace HeldChain

variable {chain : HeldChain}

@[simp] theorem cutFiles_result (chain : HeldChain) : chain.cutFiles.result = .ok () := rfl

@[simp] theorem cutFiles_effects (chain : HeldChain) :
    chain.cutFiles.effects =
      [.resize .blocks chain.endOffset, .resize .index chain.indexLength] := rfl

theorem cutFiles_files (recorded : chain.Recorded) (tail rest : Bytes) :
    chain.cutFiles.effects.foldl Effect.apply
      ⟨chain.files.blocks ++ tail, chain.files.index ++ rest⟩ = chain.files := by
  simp [Effect.apply, Files.modify, recorded.endOffset_eq, recorded.sound.indexLength_eq,
    Contents.resize_front]

theorem append_result (chain : HeldChain) (height : Nat) (block : CompactBlock) :
    (chain.append height block).result =
      if 0x100000000 ≤ block.encode.length then ⟨chain, .error .numberTooLarge, []⟩
      else ⟨chain.push block (recordLength block), .ok (), []⟩ := by
  simp only [append, block.le_encodedLength_iff (show 0x100000000 ≤ 2 ^ 64 by decide)]
  by_cases long : 0x100000000 ≤ block.encode.length
  · simp only [if_pos long]
    rfl
  · simp only [if_neg long, length_record]
    rfl

theorem append_effects (chain : HeldChain) {height : Nat} {block : CompactBlock}
    (low : height < 0x100000000) :
    (chain.append height block).effects =
      if 0x100000000 ≤ block.encode.length then []
      else [.write .blocks chain.endOffset (recordImage height block),
        .write .index chain.indexLength (entryImage height block)] := by
  simp only [append, block.le_encodedLength_iff (show 0x100000000 ≤ 2 ^ 64 by decide)]
  by_cases long : 0x100000000 ≤ block.encode.length
  · simp only [if_pos long]
    rfl
  · simp only [if_neg long, ← write_entry low (Nat.lt_of_not_le long)]
    rfl

theorem append_recorded {height : Nat} {block : CompactBlock} (recorded : chain.Recorded)
    (next : chain.next = height) (fits : Fits height chain.blocks.getLast? block) :
    (chain.append height block).result.chain.Recorded := by
  rw [append_result]
  split
  · exact recorded
  · exact recorded.push (next ▸ fits) (by omega)

theorem append_files {height : Nat} {block : CompactBlock} (recorded : chain.Recorded)
    (next : chain.next = height) (low : height < 0x100000000) :
    (chain.append height block).effects.foldl Effect.apply chain.files =
      (chain.append height block).result.chain.files := by
  rw [append_result, append_effects chain low]
  split
  · rfl
  · simp only [files_push recorded.sound, next, recorded.endOffset_eq,
      recorded.sound.indexLength_eq, List.foldl_cons, List.foldl_nil, Effect.apply, Files.modify,
      Contents.overwrite_end]

theorem add_result (sound : chain.Sound) (height : Nat) (block : CompactBlock) :
    (chain.add height block).result =
      match chain.validate height block with
      | .error error => ⟨chain, .error error, []⟩
      | .ok () => ((chain.below height).append height block).result := by
  cases valid : chain.validate height block with
  | error error =>
    simp only [add, valid]
    rfl
  | ok =>
    simp only [add, valid]
    split
    · simp
    next full =>
      have same : height = chain.next := by
        have := (validate_ok sound valid).2.1
        omega
      rw [same, below_next sound]

theorem add_effects (sound : chain.Sound) (height : Nat) (block : CompactBlock) :
    (chain.add height block).effects =
      match chain.validate height block with
      | .error _ => []
      | .ok () => (if height < chain.next then (chain.below height).cutFiles.effects else []) ++
          ((chain.below height).append height block).effects := by
  cases valid : chain.validate height block with
  | error error =>
    simp only [add, valid]
    rfl
  | ok =>
    simp only [add, valid]
    split
    · simp
    next full =>
      have same : height = chain.next := by
        have := (validate_ok sound valid).2.1
        omega
      rw [same, below_next sound, List.nil_append]

theorem below_congr {height other : Nat} (same : height - chain.first = other - chain.first) :
    chain.below height = chain.below other := by
  simp only [below, same]

def discard (chain : HeldChain) : Option Nat → HeldChain
  | none => chain
  | some height => chain.below (min height chain.next)

theorem discard_of_le {height : Nat} (sound : chain.Sound)
    (full : chain.next ≤ max height chain.first) : chain.discard (some height) = chain := by
  have next := sound.next_eq
  have same : min height chain.next - chain.first = chain.next - chain.first := by omega
  rw [discard, below_congr same, below_next sound]

theorem discard_of_lt {height : Nat} (less : max height chain.first < chain.next) :
    chain.discard (some height) = chain.below (max height chain.first) := by
  have same : min height chain.next - chain.first = max height chain.first - chain.first := by
    omega
  rw [discard, below_congr same]

theorem discard_recorded (recorded : chain.Recorded) (from? : Option Nat) :
    (chain.discard from?).Recorded := by
  cases from? with
  | none => exact recorded
  | some height => exact recorded.below (Nat.min_le_right _ _)

theorem reorg_result (sound : chain.Sound) (height : Nat) :
    (chain.reorg height).result = ⟨chain.discard (some height), .ok (), []⟩ := by
  unfold reorg
  simp only
  split
  next full => rw [discard_of_le sound full]; rfl
  next less => simp [discard_of_lt (Nat.lt_of_not_le less)]

theorem reorg_effects (chain : HeldChain) (height : Nat) :
    (chain.reorg height).effects =
      if chain.next ≤ max height chain.first then []
      else (chain.discard (some height)).cutFiles.effects := by
  unfold reorg
  simp only
  split
  · rfl
  next less => simp [discard_of_lt (Nat.lt_of_not_le less)]

theorem settle_result (sound : chain.Sound) (syncFrom : Option Nat) :
    (chain.settle syncFrom).result = .ok (chain.discard syncFrom) := by
  unfold settle
  cases syncFrom with
  | none => simp [discard]
  | some height =>
    simp only [Script.result_bind, cutFiles_result]
    split
    next full => rw [discard_of_le sound full]; rfl
    next less => simp [discard_of_lt (Nat.lt_of_not_le less)]

structure Mirrors {α : Type} (chain : HeldChain) (script : Script (Outcome α)) : Prop where
  recorded : script.result.chain.Recorded
  first : script.result.chain.first = chain.first
  files : script.effects.foldl Effect.apply chain.files = script.result.chain.files

theorem discard_first (chain : HeldChain) (from? : Option Nat) :
    (chain.discard from?).first = chain.first := by
  cases from? <;> rfl

theorem cutFiles_below {height : Nat} (recorded : chain.Recorded) (within : height ≤ chain.next) :
    (chain.below height).cutFiles.effects.foldl Effect.apply chain.files =
      (chain.below height).files := by
  obtain ⟨tail, rest, parts⟩ := files_below chain height
  rw [parts]
  exact cutFiles_files (recorded.below within) tail rest

theorem add_mirrors (recorded : chain.Recorded) (height : Nat) (block : CompactBlock) :
    chain.Mirrors (chain.add height block) := by
  cases valid : chain.validate height block with
  | error error =>
    refine ⟨?_, ?_, ?_⟩ <;> simp only [add_result recorded.sound, add_effects recorded.sound, valid]
    · exact recorded
    · rfl
  | ok =>
    obtain ⟨above, within, fits⟩ := validate_ok recorded.sound valid
    have kept := recorded.below within
    have next : (chain.below height).next = height := by
      simp only [below]
      omega
    refine ⟨?_, ?_, ?_⟩ <;> simp only [add_result recorded.sound, add_effects recorded.sound, valid]
    · exact append_recorded kept next fits
    · rw [append_result]
      split <;> rfl
    · rw [List.foldl_append]
      split
      · rw [cutFiles_below recorded within]
        exact append_files kept next fits.low
      next full =>
        have same : height = chain.next := by omega
        rw [List.foldl_nil]
        have cut : chain.files = (chain.below height).files := by
          rw [same, below_next recorded.sound]
        rw [cut]
        exact append_files kept next fits.low

theorem reorg_mirrors (recorded : chain.Recorded) (height : Nat) :
    chain.Mirrors (chain.reorg height) := by
  have sound := recorded.sound
  refine ⟨?_, ?_, ?_⟩ <;> simp only [reorg_result sound, reorg_effects]
  · exact discard_recorded recorded _
  · exact discard_first chain _
  · split
    next full => rw [discard_of_le sound full]; rfl
    · exact cutFiles_below recorded (Nat.min_le_right _ _)

theorem addRaw_mirrors (recorded : chain.Recorded) (data : Bytes) (txids : List Bytes)
    (treeSize : UInt32) : chain.Mirrors (chain.addRaw data txids treeSize) := by
  unfold addRaw
  split
  · exact ⟨recorded, rfl, rfl⟩
  next height block _ =>
    have added := add_mirrors recorded height block
    refine ⟨?_, ?_, ?_⟩
    · simpa using added.recorded
    · simpa using added.first
    · simpa using added.files

theorem settle_files (recorded : chain.Recorded) (syncFrom : Option Nat) (tail rest : Bytes) :
    (chain.settle syncFrom).effects.foldl Effect.apply
      ⟨chain.files.blocks ++ tail, chain.files.index ++ rest⟩ = (chain.discard syncFrom).files := by
  unfold settle
  rw [Script.effects_bind, List.foldl_append, cutFiles_files recorded]
  cases syncFrom with
  | none => rfl
  | some height =>
    simp only [cutFiles_result]
    split
    next full => rw [discard_of_le recorded.sound full]; rfl
    next less =>
      have cut := discard_of_lt (Nat.lt_of_not_le less)
      simp only [Script.effects_bind, ← cut]
      exact cutFiles_below recorded (Nat.min_le_right _ _)

end HeldChain

end CompactChain.Store
