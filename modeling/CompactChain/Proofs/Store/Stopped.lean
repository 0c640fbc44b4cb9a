import CompactChain.Proofs.Store.Reading

set_option autoImplicit false

namespace CompactChain.Store.HeldChain

variable {chain : HeldChain}

def Stoppable {α : Type} (chain cut : HeldChain) (script : Script (Outcome α)) : Prop :=
  ∀ complete count, ∃ kept, (kept = chain ∨ kept = cut ∨ kept = script.result.chain) ∧
    kept.SurvivesIn (Effect.stopped complete count script.effects chain.files)

-- Between the two cuts the index goes on past the end of the blocks file: no record is left there.
theorem cutFiles_stopped {height complete count : Nat} {later : List Effect} {files : Files}
    (recorded : chain.Recorded) (within : height ≤ chain.next)
    (left : files = Effect.stopped complete count ((chain.below height).cutFiles.effects ++ later)
      chain.files) :
    chain.SurvivesIn files ∨ (chain.below height).SurvivesIn files ∨
      ∃ fewer, files = Effect.stopped fewer count later (chain.below height).files := by
  obtain ⟨tail, rest, parts⟩ := files_below chain height
  have kept := recorded.below within
  rw [cutFiles_effects, List.cons_append, List.cons_append, List.nil_append] at left
  rcases complete with _ | _ | fewer
  · exact .inl (left ▸ survivesIn_files chain)
  · refine .inr (.inl ⟨[], rest, ?_, .inr (by decide)⟩)
    simp only [left, Effect.stopped, Effect.applyPart, Effect.apply, Files.modify, parts,
      kept.endOffset_eq, Contents.resize_front, List.append_nil]
  · have both := cutFiles_below recorded within
    simp only [cutFiles_effects, List.foldl_cons, List.foldl_nil] at both
    rw [Effect.stopped, Effect.stopped, both] at left
    exact .inr (.inr ⟨fewer, left⟩)

theorem append_stopped {height complete count : Nat} {block : CompactBlock} {files : Files}
    (recorded : chain.Recorded) (next : chain.next = height)
    (fits : Fits height chain.blocks.getLast? block)
    (left : files = Effect.stopped complete count (chain.append height block).effects chain.files) :
    chain.SurvivesIn files ∨ (chain.append height block).result.chain.SurvivesIn files := by
  rw [append_effects chain fits.low, recorded.endOffset_eq, recorded.sound.indexLength_eq] at left
  by_cases long : 0x100000000 ≤ block.encode.length
  next =>
    rw [if_pos long, Effect.stopped_nil] at left
    exact .inl (left ▸ survivesIn_files chain)
  next =>
    have pushed : (chain.append height block).result.chain.files =
        ⟨chain.files.blocks ++ recordImage height block,
          chain.files.index ++ entryImage height block⟩ := by
      simp only [append_result, if_neg long, files_push recorded.sound, next]
    rw [if_neg long] at left
    -- the stop comes within the record, within the entry, or after both
    rcases complete with _ | _ | fewer <;>
      simp only [Effect.stopped, Effect.applyPart, Effect.apply, Files.modify,
        Contents.overwrite_end] at left
    · exact .inl ⟨(recordImage height block).take count, [], by rw [left, List.append_nil],
        .inl (by decide)⟩
    · by_cases whole : (entryImage height block).length ≤ count
      next =>
        rw [List.take_of_length_le whole, ← pushed] at left
        exact .inr (left ▸ survivesIn_files _)
      next =>
        have length : (entryImage height block).length = IndexEntry.encodedLength :=
          length_entryImage fits.hash
        refine .inl ⟨_, _, left, .inl ?_⟩
        rw [List.length_take]
        omega
    · rw [← pushed] at left
      exact .inr (left ▸ survivesIn_files _)

theorem add_stopped (recorded : chain.Recorded) (height : Nat) (block : CompactBlock) :
    chain.Stoppable (chain.discard (some height)) (chain.add height block) := by
  intro complete count
  have result := add_result recorded.sound height block
  have effects := add_effects recorded.sound height block
  cases valid : chain.validate height block with
  | error error =>
    simp only [valid] at effects
    rw [effects, Effect.stopped_nil]
    exact ⟨chain, .inl rfl, survivesIn_files chain⟩
  | ok =>
    obtain ⟨above, within, fits⟩ := validate_ok recorded.sound valid
    have kept := recorded.below within
    have next : (chain.below height).next = height := by
      simp only [below]
      omega
    have cut : chain.discard (some height) = chain.below height := by
      rw [discard, Nat.min_eq_left within]
    simp only [valid] at result effects
    rw [result, effects, cut]
    split
    next less =>
      rcases cutFiles_stopped recorded within rfl with before | partly | ⟨fewer, rest⟩
      · exact ⟨_, .inl rfl, before⟩
      · exact ⟨_, .inr (.inl rfl), partly⟩
      · rw [rest]
        rcases append_stopped kept next fits rfl with partly | after
        · exact ⟨_, .inr (.inl rfl), partly⟩
        · exact ⟨_, .inr (.inr rfl), after⟩
    next full =>
      have same : chain.below height = chain := by
        have top : height = chain.next := by omega
        rw [top, below_next recorded.sound]
      rw [same] at next fits ⊢
      rcases append_stopped recorded next fits rfl with before | after
      · exact ⟨_, .inl rfl, before⟩
      · exact ⟨_, .inr (.inr rfl), after⟩

theorem reorg_stopped (recorded : chain.Recorded) (height : Nat) :
    chain.Stoppable (chain.discard (some height)) (chain.reorg height) := by
  intro complete count
  rw [reorg_result recorded.sound, reorg_effects]
  split
  · rw [Effect.stopped_nil]
    exact ⟨chain, .inl rfl, survivesIn_files chain⟩
  next less =>
    rw [discard, ← List.append_nil (cutFiles _).effects]
    rcases cutFiles_stopped recorded (Nat.min_le_right height chain.next) rfl with
      before | after | ⟨fewer, rest⟩
    · exact ⟨_, .inl rfl, before⟩
    · exact ⟨_, .inr (.inl rfl), after⟩
    · rw [rest, Effect.stopped_nil]
      exact ⟨_, .inr (.inl rfl), survivesIn_files _⟩

def heightOfRaw? (data : Bytes) (txids : List Bytes) (treeSize : UInt32) : Option Nat :=
  (compactOfRaw data txids treeSize).toOption.map Prod.fst

theorem addRaw_stopped (recorded : chain.Recorded) (data : Bytes) (txids : List Bytes)
    (treeSize : UInt32) :
    chain.Stoppable (chain.discard (heightOfRaw? data txids treeSize))
      (chain.addRaw data txids treeSize) := by
  unfold addRaw heightOfRaw?
  split
  next error refused =>
    intro complete count
    rw [Script.effects_pure, Effect.stopped_nil]
    exact ⟨chain, .inl rfl, survivesIn_files chain⟩
  next height block found =>
    intro complete count
    simpa [found, Except.toOption] using add_stopped recorded height block complete count

end CompactChain.Store.HeldChain
