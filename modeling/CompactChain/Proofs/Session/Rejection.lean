import CompactChain.Proofs.Session.Attached
import CompactChain.Proofs.Store.Undisturbed

set_option autoImplicit false

namespace CompactChain

open Store (Error HeldChain Script Warning)

namespace Store.HeldChain

variable {chain : HeldChain} {height : Nat} {block : CompactBlock}

structure Strands (chain : HeldChain) (height : Nat) (block : CompactBlock) : Prop where
  valid : chain.validate height block = .ok ()
  held : height < chain.next
  long : 0x100000000 ≤ block.encode.length

theorem append_of_long (chain : HeldChain) (height : Nat) (long : 0x100000000 ≤ block.encode.length) :
    chain.append height block = pure ⟨chain, .error .numberTooLarge, []⟩ := by
  have told := (block.le_encodedLength_iff (show 0x100000000 ≤ 2 ^ 64 by decide)).mpr long
  rw [append, if_pos told]

theorem Strands.add_eq (strands : chain.Strands height block) :
    (chain.add height block).result = ⟨chain.below height, .error .numberTooLarge, []⟩ ∧
      (chain.add height block).effects = (chain.below height).cutFiles.effects := by
  simp only [add, strands.valid, if_pos strands.held, append_of_long _ _ strands.long]
  exact ⟨rfl, rfl⟩

theorem Strands.below_ne (strands : chain.Strands height block) (sound : chain.Sound) :
    chain.below height ≠ chain := by
  have above := (validate_ok sound strands.valid).1
  have held := strands.held
  intro same
  have next := congrArg HeldChain.next same
  simp only [below] at next
  omega

theorem add_refused {error : Error} (sound : chain.Sound)
    (refused : (chain.add height block).result.answer = .error error)
    (kept : ¬ chain.Strands height block) :
    chain.add height block = pure ⟨chain, .error error, []⟩ := by
  cases valid : chain.validate height block with
  | error fault =>
    simp only [add, valid, Script.result_pure, Except.error.injEq] at refused ⊢
    rw [refused]
  | ok =>
    have within := (validate_ok sound valid).2.1
    by_cases long : 0x100000000 ≤ block.encode.length
    next =>
      have top : ¬ height < chain.next := fun held => kept ⟨valid, held, long⟩
      simp only [add, valid, if_neg top, append_of_long chain height long, Script.result_pure,
        Except.error.injEq] at refused ⊢
      rw [refused]
    next =>
      rw [add_result sound, valid] at refused
      simp only [append_result, if_neg long, reduceCtorEq] at refused

end Store.HeldChain

namespace Session

open Cache (handlesAt place)

structure CutAt (session after : Session) (cache : Cache) (height : Nat) : Prop where
  held : after.cache = some { cache with chain := cache.chain.below height }
  blocks : after.tree.find? (place cache.settings .blocks) =
    some (.file (Store.Contents.resize (cache.handles.files session.tree).blocks
      (cache.chain.below height).endOffset))
  index : after.tree.find? (place cache.settings .index) =
    some (.file (Store.Contents.resize (cache.handles.files session.tree).index
      (cache.chain.below height).indexLength))
  others : ∀ path, (∀ name, path ≠ place cache.settings name) →
    after.tree.find? path = session.tree.find? path

variable {session after : Session} {cache : Cache} {height : Nat} {block : CompactBlock}
  {error : Error} {warnings : List Warning}

theorem Attached.add_refused (attached : session.Attached) (held : session.cache = some cache)
    (refused : session.run .perfect (fun chain => chain.add height block) =
      some (after, .error error, warnings))
    (kept : ¬ cache.chain.Strands height block) : Unchanged session after := by
  have answered := attached.run_eq held .perfect fun chain => chain.add height block
  rw [refused, Script.run_perfect_eq] at answered
  obtain ⟨-, answer, -⟩ := by simpa only [Option.some.injEq, Prod.mk.injEq] using answered
  have idle := HeldChain.add_refused (attached cache held).sound answer.symm kept
  obtain ⟨same, ran, unchanged⟩ := attached.run_pure held .perfect
    (fun chain => chain.add height block) idle
  rw [refused] at ran
  obtain ⟨rfl, -⟩ := by simpa only [Option.some.injEq, Prod.mk.injEq] using ran
  exact unchanged

theorem Attached.add_strands (attached : session.Attached) (held : session.cache = some cache)
    (strands : cache.chain.Strands height block) :
    ∃ after, session.run .perfect (fun chain => chain.add height block) =
        some (after, .error .numberTooLarge, []) ∧ CutAt session after cache height := by
  have there := attached cache held
  obtain ⟨result, effects⟩ := strands.add_eq
  rw [attached.run_eq held, Script.run_perfect_eq, result, effects]
  refine ⟨_, rfl, ?held, ?blocks, ?index, ?others⟩
  case held => rw [there.handles]
  case blocks => exact Cache.find?_store cache.settings _ _ .blocks
  case index => exact Cache.find?_store cache.settings _ _ .index
  case others => exact fun path elsewhere => Cache.find?_store_of_ne elsewhere

theorem CutAt.not_unchanged (cut : CutAt session after cache height) (sound : cache.chain.Sound)
    (held : session.cache = some cache) (strands : cache.chain.Strands height block) :
    ¬ Unchanged session after := by
  intro unchanged
  have same := cut.held.symm.trans (unchanged.cache.trans held)
  exact strands.below_ne sound (congrArg Cache.chain (Option.some.inj same))

/-- Whatever a cache was opened on and went through, a block that it refuses changes nothing, unless
the block fits, replaces another one and is too long. -/
theorem rejected_add (tree : Tree) (events : List Event) (own : ∀ event ∈ events, event.Own)
    (cache : Cache) (held : (events.foldl Session.after ⟨tree, none⟩).cache = some cache)
    (height : Nat) (block : CompactBlock) (after : Session) (error : Error)
    (warnings : List Warning)
    (refused : (events.foldl Session.after ⟨tree, none⟩).run .perfect
      (fun chain => chain.add height block) = some (after, .error error, warnings)) :
    let session := events.foldl Session.after ⟨tree, none⟩
    (Unchanged session after ↔ ¬ cache.chain.Strands height block) ∧
      (cache.chain.Strands height block →
        error = .numberTooLarge ∧ CutAt session after cache height) := by
  have attached := attached_after_events tree own
  have sound := (attached cache held).sound
  have stranded (strands : cache.chain.Strands height block) :
      error = .numberTooLarge ∧
        CutAt (events.foldl Session.after ⟨tree, none⟩) after cache height := by
    obtain ⟨left, answered, cut⟩ := attached.add_strands held strands
    rw [refused] at answered
    obtain ⟨rfl, answer, -⟩ := by simpa only [Option.some.injEq, Prod.mk.injEq] using answered
    exact ⟨Except.error.inj answer, cut⟩
  refine ⟨⟨?kept, ?unchanged⟩, stranded⟩
  case kept =>
    intro unchanged strands
    exact (stranded strands).2.not_unchanged sound held strands unchanged
  case unchanged => exact attached.add_refused held refused

theorem rejected_sample : ∃ cache after,
    (sampleEvents.foldl Session.after ⟨damagedTree, none⟩).cache = some cache ∧
      (sampleEvents.foldl Session.after ⟨damagedTree, none⟩).run .perfect
        (fun chain => chain.add 5 (sampleBlock 6)) = some (after, .error (.wrongHeight 5 6), []) ∧
      Unchanged (sampleEvents.foldl Session.after ⟨damagedTree, none⟩) after := by
  have answers : (sampleEvents.foldl Session.after ⟨damagedTree, none⟩).cache.map
      (fun cache => cache.chain.validate 5 (sampleBlock 6)) = some (.error (.wrongHeight 5 6)) := by
    decide +kernel
  obtain ⟨cache, held, fault⟩ := Option.map_eq_some_iff.mp answers
  have own : ∀ event ∈ sampleEvents, event.Own := by simp [sampleEvents, Event.Own]
  have attached := attached_after_events damagedTree own
  have refused := attached.run_eq held .perfect fun chain => chain.add 5 (sampleBlock 6)
  have answer := HeldChain.add_result (attached cache held).sound 5 (sampleBlock 6)
  simp only [fault] at answer
  simp only [Script.run_perfect_eq, answer] at refused
  have kept : ¬ cache.chain.Strands 5 (sampleBlock 6) := by
    rintro ⟨valid, -, -⟩
    simp only [fault, reduceCtorEq] at valid
  exact ⟨cache, _, held, refused, (rejected_add damagedTree sampleEvents own cache held 5
    (sampleBlock 6) _ _ _ refused).1.mpr kept⟩

def longBlock : CompactBlock :=
  { sampleBlock 6 with header := List.replicate 0x100000000 0 }

theorem length_longBlock : 0x100000000 ≤ longBlock.encode.length := by
  have header := Message.length_le_bytesField 6 longBlock.header
  have long : longBlock.header.length = 0x100000000 := List.length_replicate
  simp only [CompactBlock.encode, List.length_append]
  omega

-- Nothing that is looked at before a block is written tells it from a short one.
theorem validate_longBlock (chain : HeldChain) (height : Nat) :
    chain.validate height longBlock = chain.validate height (sampleBlock 6) := rfl

theorem changed_for_long_block : ∃ cache after,
    let events : List Event := [.opening sampleSettings .perfect, .add 5 (sampleBlock 5) .perfect,
      .add 6 (sampleBlock 6) .perfect]
    let session := events.foldl Session.after ⟨.empty, none⟩
    session.cache = some cache ∧
      session.run .perfect (fun chain => chain.add 6 longBlock) =
        some (after, .error .numberTooLarge, []) ∧
      ¬ Unchanged session after := by
  let events : List Event := [.opening sampleSettings .perfect, .add 5 (sampleBlock 5) .perfect,
    .add 6 (sampleBlock 6) .perfect]
  have holds : (events.foldl Session.after ⟨.empty, none⟩).cache.map (fun cache =>
      decide (cache.chain.validate 6 (sampleBlock 6) = .ok () ∧ 6 < cache.chain.next)) =
      some true := by
    decide +kernel
  obtain ⟨cache, held, fits⟩ := Option.map_eq_some_iff.mp holds
  obtain ⟨valid, below⟩ := of_decide_eq_true fits
  have own : ∀ event ∈ events, event.Own := by simp [events, Event.Own]
  have attached := attached_after_events .empty own
  have strands : cache.chain.Strands 6 longBlock := 
    ⟨(validate_longBlock _ _).trans valid, below, length_longBlock⟩
  obtain ⟨after, refused, cut⟩ := attached.add_strands held strands
  exact ⟨cache, after, held, refused,
    cut.not_unchanged (attached cache held).sound held strands⟩

end Session

end CompactChain
