import CompactChain.Proofs.Store.Mirrored

set_option autoImplicit false

namespace CompactChain.Store

namespace Medium

def Cuts (medium : Medium) : Prop :=
  ∀ step file length size, length ≤ size → medium step (.resize file length) size = none

def firstFailure? (medium : Medium) (step : Nat) : List Effect → Files → Option Failure
  | [], _ => none
  | effect :: later, files =>
    match medium step effect (files.get effect.file).length with
    | none => medium.firstFailure? (step + 1) later (effect.apply files)
    | some failure => some failure

theorem cuts_sizeLimit (limit : Nat) : (sizeLimit limit).Cuts := by
  intro step file length size shorter
  exact if_neg fun beyond => Nat.not_lt.mpr shorter beyond.2

end Medium

namespace Script

variable {α β γ : Type} {medium : Medium} {step : Nat} {effect : Effect} {files : Files}
  {next : Except OsError Unit → Script β}

theorem bind_assoc (script : Script α) (f : α → Script β) (g : β → Script γ) :
    (script >>= f) >>= g = script >>= fun value => f value >>= g := by
  induction script with
  | done value => rfl
  | perform effect next ih => exact congrArg (perform effect) (funext ih)

theorem runFrom_ask (made : medium step effect (files.get effect.file).length = none) :
    (ask effect >>= next).runFrom medium step files =
      (next (.ok ())).runFrom medium (step + 1) (effect.apply files) := by
  change (perform effect next).runFrom medium step files = _
  rw [runFrom, made]

theorem runFrom_ask_failed {failure : Failure}
    (failed : medium step effect (files.get effect.file).length = some failure) :
    (ask effect >>= next).runFrom medium step files =
      (next (.error failure.cause)).runFrom medium (step + 1) (effect.applyPart files failure.after) := by
  change (perform effect next).runFrom medium step files = _
  rw [runFrom, failed]

end Script

namespace HeldChain

variable {β : Type} {chain : HeldChain} {medium : Medium} {step height : Nat} {files : Files}
  {failure : Failure} {block : CompactBlock}

def filesUpTo (chain : HeldChain) (files : Files) : Files :=
  ⟨files.blocks.take chain.endOffset, files.index.take chain.indexLength⟩

structure WithinFiles (chain : HeldChain) (files : Files) : Prop where
  blocks : chain.endOffset ≤ files.blocks.length
  index : chain.indexLength ≤ files.index.length

theorem apply_cutFiles (within : chain.WithinFiles files) :
    (Effect.resize .index chain.indexLength).apply ((Effect.resize .blocks chain.endOffset).apply files) =
      chain.filesUpTo files := by
  simp only [Effect.apply, Files.modify, Contents.resize_of_le within.blocks,
    Contents.resize_of_le within.index, filesUpTo]

-- Files that are long enough can be cut, so neither answer is an error.
theorem cuts_made (step : Nat) (cuts : medium.Cuts) (within : chain.WithinFiles files) :
    medium step (.resize .blocks chain.endOffset) (files.get .blocks).length = none ∧
      medium (step + 1) (.resize .index chain.indexLength)
        (((Effect.resize .blocks chain.endOffset).apply files).get .index).length = none :=
  ⟨cuts _ _ _ _ within.blocks, cuts _ _ _ _ within.index⟩

theorem cutFiles_runFrom (cuts : medium.Cuts) (within : chain.WithinFiles files)
    (next : Except OsError Unit → Script β) :
    (chain.cutFiles >>= next).runFrom medium step files =
      (next (.ok ())).runFrom medium (step + 2) (chain.filesUpTo files) := by
  obtain ⟨blocks, index⟩ := cuts_made step cuts within
  rw [cutFiles, Script.bind_assoc, Script.runFrom_ask blocks, Script.bind_assoc,
    Script.runFrom_ask index, apply_cutFiles within]
  rfl

theorem cutFiles_firstFailure? (cuts : medium.Cuts) (within : chain.WithinFiles files)
    (later : List Effect) :
    medium.firstFailure? step (chain.cutFiles.effects ++ later) files =
      medium.firstFailure? (step + 2) later (chain.filesUpTo files) := by
  obtain ⟨blocks, index⟩ := cuts_made step cuts within
  simp only [cutFiles_effects, List.cons_append, List.nil_append, Medium.firstFailure?, Effect.file,
    blocks, index, apply_cutFiles within]

-- Whatever part of the record and of the entry is written, it follows what was there before.
theorem writeRecord_runFrom {record entry : Bytes} (blocks : files.blocks.length = chain.endOffset)
    (index : files.index.length = chain.indexLength)
    (fails : medium.firstFailure? step
      [.write .blocks chain.endOffset record, .write .index chain.indexLength entry] files = some failure)
    (next : Except OsError Unit → Script β) :
    ∃ later tail rest, (chain.writeRecord record entry >>= next).runFrom medium step files =
      (next (.error failure.cause)).runFrom medium later
        ⟨files.blocks ++ tail, files.index ++ rest⟩ := by
  have records (data : Bytes) : (Effect.write .blocks chain.endOffset data).apply files =
      ⟨files.blocks ++ data, files.index⟩ := by
    simp only [Effect.apply, Files.modify, ← blocks, Contents.overwrite_end]
  have entries (records data : Bytes) : (Effect.write .index chain.indexLength data).apply
      ⟨records, files.index⟩ = ⟨records, files.index ++ data⟩ := by
    simp only [Effect.apply, Files.modify, ← index, Contents.overwrite_end]
  rw [writeRecord, Script.bind_assoc]
  rw [Medium.firstFailure?] at fails
  cases written : medium step (.write .blocks chain.endOffset record) (files.get .blocks).length with
  | some stopped =>
    simp only [Effect.file, written, Option.some.injEq] at fails
    subst fails
    refine ⟨step + 1, record.take stopped.after, [], ?_⟩
    rw [Script.runFrom_ask_failed written, Effect.applyPart, records, List.append_nil]
    rfl
  | none =>
    simp only [Effect.file, written, records, Medium.firstFailure?] at fails
    cases entered : medium (step + 1) (.write .index chain.indexLength entry)
        (Files.get ⟨files.blocks ++ record, files.index⟩ .index).length with
    | some stopped =>
      simp only [entered, Option.some.injEq] at fails
      subst fails
      refine ⟨step + 2, record, entry.take stopped.after, ?_⟩
      rw [Script.runFrom_ask written, records, Script.runFrom_ask_failed entered, Effect.applyPart,
        entries]
    | none => simp [entered] at fails

theorem append_runFrom (cuts : medium.Cuts) (low : height < 0x100000000)
    (blocks : files.blocks.length = chain.endOffset) (index : files.index.length = chain.indexLength)
    (fails : medium.firstFailure? step (chain.append height block).effects files = some failure) :
    (chain.append height block).runFrom medium step files =
      (⟨chain, .error (.corruption height .writing failure.cause), []⟩, files) := by
  rw [append_effects chain low] at fails
  split at fails
  next => contradiction
  next short =>
    have told : ¬ 0x100000000 ≤ block.encodedLength :=
      mt (block.le_encodedLength_iff (show 0x100000000 ≤ 2 ^ 64 by decide)).mp short
    rw [← write_entry low (Nat.lt_of_not_le short)] at fails
    rw [append, if_neg told]
    obtain ⟨later, tail, rest, stopped⟩ := writeRecord_runFrom blocks index fails _
    refine stopped.trans ?_
    have within : chain.WithinFiles ⟨files.blocks ++ tail, files.index ++ rest⟩ := by
      constructor
      next => simp [blocks]
      next => simp [index]
    have back : chain.filesUpTo ⟨files.blocks ++ tail, files.index ++ rest⟩ = files := by
      rw [filesUpTo, List.take_left' blocks, List.take_left' index]
    simp only
    rw [cutFiles_runFrom cuts within, back]
    rfl

theorem next_below (above : chain.first ≤ height) : (chain.below height).next = height := by
  simp only [below]
  omega

theorem below_below (sound : chain.Sound) (above : chain.first ≤ height) (within : height ≤ chain.next) :
    (chain.below height).below height = chain.below height := by
  have whole := below_next (below_sound sound within)
  rwa [next_below above] at whole

theorem validate_below (block : CompactBlock) (sound : chain.Sound) (above : chain.first ≤ height)
    (within : height ≤ chain.next) :
    (chain.below height).validate height block = chain.validate height block := by
  have kept := below_sound sound within
  have next := next_below above
  have hash : (chain.below height).hashBelow? height = chain.hashBelow? height := by
    rw [hashBelow?_eq kept above (Nat.le_of_eq next.symm), below_below sound above within,
      hashBelow?_eq sound above within]
  have inside : ¬ (height < chain.first ∨ chain.next < height) := by omega
  have insideBelow : ¬ (height < (chain.below height).first ∨ (chain.below height).next < height) := by
    rw [next]
    exact not_or.mpr ⟨Nat.not_lt.mpr above, Nat.lt_irrefl height⟩
  rw [validate, validate, if_neg inside, if_neg insideBelow, hash]

namespace MirroredBy

theorem indexLength_eq (mirrored : chain.MirroredBy files) : files.index.length = chain.indexLength := by
  rw [mirrored.entries, indexLength, Nat.mul_comm]
  rfl

theorem withinFiles (mirrored : chain.MirroredBy files) {count : Nat}
    (within : count ≤ chain.blocks.length) :
    (chain.below (chain.first + count)).WithinFiles files ∧
      (chain.below (chain.first + count)).filesUpTo files = cutAt files count := by
  obtain ⟨entries, records⟩ := mirrored.longest.occupies
  have less := recordStart_mono files.index within
  have stop : (chain.below (chain.first + count)).endOffset = recordStart files.index count :=
    mirrored.recordOffset_eq within
  have length : (chain.below (chain.first + count)).indexLength = 41 * count := by
    simp only [indexLength, below, Nat.add_sub_cancel_left, List.length_take_of_le within, Nat.mul_comm]
    rfl
  refine ⟨⟨?_, ?_⟩, ?_⟩
  next =>
    rw [stop]
    exact Nat.le_trans less records
  next =>
    rw [length]
    exact Nat.le_trans (Nat.mul_le_mul_left 41 within) entries
  next => rw [filesUpTo, stop, length, cutAt]

theorem below (mirrored : chain.MirroredBy files) {count : Nat} (within : count ≤ chain.blocks.length) :
    (chain.below (chain.first + count)).MirroredBy (cutAt files count) := by
  obtain ⟨entries, records⟩ := mirrored.longest.occupies
  have index : (cutAt files count).index.length = 41 * count :=
    List.length_take_of_le (Nat.le_trans (Nat.mul_le_mul_left 41 within) entries)
  have blocks : (cutAt files count).blocks.length = recordStart files.index count :=
    List.length_take_of_le (Nat.le_trans (recordStart_mono files.index within) records)
  obtain ⟨longest, counted, kept⟩ := mirrored.recover_front within (cutAt_cutAt files count)
    fun previous block attests => by
      have more := attests.whole
      rw [index] at more
      omega
  have clean := longest.clean.mpr (by rw [index, counted])
  refine ⟨?_, blocks.trans (mirrored.recordOffset_eq within).symm⟩
  rw [← kept]
  change recover chain.first (cutAt files count) = _
  generalize recover chain.first (cutAt files count) = recovered at clean
  obtain ⟨found, starts, damage⟩ := recovered
  obtain rfl : damage = none := clean
  rfl

theorem filesUpTo_eq (mirrored : chain.MirroredBy files) : chain.filesUpTo files = files := by
  rw [filesUpTo, ← mirrored.records, ← mirrored.indexLength_eq, List.take_length, List.take_length]

theorem below_filesUpTo (mirrored : chain.MirroredBy files) (sound : chain.Sound)
    (above : chain.first ≤ height) (within : height ≤ chain.next) :
    (chain.below height).WithinFiles files ∧
      (chain.below height).MirroredBy ((chain.below height).filesUpTo files) := by
  obtain ⟨count, rfl⟩ := Nat.exists_eq_add_of_le above
  have few : count ≤ chain.blocks.length := by
    have next := sound.next_eq
    omega
  obtain ⟨inside, cut⟩ := mirrored.withinFiles few
  rw [cut]
  exact ⟨inside, mirrored.below few⟩

-- The files are cut first, which does not fail; the rest is to append to the blocks below.
theorem add_eq_append (mirrored : chain.MirroredBy files) (sound : chain.Sound)
    (valid : chain.validate height block = .ok ()) (cuts : medium.Cuts) :
    ∃ step, (chain.add height block).run medium files =
        ((chain.below height).append height block).runFrom medium step
          ((chain.below height).filesUpTo files) ∧
      medium.firstFailure? 0 (chain.add height block).effects files =
        medium.firstFailure? step ((chain.below height).append height block).effects
          ((chain.below height).filesUpTo files) := by
  obtain ⟨above, within, fits⟩ := validate_ok sound valid
  rw [add_effects sound]
  simp only [add, valid, Script.run]
  by_cases less : height < chain.next
  next =>
    have inside := (mirrored.below_filesUpTo sound above within).1
    rw [if_pos less, if_pos less, cutFiles_firstFailure? cuts inside, cutFiles_runFrom cuts inside]
    exact ⟨2, rfl, rfl⟩
  next =>
    obtain rfl : height = chain.next := by omega
    rw [if_neg less, if_neg less, below_next sound, mirrored.filesUpTo_eq, List.nil_append]
    exact ⟨0, rfl, rfl⟩

theorem add_fails (mirrored : chain.MirroredBy files) (sound : chain.Sound)
    (valid : chain.validate height block = .ok ()) (cuts : medium.Cuts)
    (fails : medium.firstFailure? 0 (chain.add height block).effects files = some failure) :
    (chain.add height block).run medium files =
      (⟨chain.below height, .error (.corruption height .writing failure.cause), []⟩,
        (chain.below height).filesUpTo files) := by
  obtain ⟨above, within, fits⟩ := validate_ok sound valid
  have kept := (mirrored.below_filesUpTo sound above within).2
  obtain ⟨step, ran, effects⟩ := mirrored.add_eq_append sound valid cuts
  rw [effects] at fails
  rw [ran, append_runFrom cuts fits.low kept.records kept.indexLength_eq fails]

-- A block that is too long is never written, so writing it cannot fail.
theorem add_completes (mirrored : chain.MirroredBy files) (sound : chain.Sound)
    (valid : chain.validate height block = .ok ()) (cuts : medium.Cuts)
    (fails : medium.firstFailure? 0 (chain.add height block).effects files = some failure) :
    (chain.add height block).result =
      ⟨(chain.below height).push block (recordLength block), .ok (), []⟩ := by
  have low := (validate_ok sound valid).2.2.low
  obtain ⟨step, -, effects⟩ := mirrored.add_eq_append sound valid cuts
  rw [effects, append_effects _ low] at fails
  rw [add_result sound]
  simp only [valid, append_result]
  split at fails
  next => contradiction
  next short => rw [if_neg short]

theorem add_again (mirrored : chain.MirroredBy files) (sound : chain.Sound)
    (valid : chain.validate height block = .ok ()) :
    ((chain.below height).add height block).run .perfect ((chain.below height).filesUpTo files) =
      (chain.add height block).run .perfect files := by
  obtain ⟨above, within, fits⟩ := validate_ok sound valid
  obtain ⟨inside, kept⟩ := mirrored.below_filesUpTo sound above within
  have again := (validate_below block sound above within).trans valid
  have full : ¬ height < (chain.below height).next := Nat.not_lt.mpr (Nat.le_of_eq (next_below above))
  have keeps := below_sound sound within
  rw [Script.run_perfect_eq, Script.run_perfect_eq, add_result sound, add_result keeps,
    add_effects sound, add_effects keeps]
  simp only [valid, again, below_below sound above within, if_neg full, List.nil_append,
    List.foldl_append]
  by_cases less : height < chain.next
  next =>
    rw [if_pos less, cutFiles_effects, List.foldl_cons, List.foldl_cons, List.foldl_nil,
      apply_cutFiles inside]
  next =>
    obtain rfl : height = chain.next := by omega
    rw [if_neg less, below_next sound, mirrored.filesUpTo_eq, List.foldl_nil]

end MirroredBy

theorem Recorded.below_filesUpTo (recorded : chain.Recorded) (above : chain.first ≤ height)
    (within : height ≤ chain.next) :
    (chain.below height).filesUpTo chain.files = (chain.below height).files := by
  have inside := (recorded.mirroredBy.below_filesUpTo recorded.sound above within).1
  have cut := cutFiles_below recorded within
  rwa [cutFiles_effects, List.foldl_cons, List.foldl_cons, List.foldl_nil, apply_cutFiles inside] at cut

end HeldChain

end CompactChain.Store
