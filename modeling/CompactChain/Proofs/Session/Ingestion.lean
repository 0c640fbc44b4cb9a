import CompactChain.Proofs.Chain.Compacting
import CompactChain.Proofs.Session.Attached
import CompactChain.Proofs.Session.Calls

set_option autoImplicit false

namespace CompactChain

open Store (Error HeldChain Medium Outcome Question Reply Script Warning recordLength)

namespace Store

-- The block is not one that could stand at this height in any chain.
def Error.BlamesBlock : Error → Prop
  | .wrongHeight _ _ => True
  | .invalidBlock _ => True
  | _ => False

def Error.Malformed : Error → Prop
  | .parse _ => True
  | .invalidBlock (.trailingBytes _ _) => True
  | _ => False

namespace HeldChain

variable {chain : HeldChain} {height : Nat} {block : CompactBlock}

theorem validate_blames {error : Error} (own : block.height.toNat = height)
    (hash : block.hash.length = 32) (refused : chain.validate height block = .error error) :
    ¬ error.BlamesBlock := by
  unfold validate at refused
  rw [if_neg (not_not_intro own), if_neg (not_not_intro hash)] at refused
  intro blames
  split at refused
  · obtain rfl := Except.error.inj refused; exact blames
  split at refused
  · obtain rfl := Except.error.inj refused; exact blames
  split at refused
  · obtain rfl := Except.error.inj refused; exact blames
  · contradiction

-- The block stands on what is below its height, or it is refused for something else than itself.
def Adds (chain : HeldChain) (height : Nat) (block : CompactBlock) (outcome : Outcome Unit) : Prop :=
  (outcome.answer = .ok () ∧ chain.first ≤ height ∧ height ≤ chain.next ∧
    outcome.chain = (chain.below height).push block (recordLength block)) ∨
  ∃ error, outcome.answer = .error error ∧ ¬ error.BlamesBlock

theorem append_told (chain : HeldChain) (height : Nat) (block : CompactBlock) :
    (chain.append height block).Ensures fun outcome =>
      outcome.answer = .ok () ∧ outcome.chain = chain.push block (recordLength block) ∨
        ∃ error, outcome.answer = .error error ∧ ¬ error.BlamesBlock := by
  unfold append
  simp only
  split
  · exact .inr ⟨_, rfl, id⟩
  · apply Script.Ensures.bind_forall
    intro written
    cases written with
    | ok => exact .inl ⟨rfl, by rw [length_record]; rfl⟩
    | error cause =>
      apply Script.Ensures.bind_forall
      intro cut
      cases cut with
      | ok => exact .inr ⟨_, rfl, id⟩
      | error cause => exact .inr ⟨_, rfl, id⟩

theorem add_told (sound : chain.Sound) (own : block.height.toNat = height)
    (hash : block.hash.length = 32) :
    (chain.add height block).Ensures (chain.Adds height block) := by
  unfold add
  split
  next error refused => exact .inr ⟨error, rfl, validate_blames own hash refused⟩
  next valid =>
    obtain ⟨above, within, -⟩ := validate_ok sound valid
    have told : ((chain.below height).append height block).Ensures (chain.Adds height block) :=
      (append_told (chain.below height) height block).mono fun outcome =>
        Or.imp_left fun added => ⟨added.1, above, within, added.2⟩
    split
    · apply Script.Ensures.bind_forall
      intro cut
      cases cut with
      | error cause => exact .inr ⟨_, rfl, id⟩
      | ok => exact told
    next full =>
      have whole : chain.below height = chain := by
        rw [show height = chain.next by omega, below_next sound]
      simpa only [whole] using told

theorem get?_push_below {length : Nat} (sound : chain.Sound) (above : chain.first ≤ height)
    (within : height ≤ chain.next) :
    let after := (chain.below height).push block length
    after.get? height = some block ∧ after.latestHeight = height := by
  have counted := length_below sound within
  have next : ((chain.below height).push block length).next = height + 1 := by
    simp only [push, below]
    omega
  have found : ((chain.below height).push block length).blocks[height - chain.first]? = some block := by
    rw [← counted]
    exact List.getElem?_concat_length
  constructor
  · rw [get?, next, if_neg (by simp only [push, below]; omega)]
    exact found
  · rw [latestHeight, next, if_neg (by simp only [push, below]; omega)]
    omega

variable {data : Bytes} {txids : List Bytes} {treeSize : UInt32}

theorem compactOfRaw_of_not (none : ∀ block : Block, ¬ block.EncodedIn data txids) :
    ∃ error, compactOfRaw data txids treeSize = .error error ∧ error.Malformed := by
  unfold compactOfRaw
  split
  next cause _ => exact ⟨.parse cause, rfl, trivial⟩
  next block rest parsed =>
    by_cases whole : rest = []
    next =>
      obtain ⟨taken, reads, spelled⟩ := Reader.parse_eq_ok_iff.mp parsed
      obtain ⟨form, rfl, gives⟩ := Block.reads_read.mp reads
      rw [whole, List.append_nil] at spelled
      exact absurd ⟨form, spelled, gives⟩ (none block)
    next =>
      rw [if_neg (by simpa using whole)]
      exact ⟨_, rfl, trivial⟩

theorem compactOfRaw_of_encoded {block : Block} (encoded : block.EncodedIn data txids) :
    ∃ compact, block.toCompact treeSize = .ok compact ∧
      compactOfRaw data txids treeSize = .ok (block.height, compact) := by
  have compacted := encoded.identified.toCompact_eq treeSize
  obtain ⟨form, rfl, gives⟩ := encoded
  have parsed : (Block.read (some txids) none).parse form.bytes = .ok (block, []) :=
    Reader.parse_eq_ok_iff.mpr
      ⟨form.layout, Block.reads_read.mpr ⟨form, rfl, gives⟩, (List.append_nil _).symm⟩
  refine ⟨_, compacted, ?_⟩
  simp only [compactOfRaw, parsed, List.isEmpty_nil, if_true, compacted]

end HeldChain

end Store

namespace Session

variable {session after : Session} {cache : Cache} {medium : Medium} {data : Bytes}
  {txids : List Bytes} {treeSize : UInt32} {block : Block} {compact : CompactBlock}
  {height : Nat}

theorem run_addRaw (session : Session) (medium : Medium)
    (raw : HeldChain.compactOfRaw data txids treeSize = .ok (height, compact)) :
    session.run medium (fun chain => chain.addRaw data txids treeSize) =
      (session.run medium fun chain => chain.add height compact).map
        fun (after, answer, warnings) => (after, answer.map fun _ => height, warnings) := by
  cases held : session.cache with
  | none => simp only [run, held, Option.map_none]
  | some cache =>
    simp only [run, held, Option.map_some, Cache.run, HeldChain.addRaw, raw, Script.run_map]

structure Ingests (session : Session) (medium : Medium) (data : Bytes) (txids : List Bytes)
    (treeSize : UInt32) (block : Block) (compact : CompactBlock) : Prop where
  added : session.run medium (fun chain => chain.addRaw data txids treeSize) =
    (session.run medium fun chain => chain.add block.height compact).map
      fun (after, answer, warnings) => (after, answer.map fun _ => block.height, warnings)
  refused : ∀ after error warnings,
    session.run medium (fun chain => chain.addRaw data txids treeSize) =
      some (after, .error error, warnings) → ¬ error.BlamesBlock
  found : ∀ after height warnings,
    session.run medium (fun chain => chain.addRaw data txids treeSize) =
      some (after, .ok height, warnings) →
    height = block.height ∧ ∃ view : CompactBlock, view.Shows block.revealed ∧
      { view with transactions := compact.transactions, metadata := compact.metadata } = compact ∧
      after.replies [.ask (.block height), .ask .latestHeight, .ask (.nullifiers height),
          .ask (.block height)] =
        some [.block (some compact), .height height, .block (some view), .block (some compact)]

theorem Attached.add_told (attached : session.Attached) (held : session.cache = some cache)
    (own : compact.height.toNat = height) (hash : compact.hash.length = 32) (medium : Medium) :
    ∃ after answer warnings,
      session.run medium (fun chain => chain.add height compact) = some (after, answer, warnings) ∧
      ((answer = .ok () ∧ ∃ cache, after.cache = some cache ∧
          cache.chain.get? height = some compact ∧ cache.chain.latestHeight = height) ∨
        ∃ error, answer = .error error ∧ ¬ error.BlamesBlock) := by
  have sound := (attached cache held).sound
  have told := (HeldChain.add_told sound own hash).run medium (cache.handles.files session.tree)
  rw [attached.run_eq held]
  refine ⟨_, _, _, rfl, ?_⟩
  rcases told with ⟨answered, above, within, pushed⟩ | refused
  · refine .inl ⟨answered, _, rfl, ?_⟩
    simp only [pushed]
    exact HeldChain.get?_push_below sound above within
  · exact .inr refused

theorem Attached.ingests (attached : session.Attached) (held : session.cache = some cache)
    (encoded : block.EncodedIn data txids) (medium : Medium) :
    ∃ compact, block.toCompact treeSize = .ok compact ∧
      session.Ingests medium data txids treeSize block compact := by
  obtain ⟨compact, compacted, raw⟩ := HeldChain.compactOfRaw_of_encoded encoded
  obtain ⟨own, hash⟩ := encoded.identified.fits compacted
  obtain ⟨after, answer, warnings, ran, told⟩ := attached.add_told held own hash medium
  have added := run_addRaw session medium raw
  refine ⟨compact, compacted, added, ?refused, ?found⟩
  case refused =>
    intro _ error _ refused
    rw [added, ran] at refused
    rcases told with ⟨rfl, _⟩ | ⟨cause, rfl, innocent⟩
    · simp [Except.map] at refused
    · obtain ⟨-, rfl, -⟩ := by simpa [Except.map] using refused
      exact innocent
  case found =>
    intro _ height _ answered
    rw [added, ran] at answered
    rcases told with ⟨rfl, kept, stays, found, latest⟩ | ⟨cause, rfl, _⟩
    · obtain ⟨rfl, rfl, -⟩ := by simpa [Except.map] using answered
      refine ⟨rfl, compact.nullifiersOnly, encoded.identified.shows compacted, rfl, ?_⟩
      simp [replies, call, stays, HeldChain.reply, HeldChain.nullifiersAt?, found, latest]
    · simp [Except.map] at answered

/-- Whatever a cache was opened on and went through: bytes that are not the encoding of one block, with
an id for each of its transactions, change nothing. An encoding is added in its compact form. -/
theorem ingests_raw (tree : Tree) (events : List Event) (own : ∀ event ∈ events, event.Own)
    (cache : Cache) (held : (events.foldl Session.after ⟨tree, none⟩).cache = some cache)
    (data : Bytes) (txids : List Bytes) (treeSize : UInt32) (medium : Medium) :
    let session := events.foldl Session.after ⟨tree, none⟩
    ((∀ block : Block, ¬ block.EncodedIn data txids) → ∃ after error,
      session.run medium (fun chain => chain.addRaw data txids treeSize) =
        some (after, .error error, []) ∧ error.Malformed ∧ Unchanged session after) ∧
    ∀ block : Block, block.EncodedIn data txids → ∃ compact,
      block.toCompact treeSize = .ok compact ∧
        session.Ingests medium data txids treeSize block compact := by
  have attached := attached_after_events tree own
  constructor
  next =>
    intro none
    obtain ⟨error, raw, malformed⟩ := HeldChain.compactOfRaw_of_not none
    have idle : cache.chain.addRaw data txids treeSize = pure ⟨cache.chain, .error error, []⟩ := by
      rw [HeldChain.addRaw, raw]
    obtain ⟨after, refused, unchanged⟩ := attached.run_pure held medium
      (fun chain => chain.addRaw data txids treeSize) idle
    exact ⟨after, error, refused, malformed, unchanged⟩
  next => exact fun block encoded => attached.ingests held encoded medium

def zeros (width : Nat) : FixedBytes width :=
  ⟨List.replicate width 0, List.length_replicate⟩

def sampleForm : BlockForm where
  header := ⟨4, ⟨List.replicate 32 5, rfl⟩, zeros 32, zeros 32, 7, zeros 4, zeros 32, ⟨[], by decide⟩⟩
  transactions := ⟨[
    .v4 ⟨⟨⟨[⟨zeros 32, zeros 4, ⟨[0x56], by decide⟩, zeros 4⟩], by decide⟩, ⟨[], by decide⟩⟩,
      zeros 4, zeros 4, zeros 8⟩,
    .v5 ⟨⟨5, by decide⟩, 0, zeros 4, zeros 4, ⟨⟨[], by decide⟩, ⟨[], by decide⟩⟩,
      some ⟨[⟨zeros 32, ⟨List.replicate 32 9, rfl⟩, zeros 32, zeros 32, zeros 32, zeros 580, zeros 80⟩],
        by decide, by decide, zeros 1, 0, zeros 32, ⟨[], by decide⟩, zeros (64 * 1), zeros 64⟩⟩],
    by decide⟩

def sampleIds : List Bytes :=
  [List.replicate 32 1, List.replicate 32 2]

def sampleRaw : Block where
  header := sampleForm.header.header
  transactions := sampleForm.transactions.val.mapIdx fun index tx => tx.transaction sampleIds[index]?
  height := 6

theorem sampleRaw_encoded : sampleRaw.EncodedIn sampleForm.bytes sampleIds := by
  refine ⟨sampleForm, rfl, ?_⟩
  exact {
    idForEach := by rintro _ ⟨⟩; rfl
    ids := by rintro _ ⟨⟩; decide
    fields := rfl
    rewritten := sampleForm.header.write_fields
    raw := rfl
    hash := rfl
    transactions := rfl
    height := ⟨_, _, _, _, [0x56], [], 6, rfl, rfl, rfl, .shortest 6 (by decide), by decide, rfl⟩ }

theorem ingests_sample : ∃ cache compact after warnings,
    let session := sampleEvents.foldl Session.after ⟨damagedTree, none⟩
    session.cache = some cache ∧ sampleRaw.toCompact 3 = .ok compact ∧
      sampleRaw.revealed = [(1, some (List.replicate 32 2), [List.replicate 32 9])] ∧
      session.run .perfect (fun chain => chain.addRaw sampleForm.bytes sampleIds 3) =
        some (after, .ok 6, warnings) ∧
      session.Ingests .perfect sampleForm.bytes sampleIds 3 sampleRaw compact := by
  have taken : ((sampleEvents.foldl Session.after ⟨damagedTree, none⟩).run .perfect
      fun chain => chain.addRaw sampleForm.bytes sampleIds 3).map (fun ran => ran.2.1) =
        some (.ok 6) := by
    decide +kernel
  obtain ⟨⟨after, answer, warnings⟩, ran, answered⟩ := Option.map_eq_some_iff.mp taken
  obtain rfl : answer = .ok 6 := answered
  obtain ⟨cache, held, -⟩ := Option.map_eq_some_iff.mp ran
  have own : ∀ event ∈ sampleEvents, event.Own := by simp [sampleEvents, Event.Own]
  obtain ⟨compact, compacted, ingests⟩ := (ingests_raw damagedTree sampleEvents own cache held
    sampleForm.bytes sampleIds 3 .perfect).2 sampleRaw sampleRaw_encoded
  exact ⟨cache, compact, after, warnings, held, compacted, rfl, ran, ingests⟩

end Session

end CompactChain
