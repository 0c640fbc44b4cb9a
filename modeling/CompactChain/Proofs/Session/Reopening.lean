import CompactChain.Proofs.Session.Launching

set_option autoImplicit false

namespace CompactChain.Session

open Cache (Vacant handlesAt place)
open Store (HeldChain blocksImage entryImage indexImage recordLength recordStarts)

variable {settings : Settings} {session : Session}

structure Persisted (settings : Settings) (session : Session) (chain : HeldChain) : Prop where
  blocks : session.tree.find? (place settings .blocks) =
    some (.file (blocksImage chain.first chain.blocks))
  index : session.tree.find? (place settings .index) =
    some (.file (indexImage chain.first chain.blocks))
  -- four bytes are enough for the height and for the length, so an entry tells both
  entries : ∀ (i : Nat) (block : CompactBlock), chain.blocks[i]? = some block →
    chain.first + i < 0x100000000 ∧ block.encode.length < 0x100000000 ∧
      (entryImage (chain.first + i) block).length = 41
  starts : chain.starts = recordStarts 0 (chain.blocks.map recordLength)
  launched : Launches settings session.close chain.files
  reopened : ∀ capacity,
    let again := session.close.openCache (settings.reopening none capacity)
    again.2 = (.ok (), []) ∧ (∀ path, again.1.tree.find? path = session.tree.find? path) ∧
      again.1.cache.map Cache.chain = some chain
  resynced : ∀ height capacity,
    let again := session.close.openCache (settings.reopening (some height) capacity)
    let rolled := session.ran .perfect fun chain => chain.reorg height
    again.2 = (.ok (), []) ∧ again.1.tree = rolled.tree ∧
      again.1.cache.map Cache.chain = rolled.cache.map Cache.chain

theorem Lasting.persisted {cache : Cache}
    (lasting : Lasting settings session cache.chain cache.chain.files)
    (held : session.cache = some cache) : Persisted settings session cache.chain := by
  have sound := lasting.recorded.sound
  have stored := lasting.ready.stored
  have closed : Lasting settings session.close cache.chain cache.chain.files :=
    { lasting with held := fun _ none => by contradiction }
  refine ⟨stored .blocks, stored .index, ?entries, lasting.recorded.starts, closed.launches, ?reopened,
    ?resynced⟩
  case entries =>
    intro i block found
    obtain ⟨within, _⟩ := List.getElem?_eq_some_iff.mp found
    have low := sound.next_le
    rw [sound.next_eq] at low
    exact ⟨by omega, lasting.recorded.short block (List.mem_of_getElem? found),
      Store.length_entryImage (sound.follows.height_eq found).2⟩
  case reopened =>
    intro capacity
    obtain ⟨copied, warnings, stays, clean, opened⟩ := closed.openCache none capacity
    obtain ⟨rfl, rfl⟩ := clean rfl
    simp only [opened]
    exact ⟨trivial, fun path => stays.find?_store_self path, rfl⟩
  case resynced =>
    intro height capacity
    obtain ⟨copied, warnings, stays, clean, opened⟩ := closed.openCache (some height) capacity
    obtain ⟨rfl, rfl⟩ := clean rfl
    have rolled : session.ran .perfect (fun chain => chain.reorg height) = _ :=
      lasting.ran_eq held (HeldChain.reorg_mirrors lasting.recorded height)
    rw [HeldChain.reorg_result sound] at rolled
    simp only [opened, rolled]
    exact ⟨trivial, rfl, rfl⟩

theorem lasting_after_steps {tree : Tree} {steps : List Step} {cache : Cache}
    (vacant : Vacant settings tree)
    (held : (steps.foldl (stepped settings) ⟨tree, none⟩).cache = some cache) :
    Lasting settings (steps.foldl (stepped settings) ⟨tree, none⟩) cache.chain cache.chain.files := by
  have begins : Durable settings ⟨tree, none⟩ := .inl ⟨rfl, vacant.blank⟩
  rcases steps_durable begins steps with ⟨closed, _⟩ | ⟨chain, files, lasting⟩
  · rw [closed] at held
    contradiction
  · obtain ⟨rfl, _, rfl⟩ := lasting.held cache held
    exact lasting

/-- The cache of every session that began in an empty directory is on disk. -/
theorem persisted_after_steps (settings : Settings) (tree : Tree) (vacant : Vacant settings tree)
    (steps : List Step) (cache : Cache)
    (held : (steps.foldl (stepped settings) ⟨tree, none⟩).cache = some cache) :
    Persisted settings (steps.foldl (stepped settings) ⟨tree, none⟩) cache.chain :=
  (lasting_after_steps vacant held).persisted held

def sampleSteps : List Step :=
  [.opening none none, .operation (.add 5 (sampleBlock 5)), .operation (.add 6 (sampleBlock 6)),
    .crash (.reorg 6) 1 0, .opening none none, .operation (.add 7 (sampleBlock 7)),
    .operation (.add 6 (sampleBlock 6)), .crash (.add 7 (sampleBlock 7)) 1 20, .closing,
    .opening (some 9) none]

theorem sample_open :
    (sampleSteps.foldl (stepped sampleSettings) ⟨.empty, none⟩).cache.isSome = true := by
  decide +kernel

theorem persisted_after_sample : ∃ cache,
    (sampleSteps.foldl (stepped sampleSettings) ⟨.empty, none⟩).cache = some cache ∧
      Persisted sampleSettings (sampleSteps.foldl (stepped sampleSettings) ⟨.empty, none⟩)
        cache.chain := by
  obtain ⟨cache, held⟩ := Option.isSome_iff_exists.mp sample_open
  exact ⟨cache, held, persisted_after_steps sampleSettings _ (Cache.vacant_empty sampleSettings)
    sampleSteps cache held⟩

/-- Wherever an operation is cut short, the cache opens again, on a chain that it may leave behind. -/
theorem reopens_after_crash (settings : Settings) (tree : Tree) (vacant : Vacant settings tree)
    (steps : List Step) (cache : Cache)
    (held : (steps.foldl (stepped settings) ⟨tree, none⟩).cache = some cache)
    (operation : Operation) (complete count : Nat) (syncFrom capacity : Option Nat) :
    let crashed := (steps.foldl (stepped settings) ⟨tree, none⟩).crashed operation complete count
    let again := crashed.openCache (settings.reopening syncFrom capacity)
    Launches settings crashed (operation.left cache.chain complete count) ∧
      again.2.1 = .ok () ∧ ∃ kept, operation.Leaves cache.chain kept ∧
        again.1.cache.map Cache.chain = some (kept.discard syncFrom) := by
  have lasting := lasting_after_steps vacant held
  obtain ⟨kept, leaves, after⟩ := lasting.crashed held operation complete count
  obtain ⟨copied, warnings, _, _, opened⟩ := after.openCache syncFrom capacity
  simp only [opened]
  exact ⟨after.launches, trivial, kept, leaves, rfl⟩

theorem reopens_after_torn_write : ∃ cache,
    (sampleSteps.foldl (stepped sampleSettings) ⟨.empty, none⟩).cache = some cache ∧
      let crashed := (sampleSteps.foldl (stepped sampleSettings) ⟨.empty, none⟩).crashed
        (.add 6 (sampleBlock 6)) 2 17
      let again := crashed.openCache (sampleSettings.reopening none none)
      Launches sampleSettings crashed (Operation.left cache.chain (.add 6 (sampleBlock 6)) 2 17) ∧
        again.2.1 = .ok () ∧ ∃ kept, Operation.Leaves cache.chain kept (.add 6 (sampleBlock 6)) ∧
          again.1.cache.map Cache.chain = some (kept.discard none) := by
  obtain ⟨cache, held⟩ := Option.isSome_iff_exists.mp sample_open
  exact ⟨cache, held, reopens_after_crash sampleSettings _ (Cache.vacant_empty sampleSettings)
    sampleSteps cache held (.add 6 (sampleBlock 6)) 2 17 none none⟩

end CompactChain.Session
