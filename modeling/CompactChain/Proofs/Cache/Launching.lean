import CompactChain.Launch
import CompactChain.Proofs.Cache.Opening
import CompactChain.Proofs.Session.AnyDisk
import CompactChain.Proofs.Store.Guarded
import CompactChain.Proofs.Store.Longest

set_option autoImplicit false

namespace CompactChain.Cache

open Store (Attested Damage Files HasRoom HeldChain IndexEntry Medium Recovered Stop Warning cutAt
  makeRoom recordStart recover recover_longest roomLimit)

variable {settings : Settings} {tree : Tree} {files : Files}

theorem stop?_of_found (found : found? tree settings = some files) (checked : settings.check = .ok ())
    (small : files.blocks.length ≤ roomLimit) :
    stop? tree settings =
      match makeRoom (settings.capacity.getD 0) (files.index.length / IndexEntry.encodedLength) with
      | .error stop => some stop
      | .ok () => none := by
  simp only [stop?, found, Store.recoverGuarded_eq (Settings.startHeight_lt checked) small]
  cases makeRoom (settings.capacity.getD 0) (files.index.length / IndexEntry.encodedLength) <;> rfl

theorem Ready.stop?_eq (ready : Ready settings tree files) (checked : settings.check = .ok ())
    (small : files.blocks.length ≤ roomLimit) :
    stop? tree settings =
      match makeRoom (settings.capacity.getD 0) (files.index.length / IndexEntry.encodedLength) with
      | .error stop => some stop
      | .ok () => none := by
  refine stop?_of_found ?_ checked small
  simp only [found?, checked, ready.makeDirectories, foundThere?, ready.openFiles, ready.files_eq]

theorem Ready.launch_eq_ok (ready : Ready settings tree files) (checked : settings.check = .ok ())
    (small : files.blocks.length ≤ roomLimit) (room : HasRoom (settings.capacity.getD 0) files)
    (medium : Medium) :
    launch medium tree settings = .ok (Cache.ofHandles medium tree settings (handlesAt settings)) := by
  simp only [launch, ready.stop?_eq checked small, room.makeRoom, Cache.openIn, checked,
    ready.makeDirectories, openThere, ready.openFiles]

theorem Ready.launch_eq_error (ready : Ready settings tree files) (checked : settings.check = .ok ())
    (small : files.blocks.length ≤ roomLimit) (without : ¬ HasRoom (settings.capacity.getD 0) files)
    (medium : Medium) : launch medium tree settings = .error .noRoom := by
  simp only [launch, ready.stop?_eq checked small, Store.makeRoom_of_not without]

theorem Ready.ofHandles_cutAt {recovered : Recovered} (longest : recovered.Longest settings.startHeight files)
    (ready : Ready settings tree (cutAt files recovered.blocks.length)) (current : settings.syncFrom = none) :
    ∃ same, (∀ path, Tree.find? same path = tree.find? path) ∧
      Cache.ofHandles .perfect tree settings (handlesAt settings) =
        ⟨same, .ok ⟨settings, recovered.chain settings.startHeight, handlesAt settings⟩, []⟩ := by
  have settled := (recover_longest settings.startHeight (cutAt files recovered.blocks.length)).settle
  rw [← current] at settled
  obtain ⟨copied, warnings, _, clean, _, opened⟩ := ready.ofHandles_settled settled
  rw [longest.again] at clean opened
  obtain ⟨rfl, rfl⟩ := clean rfl
  rw [Store.cutAt_cutAt] at opened
  exact ⟨_, ready.find?_store_self, opened⟩

structure Restored (settings : Settings) (files : Files) (opened : Opened) (cache : Cache) : Prop where
  answer : opened.answer = .ok cache
  attested : Attested settings.startHeight files 0 none cache.chain.blocks
  longest : ∀ others, Attested settings.startHeight files 0 none others →
    others <+: cache.chain.blocks
  chain : cache.chain = HeldChain.ofBlocks settings.startHeight
    ((List.range (cache.chain.blocks.length + 1)).map (recordStart files.index)) cache.chain.blocks
  entries : 41 * cache.chain.blocks.length ≤ files.index.length
  records : recordStart files.index cache.chain.blocks.length ≤ files.blocks.length
  index : opened.tree.find? (place settings .index) =
    some (.file (files.index.take (41 * cache.chain.blocks.length)))
  blocks : opened.tree.find? (place settings .blocks) =
    some (.file (files.blocks.take (recordStart files.index cache.chain.blocks.length)))
  reported : ∀ height kept, (∃ damage, Warning.damaged height damage kept ∈ opened.warnings) ↔
    files.index.length ≠ 41 * cache.chain.blocks.length ∧
      height = settings.startHeight + cache.chain.blocks.length ∧ kept = cache.chain.blocks.length
  again : ∃ again, launch .perfect opened.tree settings = .ok again ∧ again.answer = .ok cache ∧
    again.warnings = [] ∧ ∀ path, again.tree.find? path = opened.tree.find? path

theorem Ready.launch_restores (ready : Ready settings tree files) (checked : settings.check = .ok ())
    (current : settings.syncFrom = none) (small : files.blocks.length ≤ roomLimit)
    (room : HasRoom (settings.capacity.getD 0) files) :
    ∃ opened cache, launch .perfect tree settings = .ok opened ∧
      Restored settings files opened cache := by
  have longest := recover_longest settings.startHeight files
  have settled := longest.settle
  rw [← current] at settled
  obtain ⟨copied, warnings, stays, _, reported, opened⟩ := ready.ofHandles_settled settled
  rw [ready.launch_eq_ok checked small room, opened]
  generalize recover settings.startHeight files = recovered at *
  have stored := stays.store (cutAt files recovered.blocks.length)
  have stillSmall := Nat.le_trans (Store.length_cutAt_le files recovered.blocks.length).1 small
  obtain ⟨entries, records⟩ := longest.occupies
  obtain ⟨same, unchanged, reopened⟩ := Ready.ofHandles_cutAt longest stored current
  refine ⟨_, _, rfl, rfl, longest.attested, longest.longest, ?chain, entries, records,
    stored.stored .index, stored.stored .blocks, ?reported, ?again⟩
  case chain =>
    exact congrArg (HeldChain.ofBlocks settings.startHeight · recovered.blocks) longest.starts
  case reported =>
    intro height kept
    simp only [reported, exists_and_right, longest.damaged_iff, and_assoc]
    rfl
  case again =>
    refine ⟨_, stored.launch_eq_ok checked stillSmall (room.cutAt _) .perfect, ?_⟩
    rw [reopened]
    exact ⟨rfl, rfl, unchanged⟩

/-- No damage is fatal: unless there is no room for the blocks, a cache opens on any two files that can be
read at all, with all the blocks that they bear out. -/
theorem launched_on_any_files (settings : Settings) (tree : Tree) (files : Files)
    (checked : settings.check = .ok ()) (current : settings.syncFrom = none)
    (ready : Ready settings tree files) (small : files.blocks.length ≤ roomLimit) :
    (HasRoom (settings.capacity.getD 0) files → ∃ opened cache,
      launch .perfect tree settings = .ok opened ∧ Restored settings files opened cache) ∧
    (¬ HasRoom (settings.capacity.getD 0) files → launch .perfect tree settings = .error .noRoom) :=
  ⟨ready.launch_restores checked current small, fun without =>
    ready.launch_eq_error checked small without .perfect⟩

def partialFiles : Files :=
  ⟨Store.recordImage 5 (Session.sampleBlock 5) ++ [7], Store.entryImage 5 (Session.sampleBlock 5) ++ [1, 6]⟩

def partialTree : Tree where
  entries := [(["db"], .directory), (["db", "testnet"], .directory),
    (["db", "testnet", "index"], .file partialFiles.index),
    (["db", "testnet", "blocks"], .file partialFiles.blocks)]

theorem launched_on_partial_files : ∃ opened cache,
    launch .perfect partialTree Session.sampleSettings = .ok opened ∧
      Restored Session.sampleSettings partialFiles opened cache := by
  have ready : Ready Session.sampleSettings partialTree partialFiles := by
    constructor <;> intro name <;> cases name <;> decide +kernel
  have room : HasRoom (Session.sampleSettings.capacity.getD 0) partialFiles := by
    unfold HasRoom
    decide +kernel
  exact (launched_on_any_files Session.sampleSettings partialTree partialFiles rfl rfl ready
    (by decide +kernel)).1 room

def greedySettings : Settings :=
  { Session.sampleSettings with capacity := some 0xffffffffffffffff }

-- The number of blocks that are expected is not a mere hint: it may be too large for any cache to open.
theorem not_launched_for_capacity :
    greedySettings.check = .ok () ∧ greedySettings.syncFrom = none ∧
      stop? Tree.empty greedySettings = some .noRoom ∧
      ¬ ∃ opened, launch .perfect Tree.empty greedySettings = .ok opened := by
  have stopped : stop? Tree.empty greedySettings = some .noRoom := by decide +kernel
  refine ⟨rfl, rfl, stopped, ?_⟩
  rintro ⟨opened, launched⟩
  rw [launch, stopped] at launched
  contradiction

end CompactChain.Cache
