import CompactChain.Proofs.Cache.Aside
import CompactChain.Proofs.Session.Found
import CompactChain.Proofs.Store.Loss

set_option autoImplicit false

namespace CompactChain.Session

open Cache (Ready Vacant asidePath filePath place placeAside)
open Store (Error Files HeldChain Warning)

variable {settings : Settings} {session : Session} {files : Files} {blocks index : Nat}

def shortening (settings : Settings) (blocks index : Nat) : List FileChange :=
  [.resize (filePath settings .blocks) blocks, .resize (filePath settings .index) index]

theorem changed?_shortening (ready : Ready settings session.tree files)
    (records : blocks ≤ files.blocks.length) (entries : index ≤ files.index.length) :
    ∃ tree, Ready settings tree ⟨files.blocks.take blocks, files.index.take index⟩ ∧
      (∀ path, (∀ name, path ≠ place settings name) → tree.find? path = session.tree.find? path) ∧
      session.changed? (shortening settings blocks index) = some ⟨tree, session.cache⟩ := by
  obtain ⟨first, cutBlocks, firstOthers, firstChanged⟩ := changed?_cons session
    (.resize (filePath settings .blocks) blocks) ready rfl [.resize (filePath settings .index) index]
  obtain ⟨second, cutBoth, secondOthers, secondChanged⟩ := changed?_cons ⟨first, session.cache⟩
    (.resize (filePath settings .index) index) cutBlocks rfl []
  simp only [Files.modify, Store.Contents.resize_of_le records, Store.Contents.resize_of_le entries]
    at cutBoth
  refine ⟨second, cutBoth, ?_, firstChanged.trans secondChanged⟩
  intro path elsewhere
  rw [secondOthers path (elsewhere .index), firstOthers path (elsewhere .blocks)]

/-- However much is lost of both files, a cache that was closed opens again, with those of its blocks
whose entries and records are whole. -/
theorem reopens_after_loss (settings : Settings) (tree : Tree) (vacant : Vacant settings tree)
    (steps : List Step) (cache : Cache)
    (held : (steps.foldl (stepped settings) ⟨tree, none⟩).cache = some cache) (blocks index : Nat)
    (records : blocks ≤ cache.chain.files.blocks.length)
    (entries : index ≤ cache.chain.files.index.length) :
    let closed := (steps.foldl (stepped settings) ⟨tree, none⟩).close
    ∃ left, closed.changed? (shortening settings blocks index) = some left ∧
      ∃ kept, IsGreatest (cache.chain.Readable blocks index) kept ∧
        Reopens settings left
          ⟨cache.chain.files.blocks.take blocks, cache.chain.files.index.take index⟩
          (cache.chain.below (cache.chain.first + kept)) := by
  intro closed
  have lasting := lasting_after_steps vacant held
  have mirrored := lasting.recorded.mirroredBy
  have there : Ready settings closed.tree cache.chain.files := lasting.ready
  obtain ⟨left, ready, -, changed⟩ := changed?_shortening there records entries
  obtain ⟨kept, greatest⟩ := mirrored.exists_readable blocks index
  obtain ⟨longest, counted, same⟩ := mirrored.recover_loss greatest
  refine ⟨_, changed, kept, greatest, ?_⟩
  rw [lasting.first] at same
  rw [lasting.first, ← same]
  exact reopens_recovered ready lasting.checked

theorem reopens_after_torn_ends :
    let closed := (filledSteps.foldl (stepped sampleSettings) ⟨.empty, none⟩).close
    ∃ left, closed.changed? (shortening sampleSettings 203 50) = some left ∧
      ∃ kept, IsGreatest (filledCache.chain.Readable 203 50) kept ∧
        Reopens sampleSettings left
          ⟨filledCache.chain.files.blocks.take 203, filledCache.chain.files.index.take 50⟩
          (filledCache.chain.below (filledCache.chain.first + kept)) := by
  obtain ⟨records, entries⟩ := filled_lengths
  exact reopens_after_loss sampleSettings _ (Cache.vacant_empty sampleSettings) filledSteps filledCache
    filled_open 203 50 (by omega) (by omega)

structure LossTold (settings : Settings) (files : Files) (kept : Nat)
    (opened : Session × Except Error Unit × List Warning) : Prop where
  warned : ∃ damage, Warning.damaged (settings.startHeight + kept) damage kept ∈ opened.2.2
  copied : ∀ name, opened.1.tree.find? (placeAside settings name) = some (.file (files.get name))

section Told

variable (ready : Ready settings session.tree files) (checked : settings.check = .ok ())
  (short : ∀ name, (asidePath (filePath settings name)).utf8ByteSize < Path.textLimit)
  (free : ∀ name, session.tree.find? (placeAside settings name) ≠ some .directory)

include ready checked short free

theorem lossTold_recovered (capacity : Option Nat)
    (more : files.index.length ≠ 41 * (Store.recover settings.startHeight files).blocks.length) :
    LossTold settings files (Store.recover settings.startHeight files).blocks.length
      (session.openCache (settings.reopening none capacity)) := by
  have longest := Store.recover_longest settings.startHeight files
  have damaged := (longest.damaged_iff _).mpr ⟨more, rfl⟩
  refine ⟨reports_recovered ready checked damaged rfl none capacity, ?_⟩
  intro name
  have aside := (ready.reopening none capacity).find?_ofHandles_aside short free
    (mt longest.clean.mp more) .perfect name
  simp only [openCache, openIn_found ready checked]
  split
  next => exact aside
  next => exact aside

end Told

/-- Unless the index ends with the entry of the last block that is held, no loss is passed over. -/
theorem loss_told (settings : Settings) (tree : Tree) (vacant : Vacant settings tree)
    (steps : List Step) (cache : Cache)
    (held : (steps.foldl (stepped settings) ⟨tree, none⟩).cache = some cache) (blocks index : Nat)
    (records : blocks ≤ cache.chain.files.blocks.length)
    (entries : index ≤ cache.chain.files.index.length)
    (short : ∀ name, (asidePath (filePath settings name)).utf8ByteSize < Path.textLimit)
    (free : ∀ name, (steps.foldl (stepped settings) ⟨tree, none⟩).tree.find?
      (placeAside settings name) ≠ some .directory) :
    let closed := (steps.foldl (stepped settings) ⟨tree, none⟩).close
    let files : Files := ⟨cache.chain.files.blocks.take blocks, cache.chain.files.index.take index⟩
    ∃ left, closed.changed? (shortening settings blocks index) = some left ∧
      Launches settings left files ∧ ∀ capacity kept,
        let again := left.openCache (settings.reopening none capacity)
        again.1.cache.map (fun cache => cache.chain.blocks.length) = some kept → index ≠ 41 * kept →
          LossTold settings files kept again := by
  intro closed files
  have lasting := lasting_after_steps vacant held
  have there : Ready settings closed.tree cache.chain.files := lasting.ready
  obtain ⟨tree, ready, others, changed⟩ := changed?_shortening there records entries
  let left : Session := ⟨tree, closed.cache⟩
  have readyLeft : Ready settings left.tree _ := ready
  refine ⟨left, changed, launches_ready readyLeft lasting.checked, ?_⟩
  intro capacity kept again counted more
  have freeLeft (name : Store.FileName) : left.tree.find? (placeAside settings name) ≠ some .directory := by
    rw [others _ (Cache.placeAside_ne_place settings name)]
    exact free name
  obtain ⟨copied, after, warnings, -, -, -, -, opened⟩ :=
    openCache_found readyLeft lasting.checked none capacity
  simp only [again, opened] at counted
  obtain rfl := Option.some.inj counted
  apply lossTold_recovered readyLeft lasting.checked short freeLeft
  rw [List.length_take_of_le entries]
  exact more

theorem filled_free (name : Store.FileName) :
    (filledSteps.foldl (stepped sampleSettings) ⟨.empty, none⟩).tree.find?
      (placeAside sampleSettings name) = none := by
  cases name <;> decide +kernel

theorem short_asidePath (name : Store.FileName) :
    (asidePath (filePath sampleSettings name)).utf8ByteSize < Path.textLimit := by
  cases name <;> decide +kernel

theorem loss_told_of_torn_ends :
    let closed := (filledSteps.foldl (stepped sampleSettings) ⟨.empty, none⟩).close
    let files : Files := ⟨filledCache.chain.files.blocks.take 203, filledCache.chain.files.index.take 82⟩
    ∃ left, closed.changed? (shortening sampleSettings 203 82) = some left ∧
      Launches sampleSettings left files ∧ ∀ capacity kept,
        let again := left.openCache (sampleSettings.reopening none capacity)
        again.1.cache.map (fun cache => cache.chain.blocks.length) = some kept → 82 ≠ 41 * kept →
          LossTold sampleSettings files kept again := by
  obtain ⟨records, entries⟩ := filled_lengths
  have free (name : Store.FileName) :
      (filledSteps.foldl (stepped sampleSettings) ⟨.empty, none⟩).tree.find?
        (placeAside sampleSettings name) ≠ some .directory := by
    simp [filled_free]
  exact loss_told sampleSettings _ (Cache.vacant_empty sampleSettings) filledSteps filledCache
    filled_open 203 82 (by omega) (by omega) short_asidePath free

-- An index that ends with the first entry is that of a shorter chain: nothing tells that a second one was
-- there, and what follows the first record is cut off as bytes that no entry accounts for.
theorem loss_not_told :
    (filledSteps.foldl (stepped sampleSettings) ⟨.empty, none⟩).cache = some filledCache ∧
      filledCache.chain.blocks.length = 2 ∧
      (∀ name, (asidePath (filePath sampleSettings name)).utf8ByteSize < Path.textLimit) ∧
      (∀ name, (filledSteps.foldl (stepped sampleSettings) ⟨.empty, none⟩).tree.find?
        (placeAside sampleSettings name) = none) ∧
      ∀ blocks ∈ [150, 102],
        let closed := (filledSteps.foldl (stepped sampleSettings) ⟨.empty, none⟩).close
        ∃ left, closed.changed? (shortening sampleSettings blocks 41) = some left ∧
          let again := left.openCache (sampleSettings.reopening none none)
          again.2 = (.ok (), []) ∧
            again.1.cache.map (fun cache => cache.chain.blocks.length) = some 1 ∧
            (∀ name, again.1.tree.find? (placeAside sampleSettings name) = none) ∧
            ¬ LossTold sampleSettings
              ⟨filledCache.chain.files.blocks.take blocks, filledCache.chain.files.index.take 41⟩ 1
              again := by
  refine ⟨filled_open, rfl, short_asidePath, filled_free, ?_⟩
  intro blocks member closed
  have opened : ((closed.changed? (shortening sampleSettings blocks 41)).any fun left =>
      let again := left.openCache (sampleSettings.reopening none none)
      again.2 = (.ok (), []) ∧ again.1.cache.map (fun cache => cache.chain.blocks.length) = some 1 ∧
        again.1.tree.find? (placeAside sampleSettings .blocks) = none ∧
        again.1.tree.find? (placeAside sampleSettings .index) = none) = true := by
    revert blocks
    decide +kernel
  cases changed : closed.changed? (shortening sampleSettings blocks 41) with
  | none =>
    rw [changed] at opened
    contradiction
  | some left =>
    rw [changed, Option.any_some, decide_eq_true_eq] at opened
    obtain ⟨answer, counted, noBlocks, noIndex⟩ := opened
    refine ⟨left, rfl, answer, counted, ?_, ?_⟩
    next =>
      intro name
      cases name with
      | blocks => exact noBlocks
      | index => exact noIndex
    next =>
      intro told
      obtain ⟨damage, warned⟩ := told.warned
      rw [answer] at warned
      contradiction

end CompactChain.Session
