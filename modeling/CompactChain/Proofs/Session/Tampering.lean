import CompactChain.Proofs.Session.Found
import CompactChain.Proofs.Store.Tampering

set_option autoImplicit false

namespace CompactChain.Session

open Cache (Ready Vacant filePath)
open Store (Discerned Files HeldChain Part)

variable {settings : Settings} {session : Session} {files : Files}

theorem changed?_patch (ready : Ready settings session.tree files) (chain : HeldChain) (place : Nat)
    (part : Part) (data : Bytes) :
    ∃ tree, Ready settings tree (part.replace chain files place data) ∧
      session.changed? [.patch (filePath settings part.file) (part.offset chain place) data] =
        some ⟨tree, session.cache⟩ := by
  obtain ⟨tree, there, -, changed⟩ := changed?_cons session
    (.patch (filePath settings part.file) (part.offset chain place) data) ready rfl []
  exact ⟨tree, there, changed⟩

/-- Whichever part of a block's entry and record is changed, the cache holds the blocks below when it is
opened again, and tells where the damage is. -/
theorem tampering_found (settings : Settings) (tree : Tree) (vacant : Vacant settings tree)
    (steps : List Step) (cache : Cache)
    (held : (steps.foldl (stepped settings) ⟨tree, none⟩).cache = some cache) (place : Nat)
    (within : place < cache.chain.blocks.length) (part : Part) (data : Bytes)
    (length : data.length = part.length cache.chain place)
    (changed : data ≠ part.bytes cache.chain cache.chain.files place)
    (discerned : Discerned cache.chain.first place cache.chain.files
      (part.replace cache.chain cache.chain.files place data)) :
    let closed := (steps.foldl (stepped settings) ⟨tree, none⟩).close
    ∃ left, closed.changed? [.patch (filePath settings part.file) (part.offset cache.chain place) data] =
        some left ∧
      Reopens settings left (part.replace cache.chain cache.chain.files place data)
        (cache.chain.below (cache.chain.first + place)) ∧
      Reports settings left (cache.chain.first + place) place := by
  intro closed
  have lasting := lasting_after_steps vacant held
  have there : Ready settings closed.tree cache.chain.files := lasting.ready
  obtain ⟨left, ready, patched⟩ := changed?_patch there cache.chain place part data
  obtain ⟨-, counted, same, damaged⟩ :=
    lasting.recorded.mirroredBy.recover_replace within length changed discerned
  rw [lasting.first] at counted same damaged
  rw [lasting.first, ← same]
  exact ⟨_, patched, reopens_recovered ready lasting.checked,
    reports_recovered ready lasting.checked damaged counted⟩

-- The first entry tells one byte less of the body than there is.
def shortenedEntry : Bytes :=
  (filledCache.chain.files.index.take 41).set 5 69

theorem shortened_entry_found :
    let closed := (filledSteps.foldl (stepped sampleSettings) ⟨.empty, none⟩).close
    ∃ left, closed.changed? [.patch (filePath sampleSettings .index) 0 shortenedEntry] = some left ∧
      Reopens sampleSettings left
        (Part.entry.replace filledCache.chain filledCache.chain.files 0 shortenedEntry)
        (filledCache.chain.below 5) ∧
      Reports sampleSettings left 5 0 := by
  have discerned : Discerned 5 0 filledCache.chain.files
      (Part.entry.replace filledCache.chain filledCache.chain.files 0 shortenedEntry) := by
    unfold Discerned
    decide +kernel
  exact tampering_found sampleSettings _ (Cache.vacant_empty sampleSettings) filledSteps filledCache
    filled_open 0 (by decide) .entry shortenedEntry (by decide +kernel) (by decide +kernel) discerned

end CompactChain.Session
