import CompactChain.Proofs.Session.Attached
import CompactChain.Proofs.Session.Found
import CompactChain.Proofs.Store.Interrupted

set_option autoImplicit false

namespace CompactChain.Session

open Cache (Ready handlesAt place)
open Store (Failure Files HeldChain Medium)

structure RolledBack (session after : Session) (cache : Cache) (height : Nat) (block : CompactBlock) :
    Prop where
  memory : after.cache = some { cache with chain := cache.chain.below height }
  files : ∀ name, after.tree.find? (place cache.settings name) =
    some (.file (((cache.chain.below height).filesUpTo (cache.handles.files session.tree)).get name))
  others : ∀ path, (∀ name, path ≠ place cache.settings name) →
    after.tree.find? path = session.tree.find? path
  unchanged : height = cache.chain.next → Unchanged session after
  mirrored : (cache.chain.below height).MirroredBy (cache.handles.files after.tree)
  images : cache.chain.Recorded → cache.handles.files session.tree = cache.chain.files →
    cache.handles.files after.tree = (cache.chain.below height).files
  launched : Launches cache.settings after.close
    ((cache.chain.below height).filesUpTo (cache.handles.files session.tree))
  reopened : ∀ syncFrom capacity,
    let again := after.close.openCache (cache.settings.reopening syncFrom capacity)
    again.2 = (.ok (), []) ∧
      again.1.cache.map Cache.chain = some ((cache.chain.below height).discard syncFrom) ∧
      (syncFrom = none → ∀ path, again.1.tree.find? path = after.tree.find? path)
  repeated : ∃ again straight,
    after.run .perfect (fun chain => chain.add height block) = some (again, .ok (), []) ∧
      session.run .perfect (fun chain => chain.add height block) = some (straight, .ok (), []) ∧
      Unchanged straight again

theorem reopens_mirrored {settings : Settings} {session : Session} {chain : HeldChain} {files : Files}
    (ready : Ready settings session.tree files) (checked : settings.check = .ok ())
    (first : chain.first = settings.startHeight) (sound : chain.Sound)
    (mirrored : chain.MirroredBy files) (syncFrom capacity : Option Nat) :
    let again := session.openCache (settings.reopening syncFrom capacity)
    again.2 = (.ok (), []) ∧ again.1.cache.map Cache.chain = some (chain.discard syncFrom) ∧
      (syncFrom = none → ∀ path, again.1.tree.find? path = session.tree.find? path) := by
  obtain ⟨copied, after, warnings, stays, clean, -, cut, opened⟩ :=
    openCache_found ready checked syncFrom capacity
  have recovered := mirrored.recovered
  rw [first] at recovered
  rw [recovered] at clean cut opened
  obtain ⟨rfl, rfl⟩ := clean rfl
  have same : Store.Recovered.chain ⟨chain.blocks, chain.starts, none⟩ settings.startHeight = chain := by
    rw [← first]
    exact HeldChain.ofBlocks_eq sound
  rw [same] at opened
  simp only [opened]
  refine ⟨trivial, rfl, ?_⟩
  rintro rfl path
  rw [cut rfl, mirrored.cutAt_all]
  exact ready.find?_store_self path

section Failed

variable {session : Session} {cache : Cache} {height : Nat} {block : CompactBlock} {medium : Medium}
  {failure : Failure}

theorem rolledBack_of_failure (attached : session.Attached) (agrees : session.Sound)
    (held : session.cache = some cache)
    (mirrored : cache.chain.MirroredBy (cache.handles.files session.tree))
    (valid : cache.chain.validate height block = .ok ()) (cuts : medium.Cuts)
    (fails : medium.firstFailure? 0 (cache.chain.add height block).effects
      (cache.handles.files session.tree) = some failure) :
    ∃ after, session.run medium (fun chain => chain.add height block) =
        some (after, .error (.corruption height .writing failure.cause), []) ∧
      RolledBack session after cache height block := by
  have there := attached cache held
  obtain ⟨checked, sound, first⟩ := agrees cache held
  obtain ⟨above, within, fits⟩ := HeldChain.validate_ok sound valid
  have soundBelow := HeldChain.below_sound sound within
  have kept := (mirrored.below_filesUpTo sound above within).2
  have failed := attached.run_eq held medium fun chain => chain.add height block
  simp only [mirrored.add_fails sound valid cuts fails] at failed
  have again := mirrored.add_again sound valid
  have result := mirrored.add_completes sound valid cuts fails
  have straight := attached.run_eq held .perfect fun chain => chain.add height block
  let left := (cache.chain.below height).filesUpTo (cache.handles.files session.tree)
  have ready := there.ready.store left
  have read : cache.handles.files ((handlesAt cache.settings).store session.tree left).1 = left := by
    rw [there.handles, ready.files_eq]
  refine ⟨_, failed, ?memory, ready.stored, ?others, ?unchanged, ?mirrored, ?images,
    launches_ready ready checked, ?reopened, ?repeated⟩
  case memory => rw [there.handles]
  case others => exact fun path elsewhere => Cache.find?_store_of_ne elsewhere
  case unchanged =>
    rintro rfl
    rw [HeldChain.below_next sound, mirrored.filesUpTo_eq]
    refine ⟨?_, there.ready.find?_store_self⟩
    rw [held, ← there.handles]
  case mirrored => rwa [read]
  case images =>
    intro recorded same
    rw [read, ← recorded.below_filesUpTo above within, ← same]
  case reopened =>
    have firstBelow : (cache.chain.below height).first = cache.settings.startHeight := first
    exact reopens_mirrored ready checked firstBelow soundBelow kept
  case repeated =>
    have attachedAfter : Session.Attached ⟨((handlesAt cache.settings).store session.tree left).1,
        some ⟨cache.settings, cache.chain.below height, handlesAt cache.settings⟩⟩ := by
      rintro _ ⟨⟩
      exact Cache.attached_store soundBelow there.ready left
    have repeated := attachedAfter.run_eq rfl .perfect fun chain => chain.add height block
    simp only [ready.files_eq, left, again, Store.Script.run_perfect_eq, result] at repeated
    simp only [Store.Script.run_perfect_eq, result] at straight
    exact ⟨_, _, repeated, straight, rfl, Cache.find?_store_again cache.settings session.tree left _⟩

end Failed

/-- Wherever the writing of a valid block fails, its session is rolled back to the blocks below, as long as
the files could be cut. -/
theorem rolled_back_after_events (tree : Tree) (events : List Event)
    (own : ∀ event ∈ events, event.Own) (cache : Cache)
    (held : (events.foldl after ⟨tree, none⟩).cache = some cache)
    (mirrored : cache.chain.MirroredBy (cache.handles.files (events.foldl after ⟨tree, none⟩).tree))
    (height : Nat) (block : CompactBlock) (valid : cache.chain.validate height block = .ok ())
    (medium : Medium) (cuts : medium.Cuts) (failure : Failure)
    (fails : medium.firstFailure? 0 (cache.chain.add height block).effects
      (cache.handles.files (events.foldl after ⟨tree, none⟩).tree) = some failure) :
    let session := events.foldl after ⟨tree, none⟩
    ∃ after, session.run medium (fun chain => chain.add height block) =
        some (after, .error (.corruption height .writing failure.cause), []) ∧
      RolledBack session after cache height block :=
  rolledBack_of_failure (attached_after_events tree own) (sound_after_events tree events) held
    mirrored valid cuts fails

def filledEvents : List Event :=
  [.opening (sampleSettings.reopening none none) .perfect, .add 5 (sampleBlock 5) .perfect,
    .add 6 (sampleBlock 6) .perfect]

-- Of the record that replaces the second one, 18 bytes can be written.
theorem rolled_back_when_replacing :
    let session := filledEvents.foldl after ⟨.empty, none⟩
    let block := { sampleBlock 6 with time := 1 }
    ∃ after, session.run (.sizeLimit 120) (fun chain => chain.add 6 block) =
        some (after, .error (.corruption 6 .writing .fileTooLarge), []) ∧
      RolledBack session after filledCache 6 block := by
  have own : ∀ event ∈ filledEvents, event.Own := by simp [filledEvents, Event.Own]
  have held : (filledEvents.foldl after ⟨.empty, none⟩).cache = some filledCache := by decide +kernel
  have mirrored : filledCache.chain.MirroredBy
      (filledCache.handles.files (filledEvents.foldl after ⟨.empty, none⟩).tree) := by
    constructor
    next => decide +kernel
    next => decide +kernel
  exact rolled_back_after_events .empty filledEvents own filledCache held mirrored 6 _
    (by decide +kernel) (.sizeLimit 120) (Store.Medium.cuts_sizeLimit 120) ⟨18, .fileTooLarge⟩
    (by decide +kernel)

end CompactChain.Session
