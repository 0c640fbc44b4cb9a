import CompactChain.Proofs.Session.Reopening

set_option autoImplicit false

namespace CompactChain

open Store (FileName Files HeldChain Recovered Warning cutAt recover)

namespace Cache

variable {settings : Settings} {tree : Tree} {files : Files}

theorem Ready.modifyFile (ready : Ready settings tree files) (name : FileName) (f : Bytes → Bytes) :
    tree.modifyFile (filePath settings name) f =
      .ok (tree.put (place settings name) (.file (f (files.get name)))) := by
  simp only [Tree.modifyFile, Tree.fileContents, Tree.putFile, Tree.openFile, ready.located,
    ready.stored, bind, Except.bind, pure, Except.pure]

theorem Ready.put (ready : Ready settings tree files) (name : FileName) (f : Bytes → Bytes) :
    Ready settings (tree.put (place settings name) (.file (f (files.get name)))) (files.modify name f) := by
  have file : tree.find? (place settings name) ≠ some .directory := by simp [ready.stored]
  refine ⟨fun other => Tree.locate_mono (Tree.keepsDirectories_put file) (ready.located other), ?_⟩
  intro other
  by_cases same : other = name
  next =>
    subst same
    rw [Tree.find?_put_self (place_ne_root settings other)]
    cases other <;> rfl
  next =>
    rw [Tree.find?_put_of_ne fun here => same (place_injective here), ready.stored]
    cases name <;> cases other <;> first | rfl | contradiction

theorem settle_recovered {first : Nat} (low : first < 0x100000000) (files : Files)
    (syncFrom : Option Nat) :
    ∃ after, (recover first files).settle .perfect first syncFrom files =
        (.ok (((recover first files).chain first).discard syncFrom), after) ∧
      (syncFrom = none → after = cutAt files (recover first files).blocks.length) := by
  have sound := Store.recover_sound low files
  rw [Recovered.settle, Store.Script.run_perfect_eq, HeldChain.settle_result sound]
  refine ⟨_, rfl, ?_⟩
  rintro rfl
  have settled := (Store.recover_longest first files).settle
  rw [Recovered.settle, Store.Script.run_perfect_eq] at settled
  exact (Prod.mk.inj settled).2

end Cache

namespace Session

open Cache (Ready handlesAt place)

variable {settings : Settings} {session : Session} {files : Files}

def changed? (session : Session) : List FileChange → Option Session
  | [] => some session
  | change :: later =>
    match session.change change with
    | (after, .ok ()) => after.changed? later
    | (_, .error _) => none

theorem changed?_cons (session : Session) (change : FileChange) {name : FileName} {f : Bytes → Bytes}
    (ready : Ready settings session.tree files)
    (made : session.change change =
      session.changeTree (session.tree.modifyFile (Cache.filePath settings name) f))
    (later : List FileChange) :
    ∃ tree, Ready settings tree (files.modify name f) ∧
      (∀ path, path ≠ place settings name → tree.find? path = session.tree.find? path) ∧
      session.changed? (change :: later) = Session.changed? ⟨tree, session.cache⟩ later := by
  refine ⟨_, ready.put name f, fun path elsewhere => Tree.find?_put_of_ne elsewhere, ?_⟩
  rw [changed?, made, ready.modifyFile, changeTree]

structure Reopens (settings : Settings) (session : Session) (files : Files) (kept : HeldChain) : Prop
    extends Launches settings session files where
  opened : ∀ syncFrom capacity,
    let again := session.openCache (settings.reopening syncFrom capacity)
    again.2.1 = .ok () ∧ again.1.cache.map Cache.chain = some (kept.discard syncFrom)

def Reports (settings : Settings) (session : Session) (height kept : Nat) : Prop :=
  ∀ syncFrom capacity, ∃ damage,
    Warning.damaged height damage kept ∈ (session.openCache (settings.reopening syncFrom capacity)).2.2

section Reopened

variable (ready : Ready settings session.tree files) (checked : settings.check = .ok ())

include ready checked

theorem openIn_found (syncFrom capacity : Option Nat) :
    Cache.openIn .perfect session.tree (settings.reopening syncFrom capacity) =
      Cache.ofHandles .perfect session.tree (settings.reopening syncFrom capacity)
        (handlesAt (settings.reopening syncFrom capacity)) := by
  have there := ready.reopening syncFrom capacity
  have checkedAgain := (settings.check_reopening syncFrom capacity).trans checked
  simp only [Cache.openIn, checkedAgain, there.makeDirectories, Cache.openThere, there.openFiles]

theorem openCache_found (syncFrom capacity : Option Nat) :
    let again := settings.reopening syncFrom capacity
    let recovered := recover settings.startHeight files
    ∃ copied after warnings, Ready settings copied files ∧
      (recovered.damage = none → copied = session.tree ∧ warnings = []) ∧
      (∀ height damage kept, Warning.damaged height damage kept ∈ warnings ↔
        recovered.damage = some (height, damage) ∧ kept = recovered.blocks.length) ∧
      (syncFrom = none → after = cutAt files recovered.blocks.length) ∧
      session.openCache again =
        (⟨((handlesAt settings).store copied after).1,
          some ⟨again, (recovered.chain settings.startHeight).discard syncFrom, handlesAt settings⟩⟩,
          .ok (), warnings) := by
  intro again recovered
  obtain ⟨after, settled, cut⟩ := Cache.settle_recovered (Settings.startHeight_lt checked) files syncFrom
  obtain ⟨copied, warnings, stays, clean, reported, opened⟩ :=
    (ready.reopening syncFrom capacity).ofHandles_settled settled
  refine ⟨copied, after, warnings, ⟨stays.located, stays.stored⟩, clean, reported, cut, ?_⟩
  simp only [Session.openCache, again, openIn_found ready checked, opened]
  rfl

theorem reopens_recovered :
    Reopens settings session files ((recover settings.startHeight files).chain settings.startHeight) := by
  refine ⟨launches_ready ready checked, ?_⟩
  intro syncFrom capacity
  obtain ⟨copied, after, warnings, _, _, _, _, opened⟩ :=
    openCache_found ready checked syncFrom capacity
  simp only [opened]
  exact ⟨trivial, rfl⟩

theorem reports_recovered {height count : Nat}
    (damaged : ∃ damage, (recover settings.startHeight files).damage = some (height, damage))
    (counted : (recover settings.startHeight files).blocks.length = count) :
    Reports settings session height count := by
  intro syncFrom capacity
  obtain ⟨damage, found⟩ := damaged
  obtain ⟨copied, after, warnings, _, _, reported, _, opened⟩ :=
    openCache_found ready checked syncFrom capacity
  rw [opened]
  exact ⟨damage, (reported height damage count).mpr ⟨found, counted.symm⟩⟩

end Reopened

-- Two blocks, of 102 bytes each on disk.
def filledSteps : List Step :=
  [.opening none none, .operation (.add 5 (sampleBlock 5)), .operation (.add 6 (sampleBlock 6))]

def filledCache : Cache where
  settings := sampleSettings.reopening none none
  chain := .ofBlocks 5 [0, 102, 204] [sampleBlock 5, sampleBlock 6]
  handles := Cache.handlesAt sampleSettings

theorem filled_open :
    (filledSteps.foldl (stepped sampleSettings) ⟨.empty, none⟩).cache = some filledCache := by
  decide +kernel

theorem filled_lengths :
    filledCache.chain.files.blocks.length = 204 ∧ filledCache.chain.files.index.length = 82 := by
  decide +kernel

end Session

end CompactChain
