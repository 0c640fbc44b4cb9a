import CompactChain.Proofs.Cache.Placement
import CompactChain.Proofs.Store.Reading

set_option autoImplicit false

namespace CompactChain

open Store (Damage Error FileName Files HeldChain Medium OsError Recovered Warning)

namespace Cache

variable {settings : Settings} {tree : Tree} {files : Files} {chain : HeldChain}

theorem Ready.mono {after : Tree} (ready : Ready settings tree files)
    (keeps : tree.KeepsDirectories after)
    (same : ∀ name, after.find? (place settings name) = tree.find? (place settings name)) :
    Ready settings after files :=
  ⟨fun name => Tree.locate_mono keeps (ready.located name),
    fun name => (same name).trans (ready.stored name)⟩

theorem Ready.copyAside (ready : Ready settings tree files) (name : FileName) :
    Ready settings (copyAside tree (filePath settings name)).1 files := by
  unfold Cache.copyAside
  split
  next after copied =>
    obtain ⟨keeps, others⟩ := Tree.copyFile_ok copied
    rw [spelled_asidePath] at others
    exact ready.mono keeps fun other => others _ (placeAside_ne_place settings name other).symm
  · exact ready

theorem Ready.copyBothAside (ready : Ready settings tree files) :
    Ready settings (bothFiles Cache.copyAside tree settings).1 files :=
  (ready.copyAside .blocks).copyAside .index

theorem not_damaged_of_copyAside (tree : Tree) (path : String) (height kept : Nat) (damage : Damage) :
    Warning.damaged height damage kept ∉ (copyAside tree path).2 := by
  unfold copyAside
  split <;> simp

theorem not_damaged_of_copyBothAside (tree : Tree) (settings : Settings) (height kept : Nat)
    (damage : Damage) : Warning.damaged height damage kept ∉ (bothFiles copyAside tree settings).2 := by
  simp [bothFiles, not_damaged_of_copyAside]

theorem Ready.ofHandles_settled {after : Files} (ready : Ready settings tree files)
    (settled : (Store.recover settings.startHeight files).settle .perfect settings.startHeight
      settings.syncFrom files = (.ok chain, after)) :
    let recovered := Store.recover settings.startHeight files
    ∃ copied warnings, Ready settings copied files ∧
      (recovered.damage = none → copied = tree ∧ warnings = []) ∧
      (∀ height damage kept, Warning.damaged height damage kept ∈ warnings ↔
        recovered.damage = some (height, damage) ∧ kept = recovered.blocks.length) ∧
      Cache.ofHandles .perfect tree settings (handlesAt settings) =
        ⟨((handlesAt settings).store copied after).1, .ok ⟨settings, chain, handlesAt settings⟩, warnings⟩ := by
  simp only [Cache.ofHandles, ready.files_eq, settled]
  cases damaged : (Store.recover settings.startHeight files).damage with
  | none => exact ⟨tree, [], ready, fun _ => ⟨rfl, rfl⟩, by simp, rfl⟩
  | some found =>
    obtain ⟨place, fault⟩ := found
    refine ⟨_, _, ready.copyBothAside, nofun, ?_, rfl⟩
    intro height damage kept
    have copying := not_damaged_of_copyBothAside tree settings height kept damage
    rw [List.mem_cons, or_iff_left copying, Warning.damaged.injEq, Option.some.injEq, Prod.mk.injEq,
      and_assoc, eq_comm, @eq_comm _ damage]

theorem Ready.ofHandles (ready : Ready settings tree files) (recorded : chain.Recorded)
    (first : chain.first = settings.startHeight) (survives : chain.SurvivesIn files) :
    ∃ copied warnings, Ready settings copied files ∧
      (files = chain.files → copied = tree ∧ warnings = []) ∧
      ofHandles .perfect tree settings (handlesAt settings) =
        let kept := chain.discard settings.syncFrom
        ⟨((handlesAt settings).store copied kept.files).1,
          .ok ⟨settings, kept, handlesAt settings⟩, warnings⟩ := by
  have settled := HeldChain.settle_survives recorded survives settings.syncFrom
  have clean := (HeldChain.recover_survives recorded survives).2
  rw [first] at settled clean
  obtain ⟨copied, warnings, stays, undamaged, _, opened⟩ := ready.ofHandles_settled settled
  exact ⟨copied, warnings, stays, fun same => undamaged (clean same), opened⟩

theorem Ready.openIn (ready : Ready settings tree files) (checked : settings.check = .ok ())
    (recorded : chain.Recorded) (first : chain.first = settings.startHeight)
    (survives : chain.SurvivesIn files) :
    ∃ copied warnings, Ready settings copied files ∧
      (files = chain.files → copied = tree ∧ warnings = []) ∧
      openIn .perfect tree settings =
        let kept := chain.discard settings.syncFrom
        ⟨((handlesAt settings).store copied kept.files).1,
          .ok ⟨settings, kept, handlesAt settings⟩, warnings⟩ := by
  simp only [Cache.openIn, checked, ready.makeDirectories, openThere, ready.openFiles]
  exact ready.ofHandles recorded first survives

def Blank (settings : Settings) (tree : Tree) : Prop :=
  ∀ name contents, tree.find? (place settings name) = some (.file contents) → contents = []

def Vacant (settings : Settings) (tree : Tree) : Prop :=
  ∀ name below, tree.find? (settings.home ++ name :: below) = none

theorem vacant_empty (settings : Settings) : Vacant settings Tree.empty := by
  intro name below
  simp [Tree.find?, Tree.empty]

theorem Vacant.blank (vacant : Vacant settings tree) : Blank settings tree := by
  intro name contents found
  rw [place, vacant] at found
  contradiction

theorem Blank.mono {after : Tree} (blank : Blank settings tree)
    (less : ∀ name, after.find? (place settings name) = tree.find? (place settings name) ∨
      ∀ contents, after.find? (place settings name) = some (.file contents) → contents = []) :
    Blank settings after := by
  intro name contents found
  rcases less name with same | empty
  · exact blank name contents (same ▸ found)
  · exact empty contents found

theorem Blank.makeDirectories (blank : Blank settings tree) (text : String) :
    Blank settings (tree.makeDirectories text).1 := by
  apply blank.mono
  intro name
  rcases tree.makeDirectories_adds text (place settings name) with same | directory
  · exact .inl same
  · exact .inr fun contents found => by simp [directory] at found

theorem Blank.openFile {after : Tree} {path : Path} {text : String} (blank : Blank settings tree)
    (opened : tree.openFile text = .ok (after, path)) : Blank settings after := by
  obtain ⟨_, _, _, frame, held, there, old⟩ := Tree.openFile_ok opened
  apply blank.mono
  intro name
  by_cases here : place settings name = path
  · rcases old with same | empty
    · exact .inl (by rw [here, there, same])
    · refine .inr fun contents found => ?_
      rw [here, there] at found
      simpa [empty] using found.symm
  · exact .inl (frame _ here)

theorem Blank.openFiles (blank : Blank settings tree) :
    Blank settings (openFiles tree settings).1 := by
  unfold Cache.openFiles
  split
  · exact blank
  next first blocks openedBlocks =>
    have middle := blank.openFile openedBlocks
    split
    · exact middle
    next second index openedIndex => exact middle.openFile openedIndex

theorem placeAside_not_above (settings : Settings) (name other : FileName) :
    (placeAside settings name).isPrefixOf (place settings other) = false := by
  rw [Bool.eq_false_iff]
  intro above
  have front := List.isPrefixOf_iff_prefix.mp above
  exact placeAside_ne_place settings name other (front.eq_of_length (by simp [placeAside, place]))

theorem Blank.setAside (blank : Blank settings tree) (name : FileName) :
    Blank settings (setAside tree (filePath settings name)).1 := by
  have cleared : Blank settings (clearAside tree (filePath settings name)) := by
    unfold clearAside
    split
    next after removed =>
      apply blank.mono
      intro other
      rcases Tree.find?_removeAll removed (place settings other) with same | gone
      · exact .inl same
      · exact .inr fun contents found => by simp [gone] at found
    · exact blank
  unfold Cache.setAside
  split
  · exact blank
  · simp only
    split
    next after renamed =>
      apply cleared.mono
      intro other
      have outside := placeAside_not_above settings name other
      rw [← spelled_asidePath] at outside
      rcases Tree.find?_rename renamed outside with same | gone
      · exact .inl same
      · exact .inr fun contents found => by simp [gone] at found
    · exact cleared

theorem Blank.setBothAside (blank : Blank settings tree) :
    Blank settings (bothFiles Cache.setAside tree settings).1 :=
  (blank.setAside .blocks).setAside .index

theorem Blank.ready {after : Tree} {handles : Handles} (blank : Blank settings tree)
    (opened : Cache.openFiles tree settings = (after, .ok handles)) :
    handles = handlesAt settings ∧ Ready settings after Files.empty := by
  obtain ⟨rfl, files, ready, old⟩ := ready_of_openFiles opened
  have empty : ∀ name, files.get name = [] := by
    intro name
    rcases old name with same | empty
    · exact blank name _ same
    · exact empty
  have all : files = Files.empty := by
    obtain ⟨blocks, index⟩ := files
    obtain rfl : blocks = [] := empty .blocks
    obtain rfl : index = [] := empty .index
    rfl
  exact ⟨rfl, all ▸ ready⟩

def OpensEmpty (settings : Settings) (opened : Opened) : Prop :=
  match opened.answer with
  | .error _ => Blank settings opened.tree
  | .ok cache =>
    cache = ⟨settings, HeldChain.empty settings.startHeight, handlesAt settings⟩ ∧
      Ready settings opened.tree Files.empty

theorem Ready.ofHandles_empty (ready : Ready settings tree Files.empty)
    (low : settings.startHeight < 0x100000000) :
    Cache.ofHandles .perfect tree settings (handlesAt settings) =
      ⟨((handlesAt settings).store tree Files.empty).1,
        .ok ⟨settings, HeldChain.empty settings.startHeight, handlesAt settings⟩, []⟩ := by
  obtain ⟨copied, warnings, _, clean, opened⟩ := ready.ofHandles (HeldChain.empty_recorded low) rfl
    (HeldChain.survivesIn_files _)
  have nothing : (HeldChain.empty settings.startHeight).discard settings.syncFrom =
      HeldChain.empty settings.startHeight := by
    cases settings.syncFrom with
    | none => rfl
    | some height =>
      exact HeldChain.discard_of_le (HeldChain.empty_sound low) (Nat.le_max_right _ _)
  obtain ⟨rfl, rfl⟩ := clean rfl
  rw [opened, nothing]
  rfl

theorem Ready.opensEmpty (ready : Ready settings tree Files.empty)
    (low : settings.startHeight < 0x100000000) :
    OpensEmpty settings (Cache.ofHandles .perfect tree settings (handlesAt settings)) := by
  simp only [OpensEmpty, ready.ofHandles_empty low]
  exact ⟨trivial, ready.store _⟩

theorem Blank.openThere (blank : Blank settings tree) (low : settings.startHeight < 0x100000000) :
    OpensEmpty settings (Cache.openThere .perfect tree settings) := by
  unfold Cache.openThere
  split
  next first handles there =>
    obtain ⟨rfl, ready⟩ := blank.ready there
    exact ready.opensEmpty low
  next first cause failed =>
    have middle : Blank settings first := by simpa [failed] using blank.openFiles
    simp only
    split
    next second again failed => simpa [OpensEmpty, failed] using middle.setBothAside.openFiles
    next second handles there =>
      obtain ⟨rfl, ready⟩ := middle.setBothAside.ready there
      exact ready.opensEmpty low

-- Directories may have to be made first, and files that cannot be opened are set aside: both leave
-- nothing behind that a chain could be recovered from.
theorem Blank.openIn (blank : Blank settings tree) :
    OpensEmpty settings (Cache.openIn .perfect tree settings) := by
  have made := blank.makeDirectories settings.directory
  unfold Cache.openIn
  split
  · exact blank
  next checked =>
    split
    next middle cause failed => simpa [OpensEmpty, failed] using made
    next middle there =>
      have blank : Blank settings middle := by simpa [there] using made
      exact blank.openThere (Settings.startHeight_lt checked)

theorem check_of_openIn {medium : Medium} {cache : Cache}
    (opened : (openIn medium tree settings).answer = .ok cache) : settings.check = .ok () := by
  unfold Cache.openIn at opened
  split at opened
  · contradiction
  next checked => exact checked

theorem answer_ofHandles_ne_settings (medium : Store.Medium) (tree : Tree) (settings : Settings)
    (handles : Handles) (cause : SettingsFault) :
    (ofHandles medium tree settings handles).answer ≠ .error (.settings cause) := by
  simp only [ofHandles]
  split <;> exact nofun

theorem answer_openIn_ne_settings {settings : Settings} (checked : settings.check = .ok ())
    (medium : Store.Medium) (tree : Tree) (cause : SettingsFault) :
    (openIn medium tree settings).answer ≠ .error (.settings cause) := by
  unfold openIn
  rw [checked]
  dsimp only
  split
  · exact nofun
  unfold openThere
  split
  next => exact answer_ofHandles_ne_settings medium _ settings _ cause
  next =>
    dsimp only
    split
    · exact nofun
    · exact answer_ofHandles_ne_settings medium _ settings _ cause

end Cache

end CompactChain
