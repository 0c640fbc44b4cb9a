import CompactChain.Launch
import CompactChain.Proofs.Cache.Frame
import CompactChain.Proofs.Tree.Trailing

set_option autoImplicit false

namespace CompactChain

open Store (FileName Files Medium OsError Warning)
open CompactChain.Tree (Agree Closed Leads Near OnTheWay Trails)

namespace Cache

variable {settings : Settings} {known : Path → Prop} {own : Path → Bool}

section Leads

variable (near : ∀ path, OnTheWay settings.directory path → known path)
  (owns : ∀ path, Owned settings.home path → own path)

include near

theorem leads_child {name : String} (slashless : '/' ∉ name.toList)
    (within : own (Path.spelled (settings.directory ++ "/" ++ name))) :
    Leads known own (settings.directory ++ "/" ++ name) := by
  refine ⟨within, fun front begins shorter => ?_⟩
  have names : Path.componentsAfter [] (settings.directory ++ "/" ++ name).toList =
      Path.componentsAfter [] settings.directory.toList ++ [name] := by
    simp [String.toList_append, Path.componentsAfter_slash, Path.componentsAfter_plain slashless]
  rw [names] at begins shorter
  have within := (List.prefix_concat_iff.mp begins).resolve_left shorter
  exact near _ ⟨_, within.filter _, (Path.foldl_step_filter front []).symm⟩

include owns

theorem leads_filePath (name : FileName) : Leads known own (filePath settings name) := by
  have within := owns _ (owned_filePath settings name)
  rw [filePath_eq] at within ⊢
  exact leads_child near (plain_fileName name) within

theorem leads_asidePath (name : FileName) : Leads known own (asidePath (filePath settings name)) := by
  have within := owns _ (owned_asidePath settings name)
  rw [filePath_eq, asidePath, String.append_assoc] at within ⊢
  refine leads_child near ?_ within
  cases name <;> simp [fileName]

end Leads

structure Matches {α : Type} (known : Path → Prop) (own : Path → Bool) (one two : Tree × α) : Prop where
  trees : Agree known own one.1 two.1
  told : one.2 = two.2

section Agree

variable {first second : Tree} (near : ∀ path, OnTheWay settings.directory path → known path)
  (owns : ∀ path, Owned settings.home path → own path) (closed : Closed (own ·))
  (agree : Agree known own first second)

include owns

theorem files_eq (same : first.kept own = second.kept own) :
    (handlesAt settings).files first = (handlesAt settings).files second := by
  have same (name : FileName) :
      first.find? (place settings name) = second.find? (place settings name) :=
    Tree.find?_of_kept same (owns _ (owned_place settings name))
  simp only [handlesAt, Handles.files, Handle.contents, same]

include agree

theorem store_agree (files : Files) :
    Agree known own ((handlesAt settings).store first files).1
      ((handlesAt settings).store second files).1 :=
  (agree.put (owns _ (owned_place settings .blocks)) _).put (owns _ (owned_place settings .index)) _

include near

theorem openFiles_matches :
    Matches known own (openFiles first settings) (openFiles second settings) := by
  have blocks := agree.openFile (leads_filePath near owns .blocks)
  unfold openFiles
  generalize first.openFile (filePath settings .blocks) = one,
    second.openFile (filePath settings .blocks) = two at blocks
  cases blocks with
  | error cause => exact ⟨agree, rfl⟩
  | @ok one two both =>
    obtain ⟨one, onePath⟩ := one
    obtain ⟨two, twoPath⟩ := two
    obtain ⟨middle, rfl, rfl⟩ := both
    have index := middle.openFile (leads_filePath near owns .index)
    simp only
    generalize one.openFile (filePath settings .index) = three,
      two.openFile (filePath settings .index) = four at index
    cases index with
    | error cause => exact ⟨middle, rfl⟩
    | @ok three four both =>
      obtain ⟨three, onePath⟩ := three
      obtain ⟨four, twoPath⟩ := four
      obtain ⟨last, rfl, rfl⟩ := both
      exact ⟨last, rfl⟩

theorem openFiles_cases :
    (∃ one two, openFiles first settings = (one, .ok (handlesAt settings)) ∧
      openFiles second settings = (two, .ok (handlesAt settings)) ∧ Agree known own one two) ∨
    ∃ cause one two, openFiles first settings = (one, .error cause) ∧
      openFiles second settings = (two, .error cause) ∧ Agree known own one two := by
  have opening := openFiles_matches near owns agree
  rcases openedFirst : openFiles first settings with ⟨one, answer⟩
  rcases openedSecond : openFiles second settings with ⟨two, same⟩
  rw [openedFirst, openedSecond] at opening
  obtain rfl : answer = same := opening.told
  cases answer with
  | error cause => exact .inr ⟨cause, one, two, rfl, rfl, opening.trees⟩
  | ok handles =>
    obtain ⟨rfl, -⟩ := ready_of_openFiles openedFirst
    exact .inl ⟨one, two, rfl, rfl, opening.trees⟩

theorem copyAside_matches (name : FileName) :
    Matches known own (copyAside first (filePath settings name))
      (copyAside second (filePath settings name)) := by
  have copied := agree.copyFile (leads_filePath near owns name) (leads_asidePath near owns name)
  unfold copyAside
  generalize first.copyFile (filePath settings name) (asidePath (filePath settings name)) = one,
    second.copyFile (filePath settings name) (asidePath (filePath settings name)) = two at copied
  cases copied with
  | error cause => exact ⟨agree, rfl⟩
  | ok after => exact ⟨after, rfl⟩

include closed

theorem clearAside_agree (name : FileName) :
    Agree known own (clearAside first (filePath settings name))
      (clearAside second (filePath settings name)) := by
  have removed := agree.removeAll (leads_asidePath near owns name) closed
  unfold clearAside
  generalize first.removeAll (asidePath (filePath settings name)) = one,
    second.removeAll (asidePath (filePath settings name)) = two at removed
  cases removed with
  | error cause => exact agree
  | ok after => exact after

theorem setAside_matches (name : FileName) :
    Matches known own (setAside first (filePath settings name))
      (setAside second (filePath settings name)) := by
  have cleared := clearAside_agree near owns closed agree name
  have renamed := cleared.rename (leads_filePath near owns name) (leads_asidePath near owns name) closed
  unfold setAside
  rw [agree.nodeAt?_eq (leads_filePath near owns name)]
  cases second.nodeAt? (filePath settings name) with
  | none => exact ⟨agree, rfl⟩
  | some node =>
    simp only
    generalize (clearAside first (filePath settings name)).rename (filePath settings name)
        (asidePath (filePath settings name)) = one,
      (clearAside second (filePath settings name)).rename (filePath settings name)
        (asidePath (filePath settings name)) = two at renamed
    cases renamed with
    | error cause => exact ⟨cleared, rfl⟩
    | ok after => exact ⟨after, rfl⟩

omit near owns closed in
theorem bothFiles_matches {step : Tree → String → Tree × List Warning}
    (each : ∀ {first second : Tree}, Agree known own first second → ∀ name,
      Matches known own (step first (filePath settings name)) (step second (filePath settings name))) :
    Matches known own (bothFiles step first settings) (bothFiles step second settings) := by
  have blocks := each agree .blocks
  have index := each blocks.trees .index
  refine ⟨index.trees, ?_⟩
  simp only [bothFiles, blocks.told, index.told]

omit near owns closed agree

structure Likewise (related : Tree → Tree → Prop) (one two : Opened) : Prop where
  trees : related one.tree two.tree
  answer : one.answer = two.answer
  warnings : one.warnings = two.warnings

include near owns agree

theorem ofHandles_likewise (medium : Medium) :
    Likewise (Agree known own) (ofHandles medium first settings (handlesAt settings))
      (ofHandles medium second settings (handlesAt settings)) := by
  have copied := bothFiles_matches agree fun agree name => copyAside_matches near owns agree name
  simp only [ofHandles, files_eq owns agree.own]
  generalize (handlesAt settings).files second = files
  cases (Store.recover settings.startHeight files).damage with
  | none => split <;> exact ⟨store_agree owns agree _, rfl, rfl⟩
  | some found =>
    simp only [copied.told]
    split <;> exact ⟨store_agree owns copied.trees _, rfl, rfl⟩

include closed

theorem openThere_likewise (medium : Medium) :
    Likewise (Agree known own) (openThere medium first settings) (openThere medium second settings) := by
  unfold openThere
  obtain ⟨one, two, openedFirst, openedSecond, there⟩ | ⟨cause, one, two, failedFirst, failedSecond, there⟩ :=
    openFiles_cases near owns agree
  · simp only [openedFirst, openedSecond]
    exact ofHandles_likewise near owns there medium
  · have moved := bothFiles_matches there fun agree name => setAside_matches near owns closed agree name
    simp only [failedFirst, failedSecond, moved.told]
    obtain ⟨one, two, openedFirst, openedSecond, there⟩ | ⟨cause, one, two, failedFirst, failedSecond, there⟩ :=
      openFiles_cases near owns moved.trees
    · have opened := ofHandles_likewise near owns there medium
      simp only [openedFirst, openedSecond]
      exact ⟨opened.trees, opened.answer, by simp only [opened.warnings]⟩
    · simp only [failedFirst, failedSecond]
      exact ⟨there, rfl, rfl⟩

theorem foundThere?_eq : foundThere? first settings = foundThere? second settings := by
  unfold foundThere?
  obtain ⟨one, two, openedFirst, openedSecond, there⟩ | ⟨cause, one, two, failedFirst, failedSecond, there⟩ :=
    openFiles_cases near owns agree
  · simp only [openedFirst, openedSecond, files_eq owns there.own]
  · have moved := bothFiles_matches there fun agree name => setAside_matches near owns closed agree name
    simp only [failedFirst, failedSecond]
    obtain ⟨one, two, openedFirst, openedSecond, there⟩ | ⟨cause, one, two, failedFirst, failedSecond, there⟩ :=
      openFiles_cases near owns moved.trees
    · simp only [openedFirst, openedSecond, files_eq owns there.own]
    · simp only [failedFirst, failedSecond]

end Agree

section Trails

variable {settled : Path → Prop} {fewer more : Tree}

theorem isPrefixOf_of_owned {home path : Path} (owned : Owned home path) : home.isPrefixOf path := by
  obtain ⟨name, -, below⟩ := owned
  exact List.isPrefixOf_iff_prefix.mpr ((List.prefix_append _ _).trans below)

theorem not_owned_above {home path : Path} (above : path <+: home) : ¬ Owned home path := by
  rintro ⟨name, -, below⟩
  exact Path.not_child_above above below

-- Whichever directories are missing, they are all there before a file is opened.
theorem openIn_likewise (settings : Settings)
    (near : ∀ path, OnTheWay settings.directory path → Near settled settings.home path)
    (free : ∀ path, settled path → ¬ Owned settings.home path)
    (trails : Trails settled settings.home fewer more) (medium : Medium) :
    Likewise (Trails settled settings.home) (openIn medium fewer settings) (openIn medium more settings) ∧
      found? fewer settings = found? more settings := by
  have owns (path : Path) (owned : Owned settings.home path) := isPrefixOf_of_owned owned
  have closed := Tree.closed_isPrefixOf settings.home
  unfold openIn found?
  cases settings.check with
  | error cause => exact ⟨⟨trails, rfl, rfl⟩, rfl⟩
  | ok =>
    have caught := trails.makeDirectories near
    rcases one : fewer.makeDirectories settings.directory with ⟨fewer, answer⟩
    rcases two : more.makeDirectories settings.directory with ⟨more, same⟩
    rw [one, two] at caught
    obtain rfl : answer = same := caught.answer
    cases answer with
    | error cause => exact ⟨⟨caught.trails, rfl, rfl⟩, rfl⟩
    | ok =>
      have directories := caught.reached rfl
      have agree := caught.trails.agree directories
      have opened := openThere_likewise near owns closed agree medium
      refine ⟨⟨opened.trees.trails fun path close => ?_, opened.answer, opened.warnings⟩,
        foundThere?_eq near owns closed agree⟩
      have spares := openThere_spares medium fewer settings
      rw [spares.find?_eq (close.elim not_owned_above (free path))]
      exact close.elim (directories path) fun there => (caught.trails.settled path there).1

theorem stop?_eq {first second : Tree} {settings : Settings}
    (found : found? first settings = found? second settings) :
    stop? first settings = stop? second settings := by
  rw [stop?, found, ← stop?]

theorem store_trails (free : ∀ path, settled path → ¬ Owned settings.home path)
    (trails : Trails settled settings.home fewer more) (files : Files) :
    Trails settled settings.home ((handlesAt settings).store fewer files).1
      ((handlesAt settings).store more files).1 := by
  have unsettled (name : FileName) : ¬ settled (place settings name) :=
    fun there => free _ there (owned_place settings name)
  exact (trails.put (unsettled .blocks) _).put (unsettled .index) _

end Trails

end Cache

end CompactChain
