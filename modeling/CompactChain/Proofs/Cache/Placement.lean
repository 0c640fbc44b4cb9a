import CompactChain.Cache
import CompactChain.Proofs.Tree.Frame

set_option autoImplicit false

namespace CompactChain

open Store (FileName Files OsError)

namespace Settings

def home (settings : Settings) : Path :=
  Path.spelled settings.directory

theorem getLast?_join (path : String) {name : String} (named : name.toList ≠ []) :
    (join path name).toList.getLast? = name.toList.getLast? := by
  have last : name.toList.getLast?.isSome = true := by simp [named]
  obtain ⟨c, ends⟩ := Option.isSome_iff_exists.mp last
  unfold join
  split
  · rfl
  · split
    · simp [String.toList_append, List.getLast?_append, ends]
    · simp [String.toList_append, List.getLast?_cons, ends]

theorem join_directory (settings : Settings) (name : String) :
    join settings.directory name = settings.directory ++ "/" ++ name := by
  have ends : settings.directory.toList.getLast? = some 't' := by
    rw [directory, getLast?_join]
    · cases settings.network <;> rfl
    · cases settings.network <;> simp [Network.tag]
  have some? : settings.directory ≠ "" := by
    intro empty
    rw [empty] at ends
    simp at ends
  rw [join, if_neg some?, ends, if_neg (by simp)]

end Settings

namespace Cache

theorem filePath_eq (settings : Settings) (name : FileName) :
    filePath settings name = settings.directory ++ "/" ++ fileName name :=
  settings.join_directory (fileName name)

def place (settings : Settings) (name : FileName) : Path :=
  settings.home ++ [fileName name]

def placeAside (settings : Settings) (name : FileName) : Path :=
  settings.home ++ [asidePath (fileName name)]

def handlesAt (settings : Settings) : Handles :=
  ⟨.linked (place settings .blocks), .linked (place settings .index)⟩

theorem spelled_child (directory : String) {name : String} (plain : '/' ∉ name.toList)
    (leads : Path.stays name = false ∧ name ≠ "..") :
    Path.spelled (directory ++ "/" ++ name) = Path.spelled directory ++ [name] := by
  simp [Path.spelled, String.toList_append, Path.componentsAfter_slash,
    Path.componentsAfter_plain plain, Path.step, leads.1, leads.2]

theorem plain_fileName (name : FileName) : '/' ∉ (fileName name).toList := by
  cases name <;> simp [fileName]

theorem spelled_filePath (settings : Settings) (name : FileName) :
    Path.spelled (filePath settings name) = place settings name := by
  rw [filePath_eq]
  apply spelled_child _ (plain_fileName name)
  cases name <;> decide

theorem spelled_asidePath (settings : Settings) (name : FileName) :
    Path.spelled (asidePath (filePath settings name)) = placeAside settings name := by
  rw [filePath_eq, asidePath, String.append_assoc]
  apply spelled_child
  · cases name <;> simp [fileName]
  · cases name <;> decide

theorem place_ne_root (settings : Settings) (name : FileName) : place settings name ≠ [] := by
  simp [place]

theorem place_injective {settings : Settings} {name other : FileName}
    (same : place settings name = place settings other) : name = other := by
  have names : fileName name = fileName other := by simpa [place] using same
  cases name <;> cases other <;> first | rfl | exact absurd names (by decide)

theorem placeAside_ne_place (settings : Settings) (name other : FileName) :
    placeAside settings name ≠ place settings other := by
  intro same
  have names : asidePath (fileName name) = fileName other := by
    simpa [place, placeAside] using same
  revert names
  cases name <;> cases other <;> decide

/-- Both files are there with these contents, and the texts of their paths lead to them. -/
structure Ready (settings : Settings) (tree : Tree) (files : Files) : Prop where
  located : ∀ name, tree.locate (filePath settings name) = .ok (place settings name)
  stored : ∀ name, tree.find? (place settings name) = some (.file (files.get name))

section Ready

variable {settings : Settings} {tree : Tree} {files : Files}

theorem Ready.files_eq (ready : Ready settings tree files) :
    (handlesAt settings).files tree = files := by
  simp only [handlesAt, Handles.files, Handle.contents, ready.stored]
  rfl

theorem Ready.makeDirectories (ready : Ready settings tree files) :
    tree.makeDirectories settings.directory = (tree, .ok ()) := by
  have located := ready.located .blocks
  rw [filePath_eq] at located
  exact Tree.makeDirectories_of_locate (plain_fileName .blocks) located

theorem Ready.openFile (ready : Ready settings tree files) (name : FileName) :
    tree.openFile (filePath settings name) = .ok (tree, place settings name) := by
  simp [Tree.openFile, ready.located, ready.stored, bind, Except.bind, pure, Except.pure]

theorem Ready.openFiles (ready : Ready settings tree files) :
    openFiles tree settings = (tree, .ok (handlesAt settings)) := by
  simp only [Cache.openFiles, ready.openFile]
  rfl

theorem find?_store (settings : Settings) (tree : Tree) (files : Files) (name : FileName) :
    ((handlesAt settings).store tree files).1.find? (place settings name) =
      some (.file (files.get name)) := by
  cases name with
  | index => exact Tree.find?_put_self (place_ne_root settings .index)
  | blocks =>
    have differ : place settings .blocks ≠ place settings .index := fun same =>
      FileName.noConfusion (place_injective same)
    exact (Tree.find?_put_of_ne differ).trans (Tree.find?_put_self (place_ne_root settings .blocks))

theorem find?_store_of_ne {path : Path} (elsewhere : ∀ name, path ≠ place settings name) :
    ((handlesAt settings).store tree files).1.find? path = tree.find? path :=
  (Tree.find?_put_of_ne (elsewhere .index)).trans (Tree.find?_put_of_ne (elsewhere .blocks))

theorem find?_store_again (settings : Settings) (tree : Tree) (before files : Files) (path : Path) :
    ((handlesAt settings).store ((handlesAt settings).store tree before).1 files).1.find? path =
      ((handlesAt settings).store tree files).1.find? path := by
  by_cases there : ∃ name, path = place settings name
  next =>
    obtain ⟨name, rfl⟩ := there
    rw [find?_store, find?_store]
  next =>
    have elsewhere (name : FileName) : path ≠ place settings name := fun same => there ⟨name, same⟩
    rw [find?_store_of_ne elsewhere, find?_store_of_ne elsewhere,
      find?_store_of_ne elsewhere]

theorem Ready.store (ready : Ready settings tree files) (after : Files) :
    Ready settings ((handlesAt settings).store tree after).1 after := by
  refine ⟨fun name => Tree.locate_mono ?_ (ready.located name), find?_store settings tree after⟩
  intro path found
  rw [find?_store_of_ne, found]
  rintro other rfl
  simp [ready.stored] at found

theorem Ready.find?_store_self (ready : Ready settings tree files) (path : Path) :
    ((handlesAt settings).store tree files).1.find? path = tree.find? path := by
  by_cases there : ∃ name, path = place settings name
  · obtain ⟨name, rfl⟩ := there
    rw [find?_store, ready.stored]
  · exact find?_store_of_ne fun name same => there ⟨name, same⟩

end Ready

theorem ready_of_openFiles {settings : Settings} {tree after : Tree} {handles : Handles}
    (opened : openFiles tree settings = (after, .ok handles)) :
    handles = handlesAt settings ∧ ∃ files, Ready settings after files ∧
      ∀ name, tree.find? (place settings name) = some (.file (files.get name)) ∨
        files.get name = [] := by
  unfold openFiles at opened
  split at opened
  · simp at opened
  next first blocks openedBlocks =>
    split at opened
    · simp at opened
    next second index openedIndex =>
      obtain ⟨rfl, answer⟩ := Prod.mk.inj opened
      obtain rfl := Except.ok.inj answer
      have differ : place settings .blocks ≠ place settings .index := fun same =>
        FileName.noConfusion (place_injective same)
      obtain ⟨blocksPath, blocksLed, keepsFirst, frameFirst, blocksHeld, blocksThere, blocksOld⟩ :=
        Tree.openFile_ok openedBlocks
      obtain ⟨indexPath, indexLed, keepsSecond, frameSecond, indexHeld, indexThere, indexOld⟩ :=
        Tree.openFile_ok openedIndex
      rw [spelled_filePath] at blocksPath indexPath
      subst blocksPath indexPath
      rw [← frameSecond _ differ] at blocksThere
      rw [frameFirst _ differ.symm] at indexOld
      refine ⟨rfl, ⟨blocksHeld, indexHeld⟩, ⟨fun name => ?_, fun name => ?_⟩, fun name => ?_⟩
      · cases name with
        | blocks => exact Tree.locate_mono (keepsFirst.trans keepsSecond) blocksLed
        | index => exact Tree.locate_mono keepsSecond indexLed
      · cases name with
        | blocks => exact blocksThere
        | index => exact indexThere
      · cases name with
        | blocks => exact blocksOld
        | index => exact indexOld

end Cache

end CompactChain
