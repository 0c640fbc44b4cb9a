import CompactChain.Proofs.Cache.Placement

set_option autoImplicit false

namespace CompactChain

open Store (FileName Files Medium)
open CompactChain.Tree (Closed Framed OnTheWay Spares)

namespace Cache

/-- The files of a cache that is kept here, what was set aside of them, and what is below these. -/
def Owned (home path : Path) : Prop :=
  ∃ name ∈ ["blocks", "index", "blocks-corrupted", "index-corrupted"], home ++ [name] <+: path

def Apart (settings : Settings) : Prop :=
  ∀ path, OnTheWay settings.directory path → ¬ Owned settings.home path

variable {settings : Settings} {tree : Tree}

theorem closed_owned (home : Path) : Closed (Owned home) := by
  rintro path below ⟨name, among, above⟩ further
  exact ⟨name, among, above.trans further⟩

theorem owned_place (settings : Settings) (name : FileName) :
    Owned settings.home (place settings name) :=
  ⟨fileName name, by cases name <;> simp [fileName], List.prefix_rfl⟩

theorem owned_filePath (settings : Settings) (name : FileName) :
    Owned settings.home (Path.spelled (filePath settings name)) :=
  spelled_filePath settings name ▸ owned_place settings name

theorem owned_asidePath (settings : Settings) (name : FileName) :
    Owned settings.home (Path.spelled (asidePath (filePath settings name))) := by
  rw [spelled_asidePath]
  exact ⟨asidePath (fileName name), by cases name <;> simp [fileName, asidePath], List.prefix_rfl⟩

theorem openFiles_spares (tree : Tree) (settings : Settings) :
    Spares (Owned settings.home) tree (openFiles tree settings).1 := by
  unfold openFiles
  split
  · exact Spares.refl tree
  next first _ openedBlocks =>
    have blocks := Tree.openFile_spares openedBlocks (owned_filePath settings .blocks)
    split
    · exact blocks
    next second _ openedIndex =>
      exact blocks.trans (Tree.openFile_spares openedIndex (owned_filePath settings .index))

theorem clearAside_spares (tree : Tree) (settings : Settings) (name : FileName) :
    Spares (Owned settings.home) tree (clearAside tree (filePath settings name)) := by
  unfold clearAside
  split
  next removed =>
    exact Tree.removeAll_spares (closed_owned _) removed (owned_asidePath settings name)
  · exact Spares.refl tree

theorem setAside_spares (tree : Tree) (settings : Settings) (name : FileName) :
    Spares (Owned settings.home) tree (setAside tree (filePath settings name)).1 := by
  have cleared := clearAside_spares tree settings name
  unfold setAside
  split
  · exact Spares.refl tree
  · simp only
    split
    next renamed =>
      exact cleared.trans (Tree.rename_spares (closed_owned _) renamed (owned_filePath settings name)
        (owned_asidePath settings name))
    · exact cleared

theorem copyAside_spares (tree : Tree) (settings : Settings) (name : FileName) :
    Spares (Owned settings.home) tree (copyAside tree (filePath settings name)).1 := by
  unfold copyAside
  split
  next copied => exact Tree.copyFile_spares copied (owned_asidePath settings name)
  · exact Spares.refl tree

theorem bothFiles_spares {step : Tree → String → Tree × List Store.Warning}
    (spares : ∀ tree name, Spares (Owned settings.home) tree (step tree (filePath settings name)).1)
    (tree : Tree) : Spares (Owned settings.home) tree (bothFiles step tree settings).1 :=
  (spares tree .blocks).trans (spares _ .index)

theorem store_spares (settings : Settings) (tree : Tree) (files : Files) :
    Spares (Owned settings.home) tree ((handlesAt settings).store tree files).1 :=
  (Tree.spares_put _ (owned_place settings .blocks)).trans
    (Tree.spares_put _ (owned_place settings .index))

theorem ofHandles_spares (medium : Medium) (tree : Tree) (settings : Settings) :
    Spares (Owned settings.home) tree (ofHandles medium tree settings (handlesAt settings)).tree := by
  have copied := bothFiles_spares (fun tree name => copyAside_spares tree settings name) tree
  unfold ofHandles
  simp only
  cases (Store.recover settings.startHeight ((handlesAt settings).files tree)).damage with
  | none => split <;> exact store_spares settings tree _
  | some found => split <;> exact copied.trans (store_spares settings _ _)

theorem openThere_spares (medium : Medium) (tree : Tree) (settings : Settings) :
    Spares (Owned settings.home) tree (openThere medium tree settings).tree := by
  have opening := openFiles_spares tree settings
  unfold openThere
  split
  next there handles opened =>
    obtain ⟨rfl, -⟩ := ready_of_openFiles opened
    rw [opened] at opening
    exact opening.trans (ofHandles_spares medium there settings)
  next there cause failed =>
    rw [failed] at opening
    have moved := bothFiles_spares (fun tree name => setAside_spares tree settings name) there
    have again := openFiles_spares (bothFiles setAside there settings).1 settings
    simp only
    split
    next opened =>
      rw [opened] at again
      exact (opening.trans moved).trans again
    next handles opened =>
      obtain ⟨rfl, -⟩ := ready_of_openFiles opened
      rw [opened] at again
      exact ((opening.trans moved).trans again).trans (ofHandles_spares medium _ settings)

theorem openIn_framed (medium : Medium) (tree : Tree) (settings : Settings) :
    Framed (Owned settings.home)
      (fun path => OnTheWay settings.directory path ∧ tree.find? path = none) tree
      (openIn medium tree settings).tree := by
  have made : Framed (Owned settings.home) _ tree _ :=
    Tree.makeDirectories_framed tree settings.directory
  unfold openIn
  split
  · exact Framed.refl tree
  · split
    next failed =>
      rw [failed] at made
      exact made
    next there =>
      rw [there] at made
      exact made.trans (openThere_spares medium _ settings).framed

end Cache

end CompactChain
