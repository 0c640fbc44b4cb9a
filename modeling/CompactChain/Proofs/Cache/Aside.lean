import CompactChain.Proofs.Cache.Opening

set_option autoImplicit false

namespace CompactChain

open Store (FileName Files Medium)

namespace Tree

theorem follow_last {tree : Tree} {names : List String} {last other : String} {here path : Path}
    (led : tree.follow here (names ++ [last]) = .ok path) (fits : other.utf8ByteSize ≤ Path.nameLimit) :
    tree.follow here (names ++ [other]) = .ok ((names ++ [other]).foldl Path.step here) := by
  induction names generalizing here with
  | nil =>
    have directory := (follow_cons led).1
    rw [List.nil_append, follow, directory]
    exact if_neg (Nat.not_lt.mpr fits)
  | cons name rest ih =>
    obtain ⟨directory, short, later⟩ := follow_cons led
    rw [List.cons_append, follow, directory]
    exact (if_neg short).trans (ih later)

theorem locate_sibling {tree : Tree} {directory name other : String} {path : Path}
    (led : tree.locate (directory ++ "/" ++ name) = .ok path) (plain : '/' ∉ name.toList)
    (plainOther : '/' ∉ other.toList) (clean : '\x00' ∉ other.toList)
    (fits : other.utf8ByteSize ≤ Path.nameLimit)
    (short : (directory ++ "/" ++ other).utf8ByteSize < Path.textLimit) :
    tree.locate (directory ++ "/" ++ other) = .ok (Path.spelled (directory ++ "/" ++ other)) := by
  obtain ⟨split, followed⟩ := locate_ok led
  have names {last : String} (plain : '/' ∉ last.toList) :
      Path.componentsAfter [] (directory ++ "/" ++ last).toList =
        Path.componentsAfter [] directory.toList ++ [last] := by
    simp [String.toList_append, Path.componentsAfter_slash, Path.componentsAfter_plain plain]
  have split : Path.components (directory ++ "/" ++ other) =
      .ok (Path.componentsAfter [] (directory ++ "/" ++ other).toList) := by
    have front := Path.components_front split
    have none : ¬ (directory ++ "/").toList.contains '\x00' := by
      intro bad
      rw [Path.components, if_pos bad] at front
      contradiction
    rw [Path.components, if_neg, if_neg (Nat.not_le.mpr short)]
    intro bad
    rw [String.toList_append, List.contains_append, Bool.or_eq_true] at bad
    cases bad with
    | inl bad => exact none bad
    | inr bad => exact clean (List.contains_iff_mem.mp bad)
  rw [names plain] at followed
  rw [locate, split]
  simp only [Path.spelled, names plainOther]
  exact follow_last followed fits

end Tree

namespace Cache

variable {settings : Settings} {tree : Tree} {files : Files} {name : FileName}

theorem locate_asidePath {other : FileName}
    (led : tree.locate (filePath settings other) = .ok (place settings other))
    (short : (asidePath (filePath settings name)).utf8ByteSize < Path.textLimit) :
    tree.locate (asidePath (filePath settings name)) = .ok (placeAside settings name) := by
  rw [← spelled_asidePath]
  rw [filePath_eq] at led
  rw [filePath_eq, asidePath, String.append_assoc] at short ⊢
  apply Tree.locate_sibling led (plain_fileName other) _ _ _ short
  next => cases name <;> simp [fileName]
  next => cases name <;> simp [fileName]
  next => cases name <;> decide

theorem Ready.locate_asidePath (ready : Ready settings tree files)
    (short : (asidePath (filePath settings name)).utf8ByteSize < Path.textLimit) :
    tree.locate (asidePath (filePath settings name)) = .ok (placeAside settings name) :=
  Cache.locate_asidePath (ready.located name) short

theorem placeAside_injective {other : FileName}
    (same : placeAside settings name = placeAside settings other) : name = other := by
  have names : asidePath (fileName name) = asidePath (fileName other) := by
    simpa [placeAside] using same
  revert names
  cases name <;> cases other <;> decide

theorem Ready.find?_copyAside (ready : Ready settings tree files)
    (short : (asidePath (filePath settings name)).utf8ByteSize < Path.textLimit)
    (free : tree.find? (placeAside settings name) ≠ some .directory) :
    (Cache.copyAside tree (filePath settings name)).1.find? (placeAside settings name) =
        some (.file (files.get name)) ∧
      ∀ path, path ≠ placeAside settings name →
        (Cache.copyAside tree (filePath settings name)).1.find? path = tree.find? path := by
  have below : placeAside settings name ≠ [] := by simp [placeAside]
  have opened : ∃ middle, tree.openFile (asidePath (filePath settings name)) =
      .ok (middle, placeAside settings name) := by
    simp only [Tree.openFile, ready.locate_asidePath short, bind, Except.bind]
    split
    next => exact ⟨_, rfl⟩
    next directory => exact absurd directory free
    next => exact ⟨_, rfl⟩
  obtain ⟨middle, opened⟩ := opened
  have copied : Cache.copyAside tree (filePath settings name) =
      (middle.put (placeAside settings name) (.file (files.get name)), []) := by
    simp only [Cache.copyAside, Tree.copyFile, ready.located, ready.stored, opened, bind, Except.bind, pure,
      Except.pure, if_neg (placeAside_ne_place settings name name)]
  rw [copied]
  refine ⟨Tree.find?_put_self below, fun path differ => ?_⟩
  rw [Tree.find?_put_of_ne differ, (Tree.openFile_ok opened).2.2.2.1 path differ]

section Copies

variable (ready : Ready settings tree files)
  (short : ∀ name, (asidePath (filePath settings name)).utf8ByteSize < Path.textLimit)
  (free : ∀ name, tree.find? (placeAside settings name) ≠ some .directory)

include ready short free

theorem Ready.find?_copyBothAside (name : FileName) :
    (bothFiles Cache.copyAside tree settings).1.find? (placeAside settings name) =
      some (.file (files.get name)) := by
  have differ : placeAside settings .blocks ≠ placeAside settings .index := fun same =>
    FileName.noConfusion (placeAside_injective same)
  obtain ⟨blocks, others⟩ := ready.find?_copyAside (short .blocks) (free .blocks)
  have still := others _ differ.symm
  have freeStill := free .index
  rw [← still] at freeStill
  obtain ⟨index, frame⟩ := (ready.copyAside .blocks).find?_copyAside (short .index) freeStill
  cases name with
  | blocks => exact (frame _ differ).trans blocks
  | index => exact index

theorem Ready.find?_ofHandles_aside (damaged : (Store.recover settings.startHeight files).damage ≠ none)
    (medium : Medium) (name : FileName) :
    (Cache.ofHandles medium tree settings (handlesAt settings)).tree.find? (placeAside settings name) =
      some (.file (files.get name)) := by
  have copied := ready.find?_copyBothAside short free name
  simp only [Cache.ofHandles, ready.files_eq]
  cases found : (Store.recover settings.startHeight files).damage with
  | none => contradiction
  | some fault =>
    simp only
    split
    next => rw [find?_store_of_ne (placeAside_ne_place settings name), copied]
    next => rw [find?_store_of_ne (placeAside_ne_place settings name), copied]

end Copies

end Cache

end CompactChain
