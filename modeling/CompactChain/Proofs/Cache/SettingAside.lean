import CompactChain.Proofs.Cache.Agreement
import CompactChain.Proofs.Cache.Aside
import CompactChain.Proofs.Cache.Launching
import CompactChain.Proofs.Tree.Moving

set_option autoImplicit false

namespace CompactChain

open Store (FileName Files HasRoom HeldChain Medium roomLimit)
open CompactChain.Tree (Closed OnTheWay Spares)

namespace Tree

def subtree (tree : Tree) (path rest : Path) : Option Node :=
  tree.find? (path ++ rest)

def lone (node : Node) (rest : Path) : Option Node :=
  if rest = [] then some node else none

theorem subtree_nil (tree : Tree) (path : Path) : tree.subtree path [] = tree.find? path := by
  rw [subtree, List.append_nil]

theorem find?_of_subtree {first second : Tree} {path : Path} (same : first.subtree path = second.subtree path) :
    first.find? path = second.find? path := by
  rw [← subtree_nil, ← subtree_nil, same]

theorem WellFormed.put {tree : Tree} {path : Path} {name : String} {node : Node}
    (wellFormed : tree.WellFormed) (above : tree.find? path = some .directory)
    (missing : tree.find? (path ++ [name]) = none) : (tree.put (path ++ [name]) node).WellFormed := by
  have keeps : tree.KeepsDirectories (tree.put (path ++ [name]) node) :=
    keepsDirectories_put (by simp [missing])
  intro other last found there
  apply keeps
  by_cases here : other ++ [last] = path ++ [name]
  · obtain ⟨rfl, -⟩ := List.append_inj' here rfl
    exact above
  · rw [find?_put_of_ne here] at there
    exact wellFormed other last found there

theorem subtree_put {tree : Tree} {path : Path} {node : Node} (wellFormed : tree.WellFormed)
    (missing : tree.find? path = none) : (tree.put path node).subtree path = lone node := by
  funext rest
  by_cases here : rest = []
  · simpa [subtree, lone, here] using find?_put_of_missing missing
  · have further : path ++ rest ≠ path := by simp [here]
    rw [subtree, lone, if_neg here, find?_put_of_ne further]
    exact wellFormed.none_below (List.prefix_append path rest) missing

end Tree

namespace Cache

variable {settings : Settings} {tree before after : Tree} {name : FileName}

theorem apart_of_plain (plain : ".." ∉ Path.componentsAfter [] settings.directory.toList) :
    Apart settings :=
  fun _ on => not_owned_above (Tree.above_of_onTheWay plain on)

structure Reached (settings : Settings) (tree : Tree) : Prop where
  files : ∀ name, tree.locate (filePath settings name) = .ok (place settings name)
  asides : ∀ name, tree.locate (asidePath (filePath settings name)) = .ok (placeAside settings name)

theorem Reached.mono (reached : Reached settings before) (apart : Apart settings)
    (spares : Spares (Owned settings.home) before after) : Reached settings after := by
  have same (path : Path) (outside : ¬ Owned settings.home path) : after.find? path = before.find? path :=
    spares.find?_eq outside
  have within (path : Path) (owned : Owned settings.home path) := isPrefixOf_of_owned owned
  constructor
  · intro name
    rw [Tree.locate_congr (leads_filePath apart within name) same, reached.files]
  · intro name
    rw [Tree.locate_congr (leads_asidePath apart within name) same, reached.asides]

theorem Reached.makeDirectories (reached : Reached settings tree) :
    tree.makeDirectories settings.directory = (tree, .ok ()) := by
  have located := reached.files .blocks
  rw [filePath_eq] at located
  exact Tree.makeDirectories_of_locate (plain_fileName .blocks) located

theorem reached_of_nodeAt? {node : Node} (found : tree.nodeAt? (filePath settings name) = some node)
    (short : ∀ name, (asidePath (filePath settings name)).utf8ByteSize < Path.textLimit) :
    Reached settings tree ∧ tree.find? (place settings name) = some node := by
  unfold Tree.nodeAt? at found
  split at found
  · next path led =>
    obtain rfl := (Tree.locate_eq led).trans (spelled_filePath settings name)
    refine ⟨⟨fun other => ?_, fun other => locate_asidePath led (short other)⟩, found⟩
    have fits := short other
    rw [asidePath, String.utf8ByteSize_append, filePath_eq] at fits
    rw [filePath_eq] at led
    rw [← spelled_filePath, filePath_eq]
    apply Tree.locate_sibling led (plain_fileName name) (plain_fileName other) _ _ (by omega)
    next => cases other <;> simp [fileName]
    next => cases other <;> decide
  · contradiction

def OwnedAs (settings : Settings) (name : FileName) (path : Path) : Prop :=
  place settings name <+: path ∨ placeAside settings name <+: path

theorem closed_ownedAs (settings : Settings) (name : FileName) : Closed (OwnedAs settings name) :=
  fun _ _ owned further => owned.imp (·.trans further) (·.trans further)

theorem OwnedAs.owned {path : Path} (owned : OwnedAs settings name path) : Owned settings.home path := by
  rcases owned with file | aside
  · exact closed_owned _ _ _ (owned_place settings name) file
  · refine closed_owned _ _ _ ?_ aside
    exact spelled_asidePath settings name ▸ owned_asidePath settings name

theorem not_ownedAs_other {other : FileName} (differ : other ≠ name) (rest : Path) :
    ¬ OwnedAs settings name (place settings other ++ rest) ∧
      ¬ OwnedAs settings name (placeAside settings other ++ rest) := by
  constructor <;> revert differ <;>
    cases name <;> cases other <;> simp [OwnedAs, place, placeAside, fileName, asidePath]

theorem not_below_placeAside (settings : Settings) (name other : FileName) (rest : Path) :
    ¬ placeAside settings name <+: place settings other ++ rest := by
  cases name <;> cases other <;> simp [place, placeAside, fileName, asidePath]

theorem clearAside_clears (reached : Reached settings tree) (apart : Apart settings) (name : FileName)
    (below : tree.find? (placeAside settings name) = none →
      ∀ rest, tree.subtree (placeAside settings name) rest = none) :
    Spares (placeAside settings name <+: ·) tree (clearAside tree (filePath settings name)) ∧
      ∀ rest, (clearAside tree (filePath settings name)).subtree (placeAside settings name) rest = none := by
  have closed : Closed (placeAside settings name <+: ·) := fun _ _ => List.IsPrefix.trans
  cases there : tree.find? (placeAside settings name) with
  | none =>
    have kept : clearAside tree (filePath settings name) = tree := by
      simp only [clearAside, Tree.removeAll, reached.asides, there, bind, Except.bind]
    rw [kept]
    exact ⟨Spares.refl tree, below there⟩
  | some node =>
    have emptied : Spares (placeAside settings name <+: ·) tree
        (tree.removeBelow (placeAside settings name)) :=
      Tree.spares_removeBelow closed List.prefix_rfl
    have still := reached.mono apart (emptied.mono fun path aside => OwnedAs.owned (.inr aside))
    have removed := Tree.removeAll_eq (reached.asides name) (still.asides name) (by simp [there])
    rw [clearAside, removed]
    refine ⟨emptied.trans (Tree.spares_remove closed List.prefix_rfl), fun rest => ?_⟩
    exact Tree.find?_remove_below (by simp [placeAside]) rest

structure SetAside (settings : Settings) (name : FileName) (before after : Tree) : Prop where
  gone : ∀ rest, after.subtree (place settings name) rest = none
  moved : before.find? (place settings name) ≠ none →
    after.subtree (placeAside settings name) = before.subtree (place settings name)
  left : before.find? (place settings name) = none →
    after.subtree (placeAside settings name) = before.subtree (placeAside settings name)

theorem setAside_moves (reached : Reached settings tree) (apart : Apart settings) (name : FileName)
    (below : ∀ path ∈ [place settings name, placeAside settings name], tree.find? path = none →
      ∀ rest, tree.subtree path rest = none) :
    Spares (OwnedAs settings name) tree (setAside tree (filePath settings name)).1 ∧
      SetAside settings name tree (setAside tree (filePath settings name)).1 := by
  have found : tree.nodeAt? (filePath settings name) = tree.find? (place settings name) := by
    simp only [Tree.nodeAt?, reached.files]
  cases there : tree.find? (place settings name) with
  | none =>
    rw [Cache.setAside, found, there]
    exact ⟨Spares.refl tree, below _ (by simp) there, fun some? => absurd there some?, fun _ => rfl⟩
  | some node =>
    obtain ⟨cleared, free⟩ := clearAside_clears reached apart name (below _ (by simp))
    have same (rest : Path) : (clearAside tree (filePath settings name)).find? (place settings name ++ rest) =
        tree.find? (place settings name ++ rest) :=
      cleared.find?_eq (not_below_placeAside settings name name rest)
    have still := reached.mono apart (cleared.mono fun path aside => OwnedAs.owned (.inr aside))
    have here := same []
    rw [List.append_nil, there] at here
    have renamed := Tree.rename_eq (still.files name) (still.asides name) (by simp [here])
    rw [Cache.setAside, found, there]
    simp only [renamed]
    refine ⟨?spares, fun rest => ?gone, fun _ => funext fun rest => ?moved, fun missing => ?left⟩
    case spares =>
      exact (cleared.mono fun path aside => .inr aside).trans
        (Tree.spares_move (closed_ownedAs settings name) (.inl List.prefix_rfl) (.inr List.prefix_rfl))
    case gone =>
      apply Tree.find?_move_leaves (place_ne_root settings name)
      simpa [← List.isPrefixOf_iff_prefix] using not_below_placeAside settings name name rest
    case moved =>
      have arrived := Tree.find?_move_arrives (place_ne_root settings name)
        (show placeAside settings name ≠ [] by simp [placeAside]) (free rest)
      exact arrived.trans (same rest)
    case left => simp [there] at missing

theorem SetAside.followed {middle : Tree} {other : FileName} (done : SetAside settings name before middle)
    (differ : name ≠ other) (spares : Spares (OwnedAs settings other) middle after) :
    SetAside settings name before after := by
  have file (rest : Path) := spares.find?_eq (not_ownedAs_other differ rest).1
  have aside (rest : Path) := spares.find?_eq (not_ownedAs_other differ rest).2
  refine ⟨fun rest => ?_, fun there => funext fun rest => ?_, fun missing => funext fun rest => ?_⟩
  · exact (file rest).trans (done.gone rest)
  · exact (aside rest).trans (congrFun (done.moved there) rest)
  · exact (aside rest).trans (congrFun (done.left missing) rest)

theorem SetAside.preceded {middle : Tree} {other : FileName} (done : SetAside settings name middle after)
    (differ : name ≠ other) (spares : Spares (OwnedAs settings other) before middle) :
    SetAside settings name before after := by
  have file : middle.subtree (place settings name) = before.subtree (place settings name) :=
    funext fun rest => spares.find?_eq (not_ownedAs_other differ rest).1
  have aside : middle.subtree (placeAside settings name) = before.subtree (placeAside settings name) :=
    funext fun rest => spares.find?_eq (not_ownedAs_other differ rest).2
  have here := Tree.find?_of_subtree file
  exact ⟨done.gone, fun there => (done.moved (here ▸ there)).trans file,
    fun missing => (done.left (here ▸ missing)).trans aside⟩

theorem bothFiles_tree (step : Tree → String → Tree × List Store.Warning) (tree : Tree) (settings : Settings) :
    (bothFiles step tree settings).1 =
      (step (step tree (filePath settings .blocks)).1 (filePath settings .index)).1 :=
  rfl

theorem setBothAside (reached : Reached settings tree) (apart : Apart settings)
    (below : ∀ name, ∀ path ∈ [place settings name, placeAside settings name], tree.find? path = none →
      ∀ rest, tree.subtree path rest = none) (name : FileName) :
    SetAside settings name tree (bothFiles setAside tree settings).1 := by
  obtain ⟨spares, blocks⟩ := setAside_moves reached apart .blocks (below .blocks)
  have still := reached.mono apart (spares.mono fun path owned => owned.owned)
  have differ : FileName.index ≠ .blocks := nofun
  have same (path : Path) (among : path ∈ [place settings .index, placeAside settings .index])
      (rest : Path) : (setAside tree (filePath settings .blocks)).1.find? (path ++ rest) =
        tree.find? (path ++ rest) := by
    rcases List.mem_pair.mp among with rfl | rfl
    · exact spares.find?_eq (not_ownedAs_other differ rest).1
    · exact spares.find?_eq (not_ownedAs_other differ rest).2
  obtain ⟨sparesLater, index⟩ := setAside_moves still apart .index fun path among missing rest => by
    have here := same path among []
    rw [List.append_nil] at here
    exact (same path among rest).trans (below .index path among (here ▸ missing) rest)
  rw [bothFiles_tree]
  cases name with
  | blocks => exact blocks.followed differ.symm sparesLater
  | index => exact index.preceded differ spares

-- The tree once it is known that the files cannot be opened: missing blocks have been made by then.
def attempted (settings : Settings) (tree : Tree) : Tree :=
  if tree.find? (place settings .blocks) = none then tree.put (place settings .blocks) (.file []) else tree

theorem openFiles_directory (reached : Reached settings tree)
    (directory : tree.find? (place settings name) = some .directory) :
    openFiles tree settings = (attempted settings tree, .error .isADirectory) := by
  have apart : place settings .index ≠ place settings .blocks := fun same =>
    FileName.noConfusion (place_injective same)
  unfold attempted
  cases name with
  | blocks =>
    simp only [openFiles, Tree.openFile, reached.files, directory, bind, Except.bind]
    rfl
  | index =>
    cases there : tree.find? (place settings .blocks) with
    | none =>
      have keeps : tree.KeepsDirectories (tree.put (place settings .blocks) (.file [])) :=
        Tree.keepsDirectories_put (by simp [there])
      have index := Tree.locate_mono keeps (reached.files .index)
      simp only [openFiles, Tree.openFile, reached.files, there, index, Tree.find?_put_of_ne apart,
        directory, bind, Except.bind, pure, Except.pure, if_true]
    | some node =>
      cases node <;>
        simp [openFiles, Tree.openFile, reached.files, there, directory, bind, Except.bind, pure, Except.pure]

theorem openFiles_missing (reached : Reached settings tree)
    (missing : ∀ name, tree.find? (place settings name) = none) :
    openFiles tree settings =
      (((handlesAt settings).store tree Files.empty).1, .ok (handlesAt settings)) := by
  have apart : place settings .index ≠ place settings .blocks := fun same =>
    FileName.noConfusion (place_injective same)
  have keeps : tree.KeepsDirectories (tree.put (place settings .blocks) (.file [])) :=
    Tree.keepsDirectories_put (by simp [missing])
  have index := Tree.locate_mono keeps (reached.files .index)
  simp only [openFiles, Tree.openFile, reached.files, missing, index, Tree.find?_put_of_ne apart,
    bind, Except.bind, pure, Except.pure]
  rfl

theorem find?_attempted {path : Path} (other : path ≠ place settings .blocks) :
    (attempted settings tree).find? path = tree.find? path := by
  unfold attempted
  split
  · exact Tree.find?_put_of_ne other
  · rfl

theorem subtree_attempted {path : Path} (other : ∀ rest, path ++ rest ≠ place settings .blocks) :
    (attempted settings tree).subtree path = tree.subtree path :=
  funext fun rest => find?_attempted (other rest)

theorem subtree_attempted_blocks (wellFormed : tree.WellFormed)
    (missing : tree.find? (place settings .blocks) = none) :
    (attempted settings tree).subtree (place settings .blocks) = Tree.lone (.file []) := by
  rw [attempted, if_pos missing]
  exact Tree.subtree_put wellFormed missing

theorem subtree_attempted_place (there : tree.find? (place settings name) ≠ none) :
    (attempted settings tree).subtree (place settings name) = tree.subtree (place settings name) := by
  cases name with
  | index =>
    apply subtree_attempted
    intro rest same
    simp [place, fileName] at same
  | blocks => rw [attempted, if_neg there]

theorem subtree_attempted_index (missing : tree.find? (place settings .index) = none) :
    (attempted settings tree).find? (place settings .index) = none ∧
      (attempted settings tree).subtree (placeAside settings .index) =
        tree.subtree (placeAside settings .index) := by
  constructor
  · rwa [find?_attempted fun same => FileName.noConfusion (place_injective same)]
  · apply subtree_attempted
    intro rest same
    simp [place, placeAside, fileName, asidePath] at same

theorem subtree_stored (gone : ∀ rest, tree.subtree (place settings name) rest = none) :
    ((handlesAt settings).store tree Files.empty).1.subtree (place settings name) = Tree.lone (.file []) := by
  funext rest
  rw [Tree.subtree, Tree.lone]
  split
  next here => rw [here, List.append_nil, find?_store]; cases name <;> rfl
  next further =>
    rw [find?_store_of_ne]
    · exact gone rest
    · intro other same
      have long := congrArg List.length same
      simp [place, further] at long

theorem subtree_stored_aside (settings : Settings) (tree : Tree) (name : FileName) :
    ((handlesAt settings).store tree Files.empty).1.subtree (placeAside settings name) =
      tree.subtree (placeAside settings name) := by
  funext rest
  refine find?_store_of_ne fun other same => ?_
  exact not_below_placeAside settings name other [] (by simp [← same])

structure Renewed (settings : Settings) (before : Tree) (opened : Opened) : Prop where
  answer : opened.answer =
    .ok ⟨settings, HeldChain.empty settings.startHeight, handlesAt settings⟩
  fresh : ∀ name, opened.tree.subtree (place settings name) = Tree.lone (.file [])
  moved : ∀ name, before.find? (place settings name) ≠ none →
    opened.tree.subtree (placeAside settings name) = before.subtree (place settings name)
  missingIndex : before.find? (place settings .index) = none →
    opened.tree.subtree (placeAside settings .index) = before.subtree (placeAside settings .index)
  missingBlocks : before.find? (place settings .blocks) = none →
    opened.tree.subtree (placeAside settings .blocks) = Tree.lone (.file [])
  others : ∀ path, ¬ Owned settings.home path → opened.tree.find? path = before.find? path

section Directory

variable (wellFormed : tree.WellFormed) (reached : Reached settings tree) (apart : Apart settings)
  (directory : tree.find? (place settings name) = some .directory)

include wellFormed reached apart directory

theorem setAside_attempted :
    let moved := (bothFiles setAside (attempted settings tree) settings).1
    Reached settings moved ∧ ∀ other, SetAside settings other (attempted settings tree) moved := by
  have spares := openFiles_spares tree settings
  rw [openFiles_directory reached directory] at spares
  have still := reached.mono apart spares
  have moving := bothFiles_spares (fun tree name => setAside_spares tree settings name)
    (attempted settings tree)
  have attemptedFormed : (attempted settings tree).WellFormed := by
    unfold attempted
    split
    next missing => exact wellFormed.put (wellFormed _ _ _ directory) missing
    next => exact wellFormed
  refine ⟨still.mono apart moving, setBothAside still apart fun other path _ missing rest => ?_⟩
  exact attemptedFormed.none_below (List.prefix_append path rest) missing

theorem openFiles_setAside :
    let moved := (bothFiles setAside (attempted settings tree) settings).1
    let fresh := ((handlesAt settings).store moved Files.empty).1
    openFiles moved settings = (fresh, .ok (handlesAt settings)) ∧ Ready settings fresh Files.empty := by
  intro moved fresh
  obtain ⟨reached, done⟩ := setAside_attempted wellFormed reached apart directory
  have missing (name : FileName) : moved.find? (place settings name) = none :=
    (Tree.subtree_nil _ _).symm.trans ((done name).gone [])
  have blank : Blank settings moved := fun name contents found => by simp [missing] at found
  have opened := openFiles_missing reached missing
  exact ⟨opened, (blank.ready opened).2⟩

theorem found?_directory (checked : settings.check = .ok ()) :
    found? tree settings = some Files.empty := by
  obtain ⟨opened, ready⟩ := openFiles_setAside wellFormed reached apart directory
  simp only [found?, checked, reached.makeDirectories, foundThere?,
    openFiles_directory reached directory, opened, ready.files_eq]

theorem openIn_directory (checked : settings.check = .ok ()) :
    let moved := (bothFiles setAside (attempted settings tree) settings).1
    ∃ fresh warnings, (∀ path, Tree.find? fresh path =
        ((handlesAt settings).store moved Files.empty).1.find? path) ∧
      openIn .perfect tree settings = ⟨fresh,
        .ok ⟨settings, HeldChain.empty settings.startHeight, handlesAt settings⟩, warnings⟩ := by
  obtain ⟨opened, ready⟩ := openFiles_setAside wellFormed reached apart directory
  have recovered := ready.ofHandles_empty (Settings.startHeight_lt checked)
  simp only [openIn, checked, reached.makeDirectories, openThere, openFiles_directory reached directory, opened,
    recovered]
  exact ⟨_, _, find?_store_again settings _ Files.empty Files.empty, rfl⟩

theorem openIn_renews (checked : settings.check = .ok ()) :
    Renewed settings tree (openIn .perfect tree settings) := by
  obtain ⟨fresh, warnings, stored, opened⟩ := openIn_directory wellFormed reached apart directory checked
  obtain ⟨-, done⟩ := setAside_attempted wellFormed reached apart directory
  have spares := openThere_spares .perfect tree settings
  have there : openThere .perfect tree settings = openIn .perfect tree settings := by
    simp only [openIn, checked, reached.makeDirectories]
  rw [there] at spares
  rw [opened] at spares ⊢
  have aside (name : FileName) : fresh.subtree (placeAside settings name) =
      (bothFiles setAside (attempted settings tree) settings).1.subtree (placeAside settings name) :=
    (funext fun rest => stored _).trans (subtree_stored_aside settings _ name)
  refine ⟨rfl, fun name => ?fresh, fun name there => ?moved, fun missing => ?missingIndex,
    fun missing => ?missingBlocks, fun path => spares.find?_eq⟩
  case fresh => exact (funext fun rest => stored _).trans (subtree_stored (done name).gone)
  case moved =>
    have kept := subtree_attempted_place there
    rw [aside, (done name).moved (Tree.find?_of_subtree kept ▸ there), kept]
  case missingIndex =>
    obtain ⟨still, kept⟩ := subtree_attempted_index missing
    rw [aside, (done .index).left still, kept]
  case missingBlocks =>
    have made := subtree_attempted_blocks wellFormed missing
    have there : (attempted settings tree).find? (place settings .blocks) = some (.file []) := by
      rw [← Tree.subtree_nil, made]
      rfl
    rw [aside, (done .blocks).moved (by simp [there]), made]

end Directory

/-- Where a directory stands in the place of a file, a cache opens empty unless there is no room for its
blocks, and what stood in the place of either file is moved aside whole. -/
theorem launched_with_files_aside (settings : Settings) (tree : Tree) (name : FileName)
    (checked : settings.check = .ok ()) (wellFormed : tree.WellFormed)
    (directory : tree.nodeAt? (filePath settings name) = some .directory)
    (short : ∀ name, (asidePath (filePath settings name)).utf8ByteSize < Path.textLimit)
    (apart : Apart settings) :
    (HasRoom (settings.capacity.getD 0) Files.empty → ∃ opened,
      launch .perfect tree settings = .ok opened ∧ Renewed settings tree opened) ∧
    (¬ HasRoom (settings.capacity.getD 0) Files.empty →
      launch .perfect tree settings = .error .noRoom) := by
  obtain ⟨reached, there⟩ := reached_of_nodeAt? directory short
  have found := found?_directory wellFormed reached apart there checked
  have stopped := stop?_of_found found checked (Nat.zero_le roomLimit)
  constructor
  · intro room
    rw [room.makeRoom] at stopped
    exact ⟨_, by rw [launch, stopped], openIn_renews wellFormed reached apart there checked⟩
  · intro without
    rw [Store.makeRoom_of_not without] at stopped
    rw [launch, stopped]

def occupiedTree : Tree where
  entries := [(["db"], .directory), (["db", "testnet"], .directory),
    (["db", "testnet", "blocks"], .directory), (["db", "testnet", "blocks", "1"], .file [1, 2]),
    (["db", "testnet", "index"], .file [3]), (["db", "testnet", "index-corrupted"], .directory),
    (["db", "testnet", "index-corrupted", "old"], .file [4])]

theorem launched_with_subtree_aside : ∃ opened,
    launch .perfect occupiedTree Session.sampleSettings = .ok opened ∧
      opened.tree.find? ["db", "testnet", "blocks-corrupted", "1"] = some (.file [1, 2]) ∧
      opened.tree.find? ["db", "testnet", "index-corrupted"] = some (.file [3]) ∧
      opened.tree.find? ["db", "testnet", "index-corrupted", "old"] = none := by
  have apart : Apart Session.sampleSettings := apart_of_plain (by decide)
  have room : HasRoom (Session.sampleSettings.capacity.getD 0) Files.empty := by
    unfold HasRoom
    decide
  obtain ⟨opened, launched, renewed⟩ := (launched_with_files_aside Session.sampleSettings occupiedTree .blocks rfl
    (Tree.wellFormed_of_entries (by decide)) (by decide +kernel) (by intro name; cases name <;> decide +kernel)
    apart).1 room
  have blocks := renewed.moved .blocks (by decide +kernel)
  have index := renewed.moved .index (by decide +kernel)
  exact ⟨opened, launched, congrFun blocks ["1"], congrFun index [], congrFun index ["old"]⟩

def remainingTree : Tree where
  entries := [(["db"], .directory), (["db", "testnet"], .directory),
    (["db", "testnet", "index"], .directory), (["db", "testnet", "blocks-corrupted"], .file [1, 2, 3])]

-- What was set aside earlier is lost to a file that nobody kept anything in.
theorem aside_lost_for_missing_blocks :
    Session.sampleSettings.check = .ok () ∧ remainingTree.WellFormed ∧
      remainingTree.nodeAt? (filePath Session.sampleSettings .index) = some .directory ∧
      remainingTree.nodeAt? (filePath Session.sampleSettings .blocks) = none ∧
      ∃ opened, launch .perfect remainingTree Session.sampleSettings = .ok opened ∧
        remainingTree.find? (placeAside Session.sampleSettings .blocks) = some (.file [1, 2, 3]) ∧
        opened.tree.find? (placeAside Session.sampleSettings .blocks) = some (.file []) := by
  refine ⟨rfl, Tree.wellFormed_of_entries (by decide), by decide +kernel, by decide +kernel, _, rfl, rfl, ?_⟩
  decide +kernel

end Cache

end CompactChain
