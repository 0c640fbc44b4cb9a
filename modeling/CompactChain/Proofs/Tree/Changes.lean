import CompactChain.Proofs.Tree.Location

set_option autoImplicit false

namespace CompactChain.Tree

theorem openFile_ok {tree after : Tree} {text : String} {path : Path}
    (opened : tree.openFile text = .ok (after, path)) :
    path = Path.spelled text ∧ tree.locate text = .ok path ∧ tree.KeepsDirectories after ∧
      (∀ other, other ≠ path → after.find? other = tree.find? other) ∧
      ∃ contents, after.find? path = some (.file contents) ∧
        (tree.find? path = some (.file contents) ∨ contents = []) := by
  unfold openFile at opened
  cases located : tree.locate text with
  | error cause => simp [located, bind, Except.bind] at opened
  | ok target =>
    simp only [located, bind, Except.bind] at opened
    split at opened
    next contents found =>
      obtain ⟨rfl, rfl⟩ := Prod.mk.inj (Except.ok.inj opened)
      exact ⟨locate_eq located, rfl, KeepsDirectories.refl _, fun _ _ => rfl, contents,
        found, .inl found⟩
    · contradiction
    next missing =>
      obtain ⟨rfl, rfl⟩ := Prod.mk.inj (Except.ok.inj opened)
      have below : target ≠ [] := by
        intro root
        rw [root, find?_root] at missing
        contradiction
      exact ⟨locate_eq located, rfl, keepsDirectories_put (by simp [missing]),
        fun _ differ => find?_put_of_ne differ, [], find?_put_self below, .inr rfl⟩

theorem copyFile_ok {tree after : Tree} {source target : String}
    (copied : tree.copyFile source target = .ok after) :
    tree.KeepsDirectories after ∧
      ∀ other, other ≠ Path.spelled target → after.find? other = tree.find? other := by
  unfold copyFile at copied
  cases located : tree.locate source with
  | error cause => simp [located, bind, Except.bind] at copied
  | ok path =>
    simp only [located, bind, Except.bind] at copied
    split at copied
    · cases opened : tree.openFile target with
      | error cause => simp [opened] at copied
      | ok made =>
        obtain ⟨middle, copy⟩ := made
        obtain ⟨rfl, _, keeps, frame, contents, there, _⟩ := openFile_ok opened
        simp only [opened, pure, Except.pure, Except.ok.injEq] at copied
        rw [← copied]
        constructor
        · exact keeps.trans (keepsDirectories_put (by simp [there]))
        · exact fun other differ => (find?_put_of_ne differ).trans (frame other differ)
    · contradiction
    · contradiction

def AddsDirectories (before after : Tree) : Prop :=
  ∀ path, after.find? path = before.find? path ∨ after.find? path = some .directory

theorem find?_removeAll {tree after : Tree} {text : String} (removed : tree.removeAll text = .ok after)
    (path : Path) : after.find? path = tree.find? path ∨ after.find? path = none := by
  unfold removeAll at removed
  cases located : tree.locate text with
  | error cause => simp [located, bind, Except.bind] at removed
  | ok target =>
    simp only [located, bind, Except.bind] at removed
    split at removed
    · contradiction
    · split at removed
      · obtain rfl := Except.ok.inj removed
        rcases find?_remove (tree.removeBelow target) target path with same | gone
        · rw [same]
          exact find?_removeBelow tree target path
        · exact .inr gone
      · obtain rfl := Except.ok.inj removed
        exact find?_removeBelow tree target path

theorem find?_rename {tree after : Tree} {source target : String} {path : Path}
    (renamed : tree.rename source target = .ok after)
    (outside : (Path.spelled target).isPrefixOf path = false) :
    after.find? path = tree.find? path ∨ after.find? path = none := by
  unfold rename at renamed
  cases located : tree.locate source with
  | error cause => simp [located, bind, Except.bind] at renamed
  | ok old =>
    cases led : tree.locate target with
    | error cause => simp [located, led, bind, Except.bind] at renamed
    | ok new =>
      simp only [located, led, bind, Except.bind] at renamed
      split at renamed
      · obtain rfl := Except.ok.inj renamed
        rw [← locate_eq led] at outside
        exact find?_move tree outside
      · contradiction

end CompactChain.Tree
