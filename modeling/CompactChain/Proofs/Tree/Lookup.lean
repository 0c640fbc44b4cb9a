import CompactChain.Tree

set_option autoImplicit false

namespace CompactChain

open Store (OsError)

namespace Tree

theorem lookup_filter (keep : Path → Bool) (entries : List (Path × Node)) (path : Path) :
    (entries.filter fun entry => keep entry.1).lookup path =
      if keep path then entries.lookup path else none := by
  induction entries with
  | nil => simp
  | cons entry rest ih =>
    obtain ⟨key, node⟩ := entry
    rw [List.filter_cons]
    by_cases same : path = key
    · subst same
      cases kept : keep path <;> simp [kept, ih]
    · have other : (path == key) = false := by simpa using same
      cases kept : keep key <;> simp [List.lookup_cons, other, ih]

@[simp] theorem find?_root (tree : Tree) : tree.find? [] = some .directory := if_pos rfl

theorem find?_put_self {tree : Tree} {path : Path} {node : Node} (below : path ≠ []) :
    (tree.put path node).find? path = some node := by
  simp [find?, put, below]

theorem find?_put_of_ne {tree : Tree} {path other : Path} {node : Node} (differ : other ≠ path) :
    (tree.put path node).find? other = tree.find? other := by
  unfold find? put
  split
  · rfl
  · have distinct : (other == path) = false := by simpa using differ
    have kept := lookup_filter (fun key => decide (key ≠ path)) tree.entries other
    simp only [List.lookup_cons, distinct]
    simpa [differ] using kept

theorem find?_put_of_missing {tree : Tree} {path : Path} {node : Node}
    (missing : tree.find? path = none) : (tree.put path node).find? path = some node := by
  apply find?_put_self
  rintro rfl
  simp at missing

theorem find?_remove (tree : Tree) (path other : Path) :
    (tree.remove path).find? other = tree.find? other ∨
      (tree.remove path).find? other = none := by
  unfold find? remove
  split
  · exact .inl rfl
  · rw [lookup_filter fun key => !path.isPrefixOf key]
    split
    · exact .inl rfl
    · exact .inr rfl

theorem find?_removeBelow (tree : Tree) (path other : Path) :
    (tree.removeBelow path).find? other = tree.find? other ∨
      (tree.removeBelow path).find? other = none := by
  unfold find? removeBelow
  split
  · exact .inl rfl
  · rw [lookup_filter fun key => !path.isPrefixOf key || key = path]
    split
    · exact .inl rfl
    · exact .inr rfl

theorem lookup_move {entries : List (Path × Node)} {source target path : Path}
    (outside : target.isPrefixOf path = false) :
    (entries.map fun (key, node) =>
        (if source.isPrefixOf key then target ++ key.drop source.length else key, node)).lookup path =
      if source.isPrefixOf path then none else entries.lookup path := by
  induction entries with
  | nil => simp
  | cons entry rest ih =>
    obtain ⟨key, node⟩ := entry
    rw [List.map_cons, List.lookup_cons, ih]
    by_cases moved : source.isPrefixOf key
    · have elsewhere : (path == target ++ key.drop source.length) = false := by
        apply beq_false_of_ne
        intro same
        rw [same, List.isPrefixOf_iff_prefix.mpr (List.prefix_append _ _)] at outside
        contradiction
      simp only [moved, if_true, elsewhere]
      by_cases here : path = key
      · subst here
        simp [moved]
      · have other : (path == key) = false := by simpa using here
        simp only [List.lookup_cons, other]
    · by_cases here : path = key
      · subst here
        simp [moved]
      · have other : (path == key) = false := by simpa using here
        simp only [moved, Bool.false_eq_true, if_false, List.lookup_cons, other]

theorem find?_move (tree : Tree) {source target path : Path}
    (outside : target.isPrefixOf path = false) :
    (tree.move source target).find? path = tree.find? path ∨
      (tree.move source target).find? path = none := by
  unfold find? move
  split
  · exact .inl rfl
  · simp only [lookup_move outside]
    split
    · exact .inr rfl
    · exact .inl rfl

def KeepsDirectories (before after : Tree) : Prop :=
  ∀ path, before.find? path = some .directory → after.find? path = some .directory

theorem KeepsDirectories.refl (tree : Tree) : tree.KeepsDirectories tree :=
  fun _ found => found

theorem KeepsDirectories.trans {first second third : Tree} (one : first.KeepsDirectories second)
    (two : second.KeepsDirectories third) : first.KeepsDirectories third :=
  fun path found => two path (one path found)

theorem keepsDirectories_put {tree : Tree} {path : Path} {node : Node}
    (free : tree.find? path ≠ some .directory) : tree.KeepsDirectories (tree.put path node) := by
  intro other found
  have differ : other ≠ path := by
    intro same
    subst same
    contradiction
  rw [find?_put_of_ne differ, found]

theorem follow_cons {tree : Tree} {here path : Path} {name : String} {rest : List String}
    (led : tree.follow here (name :: rest) = .ok path) :
    tree.find? here = some .directory ∧ ¬ Path.nameLimit < name.utf8ByteSize ∧
      tree.follow (Path.step here name) rest = .ok path := by
  rw [follow] at led
  split at led
  · contradiction
  · contradiction
  next found =>
    split at led
    · contradiction
    next fits => exact ⟨found, fits, led⟩

theorem follow_eq {tree : Tree} {names : List String} {here path : Path}
    (led : tree.follow here names = .ok path) : path = names.foldl Path.step here := by
  induction names generalizing here with
  | nil => exact (Except.ok.inj led).symm
  | cons name rest ih => exact ih (follow_cons led).2.2

theorem follow_mono {before after : Tree} (keeps : before.KeepsDirectories after)
    {names : List String} {here path : Path} (led : before.follow here names = .ok path) :
    after.follow here names = .ok path := by
  induction names generalizing here with
  | nil => exact led
  | cons name rest ih =>
    obtain ⟨found, fits, later⟩ := follow_cons led
    rw [follow, keeps here found]
    exact (if_neg fits).trans (ih later)

theorem locate_mono {before after : Tree} (keeps : before.KeepsDirectories after) {text : String}
    {path : Path} (led : before.locate text = .ok path) : after.locate text = .ok path := by
  unfold locate at led ⊢
  split
  next failed => rw [failed] at led; exact led
  next names split => rw [split] at led; exact follow_mono keeps led

end Tree

end CompactChain
