import CompactChain.Proofs.Tree.Lookup

set_option autoImplicit false

namespace CompactChain

namespace Path

theorem componentsAfter_slash (name front rest : List Char) :
    componentsAfter name (front ++ '/' :: rest) =
      componentsAfter name front ++ componentsAfter [] rest := by
  induction front generalizing name with
  | nil => simp [componentsAfter]
  | cons c front ih =>
    rw [List.cons_append, componentsAfter, componentsAfter]
    split
    · rw [ih, List.cons_append]
    · rw [ih]

theorem componentsAfter_plain {name text : List Char} (plain : '/' ∉ text) :
    componentsAfter name text = [String.ofList (name.reverse ++ text)] := by
  induction text generalizing name with
  | nil => simp [componentsAfter]
  | cons c text ih =>
    have other : c ≠ '/' := fun same => plain (same ▸ List.mem_cons_self)
    have later : '/' ∉ text := fun member => plain (List.mem_cons_of_mem _ member)
    rw [componentsAfter, if_neg other, ih later]
    simp

def spelled (text : String) : Path :=
  (componentsAfter [] text.toList).foldl step []

theorem components_ok {text : String} {names : List String} (split : components text = .ok names) :
    names = componentsAfter [] text.toList := by
  unfold components at split
  split at split
  · contradiction
  split at split
  · contradiction
  · exact (Except.ok.inj split).symm

theorem components_front {front rest : String} {names : List String}
    (split : components (front ++ rest) = .ok names) :
    components front = .ok (componentsAfter [] front.toList) := by
  unfold components at split ⊢
  rw [String.toList_append, String.utf8ByteSize_append] at split
  split at split
  · contradiction
  next clean =>
    split at split
    · contradiction
    next short =>
      rw [if_neg, if_neg (by omega)]
      intro bad
      apply clean
      simp only [List.contains_append, bad, Bool.true_or]

end Path

namespace Tree

theorem locate_ok {tree : Tree} {text : String} {path : Path} (led : tree.locate text = .ok path) :
    Path.components text = .ok (Path.componentsAfter [] text.toList) ∧
      tree.follow [] (Path.componentsAfter [] text.toList) = .ok path := by
  unfold locate at led
  split at led
  · contradiction
  next names split =>
    obtain rfl := Path.components_ok split
    exact ⟨split, led⟩

theorem locate_eq {tree : Tree} {text : String} {path : Path} (led : tree.locate text = .ok path) :
    path = Path.spelled text :=
  follow_eq (locate_ok led).2

-- What another name follows is a directory, so nothing is missing on the way.
theorem makeDirectoriesFrom_of_follow {tree : Tree} {names : List String} {last : String}
    {here path : Path} (led : tree.follow here (names ++ [last]) = .ok path) (made : Bool) :
    tree.makeDirectoriesFrom here made (names.filter fun name => !Path.stays name) =
      (tree, .ok ()) := by
  induction names generalizing here made with
  | nil => rfl
  | cons name rest ih =>
    obtain ⟨_, fits, later⟩ := follow_cons led
    rw [List.filter_cons]
    by_cases stays : Path.stays name
    · have same : Path.step here name = here := by simp [Path.step, stays]
      rw [same] at later
      simpa [stays] using ih later made
    · have directory : tree.find? (Path.step here name) = some .directory := by
        cases rest with
        | nil => exact (follow_cons later).1
        | cons second rest => exact (follow_cons later).1
      simp only [stays, Bool.not_false, if_true]
      rw [makeDirectoriesFrom, if_neg fits]
      simp only [directory]
      exact ih later made

theorem makeDirectories_of_locate {tree : Tree} {directory name : String} {path : Path}
    (plain : '/' ∉ name.toList) (led : tree.locate (directory ++ "/" ++ name) = .ok path) :
    tree.makeDirectories directory = (tree, .ok ()) := by
  obtain ⟨split, followed⟩ := locate_ok led
  rw [String.append_assoc] at split
  have names : Path.componentsAfter [] (directory ++ "/" ++ name).toList =
      Path.componentsAfter [] directory.toList ++ [name] := by
    simp [String.toList_append, Path.componentsAfter_slash, Path.componentsAfter_plain plain]
  rw [names] at followed
  rw [makeDirectories, Path.components_front split]
  exact makeDirectoriesFrom_of_follow followed false

end Tree

end CompactChain
