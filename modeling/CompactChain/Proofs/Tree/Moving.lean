import CompactChain.Proofs.Tree.Agreement

set_option autoImplicit false

namespace CompactChain.Tree

variable {tree : Tree} {source target path : Path}

theorem find?_remove_below (below : path ≠ []) (rest : Path) :
    (tree.remove path).find? (path ++ rest) = none := by
  have apart : path ++ rest ≠ [] := by simp [below]
  rw [find?, if_neg apart, remove, lookup_filter fun key => !path.isPrefixOf key, if_neg]
  simp [List.isPrefixOf_iff_prefix]

theorem relocated_ne {key rest : Path} (free : key ≠ target ++ rest) (other : key ≠ source ++ rest) :
    relocated source target key ≠ target ++ rest := by
  unfold relocated
  split
  next within =>
    obtain ⟨later, rfl⟩ := List.isPrefixOf_iff_prefix.mp within
    rw [List.drop_left]
    intro same
    exact other (congrArg (source ++ ·) (List.append_cancel_left same))
  · exact free

theorem find?_move_arrives (below : source ≠ []) (beneath : target ≠ []) {rest : Path}
    (free : tree.find? (target ++ rest) = none) :
    (tree.move source target).find? (target ++ rest) = tree.find? (source ++ rest) := by
  have lookup (entries : List (Path × Node)) (free : entries.lookup (target ++ rest) = none) :
      (entries.map fun entry => (relocated source target entry.1, entry.2)).lookup (target ++ rest) =
        entries.lookup (source ++ rest) := by
    induction entries with
    | nil => rfl
    | cons entry later ih =>
      obtain ⟨key, node⟩ := entry
      rw [List.lookup_eq_none_iff, List.forall_mem_cons] at free
      obtain ⟨elsewhere, after⟩ := free
      rw [List.map_cons]
      by_cases here : key = source ++ rest
      · have arrives : relocated source target (source ++ rest) = target ++ rest := by
          simp [relocated, List.isPrefixOf_iff_prefix]
        rw [here, arrives, List.lookup_cons_self, List.lookup_cons_self]
      · have distinct : key ≠ target ++ rest := fun same => by simp [same] at elsewhere
        have apart := relocated_ne distinct here
        rw [List.lookup_cons, List.lookup_cons, beq_false_of_ne apart.symm, beq_false_of_ne (Ne.symm here)]
        exact ih (List.lookup_eq_none_iff.mpr after)
  rw [find?, if_neg (by simp [beneath])] at free
  rw [find?, find?, if_neg (by simp [beneath]), if_neg (by simp [below])]
  exact lookup tree.entries free

theorem find?_move_leaves (below : source ≠ []) {rest : Path}
    (apart : target.isPrefixOf (source ++ rest) = false) :
    (tree.move source target).find? (source ++ rest) = none := by
  rw [find?, if_neg (by simp [below]), move, lookup_move apart, if_pos]
  simp [List.isPrefixOf_iff_prefix]

theorem removeAll_eq {text : String} (led : tree.locate text = .ok path)
    (still : (tree.removeBelow path).locate text = .ok path) (there : tree.find? path ≠ none) :
    tree.removeAll text = .ok ((tree.removeBelow path).remove path) := by
  obtain ⟨node, found⟩ := Option.ne_none_iff_exists'.mp there
  simp only [removeAll, led, found, still, bind, Except.bind, pure, Except.pure]

theorem rename_eq {old new : String} (led : tree.locate old = .ok source)
    (aimed : tree.locate new = .ok target) (there : tree.find? source ≠ none) :
    tree.rename old new = .ok (tree.move source target) := by
  obtain ⟨node, found⟩ := Option.ne_none_iff_exists'.mp there
  simp only [rename, led, aimed, found, bind, Except.bind, pure, Except.pure]

end CompactChain.Tree
