import CompactChain.Proofs.Tree.Changes

set_option autoImplicit false

namespace CompactChain.Tree

variable {tree before after : Tree} {keep : Path → Bool} {path source target : Path}

def kept (tree : Tree) (keep : Path → Bool) : List (Path × Node) :=
  tree.entries.filter fun entry => keep entry.1

theorem lookup_kept (there : keep path) : (tree.kept keep).lookup path = tree.entries.lookup path := by
  rw [kept, lookup_filter, if_pos there]

theorem find?_of_kept (same : after.kept keep = before.kept keep) (there : keep path) :
    after.find? path = before.find? path := by
  unfold find?
  rw [← lookup_kept there, same, lookup_kept there]

theorem find?_of_below {home : Path} (below : after.kept home.isPrefixOf = before.kept home.isPrefixOf)
    (within : home <+: path) : after.find? path = before.find? path :=
  find?_of_kept below (List.isPrefixOf_iff_prefix.mpr within)

-- Keeping comes before or after, for what is done to the entries one by one.
theorem kept_put (node : Node) :
    (tree.put path node).kept keep =
      if keep path then (path, node) :: (tree.kept keep).filter fun entry => entry.1 ≠ path
      else tree.kept keep := by
  rw [kept, put, List.filter_cons, List.filter_filter]
  split
  · rw [kept, List.filter_filter]
    simp only [Bool.and_comm]
  next free =>
    apply List.filter_congr
    intro entry _
    by_cases here : entry.1 = path
    · simp [here, free]
    · simp [here]

theorem kept_remove :
    (tree.remove path).kept keep = (tree.kept keep).filter fun entry => !path.isPrefixOf entry.1 := by
  simp only [kept, remove, List.filter_filter, Bool.and_comm]

theorem kept_removeBelow :
    (tree.removeBelow path).kept keep =
      (tree.kept keep).filter fun entry => !path.isPrefixOf entry.1 || entry.1 = path := by
  simp only [kept, removeBelow, List.filter_filter, Bool.and_comm]

def relocated (source target path : Path) : Path :=
  if source.isPrefixOf path then target ++ path.drop source.length else path

theorem kept_move (along : ∀ rest, keep (target ++ rest) = keep (source ++ rest)) :
    (tree.move source target).kept keep =
      (tree.kept keep).map fun entry => (relocated source target entry.1, entry.2) := by
  have moved (entry : Path × Node) : keep (relocated source target entry.1) = keep entry.1 := by
    unfold relocated
    split
    next below =>
      obtain ⟨rest, spelled⟩ := List.isPrefixOf_iff_prefix.mp below
      rw [← spelled, List.drop_left, along]
    · rfl
  simp only [kept, move, List.filter_map]
  congr 1
  exact List.filter_congr fun entry _ => moved entry

def Spares (own : Path → Prop) (before after : Tree) : Prop :=
  ∀ keep : Path → Bool, (∀ path, own path → keep path = false) → after.kept keep = before.kept keep

def Closed (own : Path → Prop) : Prop :=
  ∀ path below, own path → path <+: below → own below

section Spares

variable {own : Path → Prop}

theorem Spares.refl (tree : Tree) : Spares own tree tree :=
  fun _ _ => rfl

theorem Spares.trans {first second third : Tree} (one : Spares own first second)
    (two : Spares own second third) : Spares own first third :=
  fun keep apart => (two keep apart).trans (one keep apart)

theorem Spares.mono {wider : Path → Prop} (spares : Spares own before after)
    (owned : ∀ path, own path → wider path) : Spares wider before after :=
  fun keep apart => spares keep fun path within => apart path (owned path within)

theorem Spares.find?_eq (spares : Spares own before after) (outside : ¬ own path) :
    after.find? path = before.find? path := by
  have apart : ∀ other, own other → decide (other = path) = false := by
    intro other owned
    exact decide_eq_false fun same => outside (same ▸ owned)
  exact find?_of_kept (spares _ apart) (decide_eq_true rfl)

theorem spares_put (node : Node) (owned : own path) : Spares own tree (tree.put path node) := by
  intro keep apart
  rw [kept_put, if_neg (by simp [apart path owned])]

variable (closed : Closed own)

include closed

theorem not_below_of_kept (owned : own path) (apart : ∀ other, own other → keep other = false)
    {entry : Path × Node} (member : entry ∈ tree.kept keep) : path.isPrefixOf entry.1 = false := by
  rw [Bool.eq_false_iff]
  intro below
  have inside := closed path entry.1 owned (List.isPrefixOf_iff_prefix.mp below)
  have kept := (List.mem_filter.mp member).2
  simp [apart entry.1 inside] at kept

theorem spares_remove (owned : own path) : Spares own tree (tree.remove path) := by
  intro keep apart
  rw [kept_remove, List.filter_eq_self]
  intro entry member
  simp [not_below_of_kept closed owned apart member]

theorem spares_removeBelow (owned : own path) : Spares own tree (tree.removeBelow path) := by
  intro keep apart
  rw [kept_removeBelow, List.filter_eq_self]
  intro entry member
  simp [not_below_of_kept closed owned apart member]

theorem spares_move (leaves : own source) (arrives : own target) :
    Spares own tree (tree.move source target) := by
  intro keep apart
  rw [kept_move, List.map_congr_left (g := id), List.map_id]
  · intro entry member
    rw [relocated, if_neg (by simp [not_below_of_kept closed leaves apart member])]
    rfl
  · intro rest
    rw [apart _ (closed target _ arrives (List.prefix_append _ _)),
      apart _ (closed source _ leaves (List.prefix_append _ _))]

theorem removeAll_spares {text : String} (removed : before.removeAll text = .ok after)
    (owned : own (Path.spelled text)) : Spares own before after := by
  unfold removeAll at removed
  cases located : before.locate text with
  | error cause => simp [located, bind, Except.bind] at removed
  | ok target =>
    rw [← locate_eq located] at owned
    simp only [located, bind, Except.bind] at removed
    split at removed
    · contradiction
    · split at removed
      · obtain rfl := Except.ok.inj removed
        exact (spares_removeBelow closed owned).trans (spares_remove closed owned)
      · obtain rfl := Except.ok.inj removed
        exact spares_removeBelow closed owned

theorem rename_spares {old new : String} (renamed : before.rename old new = .ok after)
    (leaves : own (Path.spelled old)) (arrives : own (Path.spelled new)) :
    Spares own before after := by
  unfold rename at renamed
  cases located : before.locate old with
  | error cause => simp [located, bind, Except.bind] at renamed
  | ok source =>
    cases led : before.locate new with
    | error cause => simp [located, led, bind, Except.bind] at renamed
    | ok target =>
      simp only [located, led, bind, Except.bind] at renamed
      split at renamed
      · obtain rfl := Except.ok.inj renamed
        rw [← locate_eq located] at leaves
        rw [← locate_eq led] at arrives
        exact spares_move closed leaves arrives
      · contradiction

omit closed

theorem openFile_spares {text : String} (opened : before.openFile text = .ok (after, path))
    (owned : own (Path.spelled text)) : Spares own before after := by
  unfold openFile at opened
  cases located : before.locate text with
  | error cause => simp [located, bind, Except.bind] at opened
  | ok target =>
    rw [← locate_eq located] at owned
    simp only [located, bind, Except.bind] at opened
    split at opened
    · obtain ⟨rfl, -⟩ := Prod.mk.inj (Except.ok.inj opened)
      exact Spares.refl _
    · contradiction
    · obtain ⟨rfl, -⟩ := Prod.mk.inj (Except.ok.inj opened)
      exact spares_put _ owned

theorem copyFile_spares {text copy : String} (copied : before.copyFile text copy = .ok after)
    (owned : own (Path.spelled copy)) : Spares own before after := by
  unfold copyFile at copied
  cases located : before.locate text with
  | error cause => simp [located, bind, Except.bind] at copied
  | ok path =>
    simp only [located, bind, Except.bind] at copied
    split at copied
    · cases opened : before.openFile copy with
      | error cause => simp [opened] at copied
      | ok made =>
        obtain ⟨middle, target⟩ := made
        simp only [opened, pure, Except.pure, Except.ok.injEq] at copied
        rw [← copied]
        have there := (openFile_ok opened).1
        exact (openFile_spares opened owned).trans (spares_put _ (there ▸ owned))
    · contradiction
    · contradiction

end Spares

/-- Apart from its own region, nothing changed but that directories were made where nothing was, none
of them off this way. -/
structure Framed (own way : Path → Prop) (before after : Tree) : Prop where
  spares : Spares (fun path => own path ∨ way path) before after
  made : ∀ path, ¬ own path → after.find? path = before.find? path ∨
    (before.find? path = none ∧ after.find? path = some .directory)

section Framed

variable {own way : Path → Prop}

theorem Framed.refl (tree : Tree) : Framed own way tree tree :=
  ⟨Spares.refl tree, fun _ _ => .inl rfl⟩

theorem Framed.trans {first second third : Tree} (one : Framed own way first second)
    (two : Framed own way second third) : Framed own way first third := by
  refine ⟨one.spares.trans two.spares, fun path outside => ?_⟩
  rcases two.made path outside with same | ⟨missing, there⟩
  · rw [same]
    exact one.made path outside
  · rcases one.made path outside with same | ⟨_, directory⟩
    · exact .inr ⟨same ▸ missing, there⟩
    · rw [directory] at missing
      contradiction

theorem Spares.framed (spares : Spares own before after) : Framed own way before after :=
  ⟨fun keep apart => spares keep fun path owned => apart path (.inl owned),
    fun _ outside => .inl (spares.find?_eq outside)⟩

theorem Framed.mono {wider longer : Path → Prop} (framed : Framed own way before after)
    (owned : ∀ path, own path → wider path) (on : ∀ path, way path → longer path) :
    Framed wider longer before after :=
  ⟨fun keep apart => framed.spares keep fun path within =>
      apart path (within.imp (owned path) (on path)),
    fun path outside => framed.made path fun inside => outside (owned path inside)⟩

theorem framed_put (on : way path) (missing : tree.find? path = none) :
    Framed own way tree (tree.put path .directory) := by
  refine ⟨spares_put _ (.inr on), fun other _ => ?_⟩
  by_cases here : other = path
  · rw [here]
    exact .inr ⟨missing, find?_put_of_missing missing⟩
  · exact .inl (find?_put_of_ne here)

def WayFrom (here : Path) (names : List String) (path : Path) : Prop :=
  ∃ front, front <+: names ∧ path = front.foldl Path.step here

theorem WayFrom.cons {here : Path} {name : String} {names : List String}
    (on : WayFrom (Path.step here name) names path) : WayFrom here (name :: names) path := by
  obtain ⟨front, begins, rfl⟩ := on
  exact ⟨name :: front, List.cons_prefix_cons.mpr ⟨rfl, begins⟩, rfl⟩

theorem makeDirectoriesFrom_framed (tree : Tree) (here : Path) (made : Bool) (names : List String) :
    Framed own (fun path => WayFrom here names path ∧ tree.find? path = none) tree
      (tree.makeDirectoriesFrom here made names).1 := by
  induction names generalizing tree here made with
  | nil => exact Framed.refl tree
  | cons name rest ih =>
    unfold makeDirectoriesFrom
    split
    · exact Framed.refl tree
    · simp only
      split
      · exact (ih tree _ made).mono (fun _ => id) fun _ on => ⟨on.1.cons, on.2⟩
      · exact Framed.refl tree
      next missing =>
        have on : WayFrom here (name :: rest) (Path.step here name) :=
          ⟨[name], List.cons_prefix_cons.mpr ⟨rfl, List.nil_prefix⟩, rfl⟩
        refine (framed_put ⟨on, missing⟩ missing).trans ((ih _ _ true).mono (fun _ => id) ?_)
        rintro path ⟨later, gone⟩
        refine ⟨later.cons, ?_⟩
        by_cases made : path = Path.step here name
        · rwa [made]
        · rwa [find?_put_of_ne made] at gone

def OnTheWay (text : String) : Path → Prop :=
  WayFrom [] ((Path.componentsAfter [] text.toList).filter fun name => !Path.stays name)

theorem makeDirectories_framed (tree : Tree) (text : String) :
    Framed own (fun path => OnTheWay text path ∧ tree.find? path = none) tree
      (tree.makeDirectories text).1 := by
  unfold makeDirectories
  split
  · exact Framed.refl tree
  next names split =>
    obtain rfl := Path.components_ok split
    exact makeDirectoriesFrom_framed tree [] false _

theorem makeDirectories_adds (tree : Tree) (text : String) :
    tree.AddsDirectories (tree.makeDirectories text).1 := by
  have framed : Framed (fun _ => False) _ tree (tree.makeDirectories text).1 :=
    makeDirectories_framed tree text
  exact fun path => (framed.made path id).imp_right And.right

end Framed

end CompactChain.Tree
