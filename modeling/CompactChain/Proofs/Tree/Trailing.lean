import CompactChain.Proofs.Tree.Agreement
import Mathlib.Data.List.Induction

set_option autoImplicit false

namespace CompactChain

namespace Path

theorem foldl_step_filter (names : List String) (here : Path) :
    (names.filter fun name => !stays name).foldl step here = names.foldl step here := by
  induction names generalizing here with
  | nil => rfl
  | cons name rest ih =>
    rw [List.filter_cons, List.foldl_cons, ← ih]
    by_cases stays : stays name
    · simp [step, stays]
    · simp [stays]

theorem step_dots (here : Path) : step here ".." <+: here := by
  simpa [step, stays] using here.dropLast_prefix

theorem step_down {name : String} (moves : stays name = false) (down : name ≠ "..") (here : Path) :
    step here name = here ++ [name] := by
  simp [step, moves, down]

theorem not_child_above {home path : Path} {name : String} (above : path <+: home) :
    ¬ home ++ [name] <+: path := by
  intro below
  have longer := (below.trans above).length_le
  simp only [List.length_append, List.length_singleton] at longer
  omega

theorem foldl_step_down {names : List String}
    (down : ∀ name ∈ names, stays name = false ∧ name ≠ "..") (here : Path) :
    names.foldl step here = here ++ names := by
  induction names generalizing here with
  | nil => simp
  | cons name rest ih =>
    obtain ⟨moves, named⟩ := down name List.mem_cons_self
    have later := ih (fun other member => down other (List.mem_cons_of_mem name member))
    rw [List.foldl_cons, later, step_down moves named]
    simp

end Path

namespace Tree

theorem above_of_onTheWay {text : String} {path : Path}
    (plain : ".." ∉ Path.componentsAfter [] text.toList) (on : OnTheWay text path) :
    path <+: Path.spelled text := by
  obtain ⟨front, begins, rfl⟩ := on
  have down : ∀ name ∈ (Path.componentsAfter [] text.toList).filter fun name => !Path.stays name,
      Path.stays name = false ∧ name ≠ ".." := by
    intro name member
    obtain ⟨among, moves⟩ := List.mem_filter.mp member
    exact ⟨by simpa using moves, fun same => plain (same ▸ among)⟩
  have spelled := (Path.foldl_step_filter (Path.componentsAfter [] text.toList) []).symm
  rw [Path.spelled, spelled, Path.foldl_step_down down,
    Path.foldl_step_down fun name member => down name (begins.subset member)]
  exact begins

def WellFormed (tree : Tree) : Prop :=
  ∀ path name node, tree.find? (path ++ [name]) = some node → tree.find? path = some .directory

theorem wellFormed_of_entries {tree : Tree}
    (above : ∀ entry ∈ tree.entries, tree.find? entry.1.dropLast = some .directory) :
    tree.WellFormed := by
  intro path name node found
  have listed : tree.entries.lookup (path ++ [name]) = some node := by simpa [find?] using found
  obtain ⟨front, later, entries, -⟩ := List.lookup_eq_some_iff.mp listed
  have there := above (path ++ [name], node) (by simp [entries])
  rwa [List.dropLast_concat] at there

section WellFormed

variable {tree : Tree} (wellFormed : tree.WellFormed) {path further : Path}

include wellFormed

theorem WellFormed.directory_above {node : Node} (above : path <+: further)
    (found : tree.find? further = some node) (higher : path ≠ further) :
    tree.find? path = some .directory := by
  obtain ⟨rest, rfl⟩ := above
  induction rest using List.reverseRecOn generalizing node with
  | nil => simp at higher
  | append_singleton rest name ih =>
    rw [← List.append_assoc] at found
    have next := wellFormed _ _ _ found
    by_cases here : rest = []
    · simpa [here] using next
    · exact ih next (by simpa using here)

theorem WellFormed.none_below (above : path <+: further) (missing : tree.find? path = none) :
    tree.find? further = none := by
  by_cases same : path = further
  · rwa [← same]
  · cases found : tree.find? further with
    | none => rfl
    | some node =>
      rw [wellFormed.directory_above above found same] at missing
      contradiction

end WellFormed

def Near (settled : Path → Prop) (home path : Path) : Prop :=
  path <+: home ∨ settled path

/-- Below a place both trees have the same entries; on the way there, one has more directories. Both
have one wherever directories have settled. -/
structure Trails (settled : Path → Prop) (home : Path) (fewer more : Tree) : Prop where
  below : fewer.kept home.isPrefixOf = more.kept home.isPrefixOf
  above : ∀ path, path <+: home → more.find? path = fewer.find? path ∨
    (fewer.find? path = none ∧ more.find? path = some .directory)
  chain : ∀ path further, path <+: further → further <+: home → fewer.find? path = none →
    fewer.find? further = none
  settled : ∀ path, settled path → fewer.find? path = some .directory ∧
    more.find? path = some .directory

section Trails

variable {settled : Path → Prop} {home here path : Path} {fewer more : Tree}

theorem trails_self {tree : Tree} (wellFormed : tree.WellFormed)
    (directories : ∀ path, settled path → tree.find? path = some .directory) (home : Path) :
    Trails settled home tree tree :=
  ⟨rfl, fun _ _ => .inl rfl, fun _ _ above _ missing => wellFormed.none_below above missing,
    fun path there => ⟨directories path there, directories path there⟩⟩

theorem Agree.trails (agree : Agree (Near settled home) home.isPrefixOf fewer more)
    (directories : ∀ path, Near settled home path → fewer.find? path = some .directory) :
    Trails settled home fewer more := by
  refine ⟨agree.own, fun path above => .inl (agree.known path (.inl above)).symm, ?_, ?_⟩
  · intro path further above within missing
    rw [directories path (.inl (above.trans within))] at missing
    contradiction
  · intro path there
    have directory := directories path (.inr there)
    exact ⟨directory, (agree.known path (.inr there)).symm.trans directory⟩

theorem Trails.agree (trails : Trails settled home fewer more)
    (directories : ∀ path, path <+: home → fewer.find? path = some .directory) :
    Agree (Near settled home) home.isPrefixOf fewer more := by
  refine ⟨fun path near => ?_, trails.below⟩
  rcases near with above | there
  · rcases trails.above path above with same | ⟨missing, _⟩
    · exact same.symm
    · rw [directories path above] at missing
      contradiction
  · obtain ⟨one, two⟩ := trails.settled path there
    rw [one, two]

theorem Trails.framed {own way : Path → Prop} {after : Tree}
    (trails : Trails settled home fewer more) (framed : Framed own way more after)
    (ownApart : ∀ path, Near settled home path ∨ home <+: path → ¬ own path)
    (wayApart : ∀ path, home <+: path → ¬ way path) : Trails settled home fewer after := by
  have made := fun path near => framed.made path (ownApart path (.inl near))
  refine ⟨?below, fun path above => ?_, trails.chain, fun path there => ?_⟩
  case below =>
    rw [trails.below]
    refine (framed.spares _ fun path within => ?_).symm
    rw [Bool.eq_false_iff]
    intro inside
    have inside := List.isPrefixOf_iff_prefix.mp inside
    exact within.elim (ownApart path (.inr inside)) (wayApart path inside)
  · rcases made path (.inl above) with same | ⟨missing, there⟩
    · rw [same]
      exact trails.above path above
    · rcases trails.above path above with same | ⟨_, directory⟩
      · exact .inr ⟨same ▸ missing, there⟩
      · rw [directory] at missing
        contradiction
  · obtain ⟨one, two⟩ := trails.settled path there
    rcases made path (.inr there) with same | ⟨_, directory⟩
    · exact ⟨one, same.trans two⟩
    · exact ⟨one, directory⟩

theorem Trails.put (trails : Trails settled home fewer more) {name : String}
    (free : ¬ settled (home ++ [name])) (node : Node) :
    Trails settled home (fewer.put (home ++ [name]) node) (more.put (home ++ [name]) node) := by
  have apart {path : Path} (near : Near settled home path) : path ≠ home ++ [name] := by
    rintro rfl
    exact near.elim (fun above => Path.not_child_above above List.prefix_rfl) free
  refine ⟨by rw [kept_put, kept_put, trails.below], fun path above => ?_, ?_, fun path there => ?_⟩
  · rw [find?_put_of_ne (apart (.inl above)), find?_put_of_ne (apart (.inl above))]
    exact trails.above path above
  · intro path further above within missing
    rw [find?_put_of_ne (apart (.inl (above.trans within)))] at missing
    rw [find?_put_of_ne (apart (.inl within))]
    exact trails.chain path further above within missing
  · rw [find?_put_of_ne (apart (.inr there)), find?_put_of_ne (apart (.inr there))]
    exact trails.settled path there

section Making

variable (trails : Trails settled home fewer more)
  (reached : ∀ above, above <+: path → above ≠ path → fewer.find? above = some .directory)
  (missing : fewer.find? path = none)

include trails reached missing

theorem Trails.put_chain (lower further : Path) (above : lower <+: further) (within : further <+: home)
    (gone : (fewer.put path .directory).find? lower = none) :
    (fewer.put path .directory).find? further = none := by
  have other : lower ≠ path := by
    rintro rfl
    rw [find?_put_of_missing missing] at gone
    contradiction
  rw [find?_put_of_ne other] at gone
  have differ : further ≠ path := by
    rintro rfl
    rw [reached lower above other] at gone
    contradiction
  rw [find?_put_of_ne differ]
  exact trails.chain lower further above within gone

omit reached in
theorem Trails.ne_of_settled {other : Path} (there : settled other) : other ≠ path := by
  rintro rfl
  rw [(trails.settled other there).1] at missing
  contradiction

theorem Trails.put_both (absent : more.find? path = none) :
    Trails settled home (fewer.put path .directory) (more.put path .directory) := by
  refine ⟨by rw [kept_put, kept_put, trails.below], fun other above => ?_,
    trails.put_chain reached missing, fun other there => ?_⟩
  · by_cases here : other = path
    · rw [here, find?_put_of_missing missing, find?_put_of_missing absent]
      exact .inl rfl
    · rw [find?_put_of_ne here, find?_put_of_ne here]
      exact trails.above other above
  · have elsewhere := trails.ne_of_settled missing there
    rw [find?_put_of_ne elsewhere, find?_put_of_ne elsewhere]
    exact trails.settled other there

theorem Trails.put_fewer (there : more.find? path = some .directory) :
    Trails settled home (fewer.put path .directory) more := by
  have outside : ¬ home.isPrefixOf path := by
    intro within
    have same := find?_of_kept trails.below within
    rw [missing, there] at same
    contradiction
  refine ⟨by rw [kept_put, if_neg outside, trails.below], fun other above => ?_,
    trails.put_chain reached missing, fun other standing => ?_⟩
  · by_cases here : other = path
    · rw [here, find?_put_of_missing missing, there]
      exact .inl rfl
    · rw [find?_put_of_ne here]
      exact trails.above other above
  · rw [find?_put_of_ne (trails.ne_of_settled missing standing)]
    exact trails.settled other standing

omit trails in
theorem put_reached {above : Path} (begins : above <+: path) :
    (fewer.put path .directory).find? above = some .directory := by
  by_cases same : above = path
  · rw [same, find?_put_of_missing missing]
  · rw [find?_put_of_ne same, reached above begins same]

theorem Trails.put_no_file (above : path <+: home) (other : Path) (contents : Bytes)
    (within : other <+: home) : (fewer.put path .directory).find? other ≠ some (.file contents) := by
  intro file
  rcases List.prefix_or_prefix_of_prefix within above with begins | further
  · rw [put_reached reached missing begins] at file
    simp at file
  · by_cases same : other = path
    · rw [same, put_reached reached missing List.prefix_rfl] at file
      simp at file
    · rw [find?_put_of_ne same, trails.chain path other further within missing] at file
      simp at file

end Making

structure Caught (settled : Path → Prop) (home : Path) (one two : Tree × Except Store.OsError Unit) :
    Prop where
  answer : one.2 = two.2
  trails : Trails settled home one.1 two.1
  reached : one.2 = .ok () → ∀ path, path <+: home → one.1.find? path = some .directory

theorem Trails.failed (trails : Trails settled home fewer more) (cause : Store.OsError) :
    Caught settled home (fewer, .error cause) (more, .error cause) :=
  ⟨rfl, trails, fun done => by contradiction⟩

theorem Trails.directory_there (trails : Trails settled home fewer more) (near : Near settled home path)
    (found : fewer.find? path = some .directory) : more.find? path = some .directory := by
  rcases near with above | there
  · exact (trails.above path above).elim (fun same => same.trans found) And.right
  · exact (trails.settled path there).2

theorem Trails.file_there (trails : Trails settled home fewer more) (near : Near settled home path)
    {contents : Bytes} (found : fewer.find? path = some (.file contents)) :
    path <+: home ∧ more.find? path = some (.file contents) := by
  have above : path <+: home := near.resolve_right fun there => by
    simp [(trails.settled path there).1] at found
  refine ⟨above, ?_⟩
  rcases trails.above path above with same | ⟨absent, -⟩
  · exact same.trans found
  · simp [found] at absent

theorem directory_before_step {name : String} (moves : Path.stays name = false)
    (reached : ∀ above, above <+: here → fewer.find? above = some .directory) (path : Path)
    (begins : path <+: Path.step here name) (shorter : path ≠ Path.step here name) :
    fewer.find? path = some .directory := by
  by_cases dots : name = ".."
  · rw [dots] at begins
    exact reached path (begins.trans (Path.step_dots here))
  · rw [Path.step_down moves dots] at begins shorter
    exact reached path ((List.prefix_concat_iff.mp begins).resolve_left shorter)

-- Whether a directory was made before only matters where a file is in the way, and then none was.
theorem Trails.makeDirectoriesFrom {names : List String} {made other : Bool}
    (trails : Trails settled home fewer more) (way : names.foldl Path.step here = home)
    (near : ∀ path, WayFrom here names path → Near settled home path)
    (moves : ∀ name ∈ names, Path.stays name = false)
    (reached : ∀ above, above <+: here → fewer.find? above = some .directory)
    (flags : made = other ∨
      ∀ path contents, path <+: home → fewer.find? path ≠ some (.file contents)) :
    Caught settled home (fewer.makeDirectoriesFrom here made names)
      (more.makeDirectoriesFrom here other names) := by
  induction names generalizing fewer more here made other with
  | nil =>
    obtain rfl : here = home := way
    exact ⟨rfl, trails, fun _ => reached⟩
  | cons name rest ih =>
    have later := fun other member => moves other (List.mem_cons_of_mem name member)
    have onward := fun path on => near path (WayFrom.cons on)
    have next : Near settled home (Path.step here name) :=
      near _ ⟨[name], List.cons_prefix_cons.mpr ⟨rfl, List.nil_prefix⟩, rfl⟩
    have before := directory_before_step (moves name List.mem_cons_self) reached
    by_cases long : Path.nameLimit < name.utf8ByteSize
    next =>
      simp only [Tree.makeDirectoriesFrom, if_pos long]
      exact trails.failed _
    next =>
      simp only [Tree.makeDirectoriesFrom, if_neg long]
      cases found : fewer.find? (Path.step here name) with
      | none =>
        have above := next.resolve_right fun there => trails.ne_of_settled found there rfl
        have upTo : ∀ path, path <+: Path.step here name →
            (fewer.put (Path.step here name) .directory).find? path = some .directory :=
          fun path begins => put_reached before found begins
        rcases trails.above _ above with same | ⟨_, directory⟩
        · have absent := same.trans found
          simp only [absent]
          exact ih (trails.put_both before found absent) way onward later upTo (.inl rfl)
        · simp only [directory]
          exact ih (trails.put_fewer before found directory) way onward later upTo
            (.inr (trails.put_no_file before found above))
      | some node =>
        cases node with
        | directory =>
          have directory := trails.directory_there next found
          simp only [directory]
          refine ih trails way onward later (fun path begins => ?_) flags
          by_cases same : path = Path.step here name
          · rw [same, found]
          · exact before path begins same
        | file contents =>
          obtain ⟨above, file⟩ := trails.file_there next found
          obtain rfl := flags.resolve_right fun none => none _ contents above found
          simp only [file]
          exact trails.failed _

theorem Trails.makeDirectories {text : String}
    (near : ∀ path, OnTheWay text path → Near settled (Path.spelled text) path)
    (trails : Trails settled (Path.spelled text) fewer more) :
    Caught settled (Path.spelled text) (fewer.makeDirectories text) (more.makeDirectories text) := by
  unfold Tree.makeDirectories
  cases split : Path.components text with
  | error cause => exact trails.failed _
  | ok names =>
    obtain rfl := Path.components_ok split
    apply trails.makeDirectoriesFrom (Path.foldl_step_filter _ []) near _ _ (.inl rfl)
    · intro name member
      simpa using (List.mem_filter.mp member).2
    · intro path root
      rw [List.prefix_nil.mp root, find?_root]

end Trails

end Tree

end CompactChain
