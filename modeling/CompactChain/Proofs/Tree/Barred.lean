import CompactChain.Proofs.Tree.Agreement

set_option autoImplicit false

namespace CompactChain

open Store (OsError)

namespace Tree

def FileAt (tree : Tree) (path : Path) : Prop :=
  ∃ contents, tree.find? path = some (.file contents)

-- A file in the way is met by looking for what follows it, or by making a directory in its place.
def Obstacle (cause : OsError) : Prop :=
  cause = .alreadyExists ∨ cause = .notADirectory

inductive Barred : Except OsError Unit → Except OsError Unit → Prop
  | same (answer : Except OsError Unit) : Barred answer answer
  | file {one two : OsError} (first : Obstacle one) (second : Obstacle two) :
      Barred (.error one) (.error two)

section Making

variable {tree first second : Tree} {here path : Path} {names : List String} {name : String}
  {made other : Bool}

theorem fileAt_put_directory (missing : tree.find? path = none) (place : Path) :
    (tree.put path .directory).FileAt place ↔ tree.FileAt place := by
  unfold FileAt
  by_cases same : place = path
  · rw [same, find?_put_of_missing missing, missing]
    simp
  · rw [find?_put_of_ne same]

theorem makeDirectoriesFrom_step (fits : ¬ Path.nameLimit < name.utf8ByteSize)
    (free : ¬ tree.FileAt (Path.step here name)) : ∃ (next : Tree) (flag : Bool),
      tree.makeDirectoriesFrom here made (name :: names) =
        next.makeDirectoriesFrom (Path.step here name) flag names ∧
      next.find? (Path.step here name) = some .directory ∧
      ∀ place, next.FileAt place ↔ tree.FileAt place := by
  rw [makeDirectoriesFrom, if_neg fits]
  simp only
  split
  next directory => exact ⟨tree, made, rfl, directory, fun _ => Iff.rfl⟩
  next contents file => exact absurd ⟨contents, file⟩ free
  next missing =>
    exact ⟨_, true, rfl, find?_put_of_missing missing, fileAt_put_directory missing⟩

theorem makeDirectoriesFrom_file (fits : ¬ Path.nameLimit < name.utf8ByteSize)
    (file : tree.FileAt (Path.step here name)) : ∃ cause, Obstacle cause ∧
      (tree.makeDirectoriesFrom here made (name :: names)).2 = .error cause := by
  obtain ⟨contents, found⟩ := file
  simp only [makeDirectoriesFrom, if_neg fits, found]
  split
  · exact ⟨_, .inl rfl, rfl⟩
  · exact ⟨_, .inr rfl, rfl⟩

theorem makeDirectoriesFrom_barred
    (files : ∀ path, WayFrom here names path → (first.FileAt path ↔ second.FileAt path)) :
    Barred (first.makeDirectoriesFrom here made names).2
      (second.makeDirectoriesFrom here other names).2 := by
  induction names generalizing first second here made other with
  | nil => exact .same _
  | cons name rest ih =>
    have next := files _ (WayFrom.cons ⟨[], List.nil_prefix, rfl⟩)
    by_cases long : Path.nameLimit < name.utf8ByteSize
    next =>
      simp only [makeDirectoriesFrom, if_pos long]
      exact .same _
    by_cases file : first.FileAt (Path.step here name)
    next =>
      obtain ⟨one, obstacle, failed⟩ := makeDirectoriesFrom_file long file
      obtain ⟨two, another, failedToo⟩ := makeDirectoriesFrom_file long (next.mp file)
      rw [failed, failedToo]
      exact .file obstacle another
    next =>
      obtain ⟨one, _, firstStep, -, sameFirst⟩ := makeDirectoriesFrom_step long file
      obtain ⟨two, _, secondStep, -, sameSecond⟩ := makeDirectoriesFrom_step long (mt next.mpr file)
      rw [firstStep, secondStep]
      refine ih fun path on => ?_
      rw [sameFirst, sameSecond]
      exact files path on.cons

theorem keepsDirectories_makeDirectoriesFrom (tree : Tree) (here : Path) (made : Bool)
    (names : List String) : tree.KeepsDirectories (tree.makeDirectoriesFrom here made names).1 := by
  have framed : Framed (fun _ => False) _ tree (tree.makeDirectoriesFrom here made names).1 :=
    makeDirectoriesFrom_framed tree here made names
  intro path found
  rcases framed.made path id with same | ⟨missing, -⟩
  · rw [same, found]
  · rw [found] at missing
    contradiction

theorem makeDirectoriesFrom_done (start : tree.find? here = some .directory)
    (done : (tree.makeDirectoriesFrom here made names).2 = .ok ()) (on : WayFrom here names path) :
    (tree.makeDirectoriesFrom here made names).1.find? path = some .directory := by
  induction names generalizing tree here made with
  | nil =>
    obtain ⟨front, begins, rfl⟩ := on
    rwa [List.prefix_nil.mp begins]
  | cons name rest ih =>
    obtain ⟨front, begins, rfl⟩ := on
    cases front with
    | nil => exact keepsDirectories_makeDirectoriesFrom tree here made _ _ start
    | cons head front =>
      obtain ⟨rfl, later⟩ := List.cons_prefix_cons.mp begins
      by_cases long : Path.nameLimit < head.utf8ByteSize
      next =>
        simp only [makeDirectoriesFrom, if_pos long] at done
        contradiction
      by_cases file : tree.FileAt (Path.step here head)
      next =>
        obtain ⟨cause, -, failed⟩ := makeDirectoriesFrom_file long file
        rw [failed] at done
        contradiction
      next =>
        obtain ⟨next, _, stepped, directory, -⟩ := makeDirectoriesFrom_step long file
        rw [stepped] at done ⊢
        exact ih directory done ⟨front, later, rfl⟩

end Making

section Shares

variable {way : Path → Prop} {own : Path → Bool} {first second after : Tree} {text : String}

theorem makeDirectories_barred
    (files : ∀ path, OnTheWay text path → (first.FileAt path ↔ second.FileAt path)) :
    Barred (first.makeDirectories text).2 (second.makeDirectories text).2 := by
  unfold makeDirectories
  cases split : Path.components text with
  | error cause => exact .same _
  | ok names =>
    obtain rfl := Path.components_ok split
    exact makeDirectoriesFrom_barred files

theorem makeDirectories_done (tree : Tree) (text : String)
    (done : (tree.makeDirectories text).2 = .ok ()) (path : Path) (on : OnTheWay text path) :
    (tree.makeDirectories text).1.find? path = some .directory := by
  unfold makeDirectories at done ⊢
  cases split : Path.components text with
  | error cause =>
    rw [split] at done
    contradiction
  | ok names =>
    obtain rfl := Path.components_ok split
    rw [split] at done
    exact makeDirectoriesFrom_done (find?_root tree) done on

structure Shares (way : Path → Prop) (own : Path → Bool) (first second : Tree) : Prop where
  own : first.kept own = second.kept own
  files : ∀ path, way path → (first.FileAt path ↔ second.FileAt path)

theorem Shares.symm (shares : Shares way own first second) : Shares way own second first :=
  ⟨shares.own.symm, fun path on => (shares.files path on).symm⟩

theorem Agree.shares (agree : Agree way own first second) : Shares way own first second := by
  refine ⟨agree.own, fun path on => ?_⟩
  rw [FileAt, FileAt, agree.known path on]

theorem Shares.agree (shares : Shares way own first second)
    (directories : ∀ path, way path → first.find? path = some .directory ∧
      second.find? path = some .directory) : Agree way own first second := by
  refine ⟨fun path on => ?_, shares.own⟩
  rw [(directories path on).1, (directories path on).2]

theorem Shares.framed {region made : Path → Prop} (shares : Shares way own first second)
    (framed : Framed region made second after)
    (apart : ∀ path, region path ∨ made path → own path = false)
    (off : ∀ path, way path → ¬ region path) : Shares way own first after := by
  refine ⟨shares.own.trans (framed.spares own apart).symm, fun path on => ?_⟩
  rw [shares.files path on, FileAt, FileAt]
  rcases framed.made path (off path on) with same | ⟨missing, there⟩
  · rw [same]
  · simp [missing, there]

theorem Shares.put {place : Path} (shares : Shares way own first second) (within : own place)
    (off : ∀ path, way path → own path = false) (node : Node) :
    Shares way own (first.put place node) (second.put place node) := by
  refine ⟨by rw [kept_put, kept_put, shares.own], fun path on => ?_⟩
  have elsewhere : path ≠ place := by
    rintro rfl
    simp [off path on] at within
  rw [FileAt, FileAt, find?_put_of_ne elsewhere, find?_put_of_ne elsewhere]
  exact shares.files path on

theorem Shares.makeDirectories (shares : Shares (OnTheWay text) own first second)
    (apart : ∀ path, OnTheWay text path → own path = false) :
    Shares (OnTheWay text) own (first.makeDirectories text).1 (second.makeDirectories text).1 := by
  have made (tree : Tree) :
      Framed (fun _ => False) (OnTheWay text) tree (tree.makeDirectories text).1 :=
    (makeDirectories_framed tree text).mono (fun _ => id) fun _ => And.left
  have outside (path : Path) (within : False ∨ OnTheWay text path) := apart path (within.resolve_left id)
  exact ((shares.framed (made second) outside fun _ _ => id).symm.framed (made first) outside
    fun _ _ => id).symm

end Shares

end Tree

end CompactChain
