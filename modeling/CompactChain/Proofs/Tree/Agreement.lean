import CompactChain.Proofs.Tree.Frame

set_option autoImplicit false

namespace CompactChain

open Store (OsError)

inductive Alike {α : Type} (related : α → α → Prop) : Except OsError α → Except OsError α → Prop
  | error (cause : OsError) : Alike related (.error cause) (.error cause)
  | ok {first second : α} (both : related first second) : Alike related (.ok first) (.ok second)

namespace Tree

structure Agree (known : Path → Prop) (own : Path → Bool) (first second : Tree) : Prop where
  known : ∀ path, known path → first.find? path = second.find? path
  own : first.kept own = second.kept own

structure Leads (known : Path → Prop) (own : Path → Bool) (text : String) : Prop where
  own : own (Path.spelled text)
  way : ∀ front, front <+: Path.componentsAfter [] text.toList →
    front ≠ Path.componentsAfter [] text.toList → known (front.foldl Path.step [])

theorem closed_isPrefixOf (home : Path) : Closed fun path => home.isPrefixOf path := by
  intro path below within further
  simp only [List.isPrefixOf_iff_prefix] at within ⊢
  exact within.trans further

section Agree

variable {known : Path → Prop} {own : Path → Bool} {first second : Tree} {path : Path}

theorem Agree.find?_eq (agree : Agree known own first second) (within : own path) :
    first.find? path = second.find? path :=
  find?_of_kept agree.own within

theorem Agree.after {firstAfter secondAfter : Tree} (agree : Agree known own first second)
    (one : Spares (own ·) first firstAfter) (two : Spares (own ·) second secondAfter)
    (same : firstAfter.kept own = secondAfter.kept own) : Agree known own firstAfter secondAfter := by
  refine ⟨fun path near => ?_, same⟩
  by_cases inside : own path
  · exact find?_of_kept same inside
  · rw [one.find?_eq inside, two.find?_eq inside, agree.known path near]

section Changes

variable (agree : Agree known own first second) (within : own path)

include agree within

theorem Agree.put (node : Node) : Agree known own (first.put path node) (second.put path node) := by
  apply agree.after (spares_put node within) (spares_put node within)
  rw [kept_put, kept_put, agree.own]

variable (closed : Closed (own ·))

include closed

theorem Agree.remove : Agree known own (first.remove path) (second.remove path) := by
  apply agree.after (spares_remove closed within) (spares_remove closed within)
  rw [kept_remove, kept_remove, agree.own]

theorem Agree.removeBelow : Agree known own (first.removeBelow path) (second.removeBelow path) := by
  apply agree.after (spares_removeBelow closed within) (spares_removeBelow closed within)
  rw [kept_removeBelow, kept_removeBelow, agree.own]

theorem Agree.move {new : Path} (arrives : own new) :
    Agree known own (first.move path new) (second.move path new) := by
  have along (rest : Path) : own (new ++ rest) = own (path ++ rest) := by
    rw [closed new _ arrives (List.prefix_append _ _), closed path _ within (List.prefix_append _ _)]
  apply agree.after (spares_move closed within arrives) (spares_move closed within arrives)
  rw [kept_move along, kept_move along, agree.own]

end Changes

theorem follow_congr {here : Path} {names : List String}
    (same : ∀ front, front <+: names → front ≠ names →
      first.find? (front.foldl Path.step here) = second.find? (front.foldl Path.step here)) :
    first.follow here names = second.follow here names := by
  induction names generalizing here with
  | nil => rfl
  | cons name rest ih =>
    have start := same [] List.nil_prefix (by simp)
    have later := ih fun front begins shorter =>
      same (name :: front) (List.cons_prefix_cons.mpr ⟨rfl, begins⟩) (by simpa using shorter)
    simp only [List.foldl_nil] at start
    rw [follow, follow, start, later]

theorem locate_congr {text : String} (leads : Leads known own text)
    (same : ∀ path, known path → first.find? path = second.find? path) :
    first.locate text = second.locate text := by
  unfold locate
  cases split : Path.components text with
  | error cause => rfl
  | ok names =>
    obtain rfl := Path.components_ok split
    exact follow_congr fun front begins shorter => same _ (leads.way front begins shorter)

section Requests

variable {text other : String} (agree : Agree known own first second) (leads : Leads known own text)
  (target : Leads known own other)

include agree leads

theorem Agree.locate_eq : first.locate text = second.locate text :=
  locate_congr leads agree.known

theorem Agree.nodeAt?_eq : first.nodeAt? text = second.nodeAt? text := by
  unfold nodeAt?
  rw [agree.locate_eq leads]
  split
  next path located => rw [Tree.locate_eq located, agree.find?_eq leads.own]
  · rfl

theorem Agree.openFile :
    Alike (fun one two => Agree known own one.1 two.1 ∧ one.2 = Path.spelled text ∧
      two.2 = Path.spelled text) (first.openFile text) (second.openFile text) := by
  unfold Tree.openFile
  rw [agree.locate_eq leads]
  cases located : second.locate text with
  | error cause => exact .error cause
  | ok path =>
    obtain rfl := Tree.locate_eq located
    simp only [bind, Except.bind, agree.find?_eq leads.own]
    cases second.find? (Path.spelled text) with
    | none => exact .ok ⟨agree.put leads.own (.file []), rfl, rfl⟩
    | some node =>
      cases node with
      | directory => exact .error _
      | file contents => exact .ok ⟨agree, rfl, rfl⟩

theorem Agree.removeAll (closed : Closed (own ·)) :
    Alike (Agree known own) (first.removeAll text) (second.removeAll text) := by
  unfold Tree.removeAll
  rw [agree.locate_eq leads]
  cases located : second.locate text with
  | error cause => exact .error cause
  | ok path =>
    obtain rfl := Tree.locate_eq located
    simp only [bind, Except.bind, agree.find?_eq leads.own]
    cases second.find? (Path.spelled text) with
    | none => exact .error _
    | some node =>
      have emptied := agree.removeBelow leads.own closed
      simp only [emptied.locate_eq leads]
      cases (second.removeBelow (Path.spelled text)).locate text with
      | error cause => exact .ok emptied
      | ok again => exact .ok (emptied.remove leads.own closed)

include target

theorem Agree.rename (closed : Closed (own ·)) :
    Alike (Agree known own) (first.rename text other) (second.rename text other) := by
  unfold Tree.rename
  rw [agree.locate_eq leads, agree.locate_eq target]
  cases located : second.locate text with
  | error cause => exact .error cause
  | ok path =>
    cases led : second.locate other with
    | error cause => exact .error cause
    | ok new =>
      obtain rfl := Tree.locate_eq located
      obtain rfl := Tree.locate_eq led
      simp only [bind, Except.bind, agree.find?_eq leads.own]
      cases second.find? (Path.spelled text) with
      | none => exact .error _
      | some node => exact .ok (agree.move leads.own closed target.own)

theorem Agree.copyFile :
    Alike (Agree known own) (first.copyFile text other) (second.copyFile text other) := by
  unfold Tree.copyFile
  rw [agree.locate_eq leads]
  cases located : second.locate text with
  | error cause => exact .error cause
  | ok path =>
    obtain rfl := Tree.locate_eq located
    simp only [bind, Except.bind, agree.find?_eq leads.own]
    cases second.find? (Path.spelled text) with
    | none => exact .error _
    | some node =>
      cases node with
      | directory => exact .error _
      | file contents =>
        have opened := agree.openFile target
        generalize first.openFile other = one, second.openFile other = two at opened
        cases opened with
        | error cause => exact .error cause
        | ok both =>
          obtain ⟨middle, here, there⟩ := both
          simp only [here, there]
          exact .ok (middle.put target.own _)

end Requests

end Agree

end Tree

end CompactChain
