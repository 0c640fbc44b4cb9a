import CompactChain.Proofs.Cache.Agreement
import CompactChain.Proofs.Tree.Barred

set_option autoImplicit false

namespace CompactChain

open Store (Error FileName Files Medium)
open CompactChain.Tree (Obstacle OnTheWay Shares)

namespace Cache

instance (home : Path) : DecidablePred (Owned home) := fun path =>
  inferInstanceAs (Decidable (∃ name ∈ ["blocks", "index", "blocks-corrupted", "index-corrupted"],
    home ++ [name] <+: path))

def owns (home path : Path) : Bool :=
  decide (Owned home path)

theorem owns_iff {home path : Path} : owns home path ↔ Owned home path :=
  decide_eq_true_iff

theorem closed_owns (home : Path) : Tree.Closed (owns home ·) := by
  intro path below within further
  rw [owns_iff] at within ⊢
  exact closed_owned home path below within further

theorem Apart.owns_eq_false {settings : Settings} (apart : Apart settings) (path : Path)
    (on : OnTheWay settings.directory path) : owns settings.home path = false :=
  decide_eq_false (apart path on)

theorem store_shares {settings : Settings} {first second : Tree} (apart : Apart settings)
    (shares : Shares (OnTheWay settings.directory) (owns settings.home) first second) (files : Files) :
    Shares (OnTheWay settings.directory) (owns settings.home)
      ((handlesAt settings).store first files).1 ((handlesAt settings).store second files).1 := by
  have within (name : FileName) : owns settings.home (place settings name) :=
    owns_iff.mpr (owned_place settings name)
  exact (shares.put (within .blocks) apart.owns_eq_false _).put (within .index) apart.owns_eq_false _

def Akin {α : Type} (one two : Except Error α) : Prop :=
  one = two ∨ ∃ first second, Obstacle first ∧ Obstacle second ∧
    one = .error (.os first) ∧ two = .error (.os second)

theorem Akin.toOption_eq {α : Type} {one two : Except Error α} (akin : Akin one two) :
    one.toOption = two.toOption := by
  obtain rfl | ⟨first, second, _, _, rfl, rfl⟩ := akin
  · rfl
  · rfl

theorem Akin.map {α β : Type} {one two : Except Error α} (akin : Akin one two) (f : α → β) :
    Akin (one.map f) (two.map f) := by
  obtain rfl | ⟨first, second, obstacle, another, rfl, rfl⟩ := akin
  · exact .inl rfl
  · exact .inr ⟨first, second, obstacle, another, rfl, rfl⟩

structure Nearly (related : Tree → Tree → Prop) (one two : Opened) : Prop where
  trees : related one.tree two.tree
  answer : Akin one.answer two.answer
  warnings : one.warnings = two.warnings

theorem openIn_nearly {first second : Tree} (settings : Settings) (apart : Apart settings)
    (shares : Shares (OnTheWay settings.directory) (owns settings.home) first second) (medium : Medium) :
    Nearly (Shares (OnTheWay settings.directory) (owns settings.home)) (openIn medium first settings)
      (openIn medium second settings) ∧ found? first settings = found? second settings := by
  have within (path : Path) (owned : Owned settings.home path) := owns_iff.mpr owned
  have trees := shares.makeDirectories apart.owns_eq_false
  have barred := Tree.makeDirectories_barred shares.files
  have firstDone := Tree.makeDirectories_done first settings.directory
  have secondDone := Tree.makeDirectories_done second settings.directory
  unfold openIn found?
  cases settings.check with
  | error cause => exact ⟨⟨shares, .inl rfl, rfl⟩, rfl⟩
  | ok =>
    simp only
    rcases one : first.makeDirectories settings.directory with ⟨firstMade, answer⟩
    rcases two : second.makeDirectories settings.directory with ⟨secondMade, another⟩
    rw [one, two] at trees barred
    rw [one] at firstDone
    rw [two] at secondDone
    cases barred with
    | file obstacle obstacleToo => exact ⟨⟨trees, .inr ⟨_, _, obstacle, obstacleToo, rfl, rfl⟩, rfl⟩, rfl⟩
    | same answer =>
      cases answer with
      | error cause => exact ⟨⟨trees, .inl rfl, rfl⟩, rfl⟩
      | ok =>
        have agree := trees.agree fun path on => ⟨firstDone rfl path on, secondDone rfl path on⟩
        have opened := openThere_likewise (fun _ on => on) within (closed_owns _) agree medium
        exact ⟨⟨opened.trees.shares, .inl opened.answer, opened.warnings⟩,
          foundThere?_eq (fun _ on => on) within (closed_owns _) agree⟩

end Cache

end CompactChain
