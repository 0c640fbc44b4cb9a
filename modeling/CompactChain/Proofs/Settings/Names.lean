import CompactChain.Proofs.Bytes.Hex
import CompactChain.Settings.Environment

set_option autoImplicit false

namespace CompactChain

open Hex (toNat_toLower)

namespace Text

theorem isBlank_toLower (c : Char) : isBlank c.toLower = isBlank c := by
  rw [Bool.eq_iff_iff]
  simp only [isBlank, blankRanges, List.any_cons, List.any_nil, Bool.or_false, Bool.or_eq_true,
    Bool.and_eq_true, decide_eq_true_eq, toNat_toLower]
  split <;> omega

theorem trim_map_toLower (text : List Char) : trim (text.map Char.toLower) = (trim text).map Char.toLower := by
  have same : isBlank ∘ Char.toLower = isBlank := funext isBlank_toLower
  rw [trim, List.dropWhile_map, same, ← List.map_reverse, List.dropWhile_map, same, ← List.map_reverse]
  rfl

end Text

namespace Environment

theorem toLower_toLower (c : Char) : c.toLower.toLower = c.toLower := by
  rw [← Char.toNat_inj, toNat_toLower, toNat_toLower]
  split
  · rw [if_neg (by omega)]
  · rfl

theorem toLower_eq_iff {c other : Char} (caseless : other.toNat < 65 ∨ 122 < other.toNat ∨
    90 < other.toNat ∧ other.toNat < 97) : c.toLower = other ↔ c = other := by
  rw [← Char.toNat_inj, ← Char.toNat_inj, toNat_toLower]
  split <;> omega

theorem afterStart?_map_toLower (start name : List Char) :
    afterStart? start (name.map Char.toLower) = (afterStart? start name).map (List.map Char.toLower) := by
  fun_induction afterStart? start name with
  | case1 name => rfl
  | case2 => rfl
  | case3 start c rest ih =>
    rw [List.map_cons, afterStart?, if_pos (toLower_toLower c), ih]
  | case4 s start c rest other =>
    rw [List.map_cons, afterStart?, if_neg fun same => other ((toLower_toLower c).symm.trans same)]
    rfl

theorem parts_map_toLower (part text : List Char) :
    parts (part.map Char.toLower) (text.map Char.toLower) = (parts part text).map (List.map Char.toLower) := by
  fun_induction parts part text with
  | case1 part =>
    rw [List.map_nil, parts, List.map_singleton, List.map_reverse]
  | case2 part rest ih | case3 part rest ih =>
    exact congr (congrArg List.cons List.map_reverse.symm) ih
  | case4 part c rest noBar noDot ih =>
    rw [List.map_cons, parts, ← ih, List.map_cons]
    · intro later here next
      cases rest with
      | nil => contradiction
      | cons d rest =>
        obtain ⟨second, -⟩ := List.cons.inj next
        obtain rfl := (toLower_eq_iff (by decide)).mp second
        exact noBar rest ((toLower_eq_iff (by decide)).mp here) rfl
    · exact fun here => noDot ((toLower_eq_iff (by decide)).mp here)

theorem keyPath?_toLower (name : String) : keyPath? name.toLower = keyPath? name := by
  have empty : List.isEmpty ∘ List.map Char.toLower = List.isEmpty (α := Char) := by
    funext key
    cases key <;> rfl
  have letters : name.toLower.toList = name.toList.map Char.toLower := String.toList_map
  rw [keyPath?, keyPath?, letters, Text.trim_map_toLower, afterStart?_map_toLower]
  cases afterStart? nameStart (Text.trim name.toList) with
  | none => rfl
  | some rest =>
    have lowered := parts_map_toLower [] (Text.trim rest)
    rw [List.map_nil] at lowered
    dsimp only [Option.map_some]
    rw [Text.trim_map_toLower, lowered, List.any_map, empty]
    split
    · rfl
    · rw [List.map_map]
      simp only [Function.comp_def, List.map_map, toLower_toLower]

theorem parts_ne_nil (part text : List Char) : parts part text ≠ [] := by
  fun_induction parts part text <;> simp_all

theorem keyPath?_ne_nil {name : String} {keys : List String} (read : keyPath? name = some keys) :
    keys ≠ [] := by
  unfold keyPath? at read
  split at read
  · contradiction
  next rest _ =>
    dsimp only at read
    split at read
    · contradiction
    · obtain rfl := Option.some.inj read
      simpa using parts_ne_nil [] (Text.trim rest)

end Environment

end CompactChain
