import CompactChain.Settings.Value
import Mathlib.Data.List.Nodup

set_option autoImplicit false

namespace CompactChain.Value

inductive Distinct : Value → Prop
  | plain {value : Value} (plain : ∀ entries, value ≠ .table entries) : Distinct value
  | table {entries : Entries} (keys : (entries.map Prod.fst).Nodup)
      (each : ∀ entry ∈ entries, Distinct entry.2) : Distinct (.table entries)

theorem distinct_empty : Distinct (.table []) :=
  .table List.nodup_nil nofun

theorem Distinct.entries {entries : Entries} (distinct : Distinct (.table entries)) :
    (entries.map Prod.fst).Nodup ∧ ∀ entry ∈ entries, Distinct entry.2 := by
  cases distinct with
  | plain plain => exact absurd rfl (plain entries)
  | table keys each => exact ⟨keys, each⟩

def Scanner.FindsDistinct (scanner : Scanner) : Prop :=
  ∀ text found rest, scanner text = some (found, rest) → found.Distinct

theorem Distinct.of_found {value found : Value} {left rest : List Char}
    (same : some (value, left) = some (found, rest)) (distinct : value.Distinct) : found.Distinct :=
  (Prod.mk.inj (Option.some.inj same)).1 ▸ distinct

theorem lookup_cons (key first : String) (value : Value) (rest : Entries) :
    List.lookup key ((first, value) :: rest) = if key = first then some value else rest.lookup key := by
  rw [List.lookup_cons]
  by_cases same : key = first
  · simp [same]
  · rw [beq_eq_false_iff_ne.mpr same, if_neg same]

theorem lookup_put (key other : String) (value : Value) (entries : Entries) :
    (put key value entries).lookup other = if other = key then some value else entries.lookup other := by
  induction entries with
  | nil => rw [put, lookup_cons]
  | cons entry rest ih =>
    obtain ⟨first, old⟩ := entry
    rw [put]
    by_cases here : first = key
    · rw [if_pos here, lookup_cons, lookup_cons, here]
      split <;> rfl
    · rw [if_neg here, lookup_cons, lookup_cons, ih]
      by_cases there : other = first
      · rw [if_pos there, if_neg (there ▸ here), if_pos there]
      · rw [if_neg there, if_neg there]

theorem keys_put (key : String) (value : Value) (entries : Entries) :
    (put key value entries).map Prod.fst =
      if key ∈ entries.map Prod.fst then entries.map Prod.fst else entries.map Prod.fst ++ [key] := by
  induction entries with
  | nil => simp [put]
  | cons entry rest ih =>
    obtain ⟨first, old⟩ := entry
    by_cases here : first = key
    · simp [put, here]
    · have other : key ≠ first := fun same => here same.symm
      rw [put, if_neg here, List.map_cons, ih]
      by_cases later : key ∈ rest.map Prod.fst <;> simp [later, other]

theorem nodup_put {entries : Entries} (keys : (entries.map Prod.fst).Nodup) (key : String) (value : Value) :
    ((put key value entries).map Prod.fst).Nodup := by
  rw [keys_put]
  split
  next => exact keys
  next new => exact List.nodup_append.mpr ⟨keys, List.nodup_singleton key, by grind⟩

theorem mem_of_mem_put {key : String} {value : Value} {entries : Entries} {entry : String × Value}
    (member : entry ∈ put key value entries) : entry = (key, value) ∨ entry ∈ entries := by
  induction entries with
  | nil => exact .inl (List.mem_singleton.mp member)
  | cons first rest ih =>
    rw [put] at member
    split at member
    · grind
    · grind

theorem Distinct.put {entries : Entries} (distinct : Distinct (.table entries)) (key : String)
    {value : Value} (new : value.Distinct) : Distinct (.table (put key value entries)) := by
  obtain ⟨keys, each⟩ := distinct.entries
  refine .table (nodup_put keys key value) fun entry member => ?_
  rcases mem_of_mem_put member with rfl | old
  · exact new
  · exact each entry old

theorem lookup_mergeEntries {below above : Entries} (keys : (above.map Prod.fst).Nodup) (key : String) :
    (mergeEntries below above).lookup key = Option.merge merge (below.lookup key) (above.lookup key) := by
  induction above generalizing below with
  | nil => simp [mergeEntries]
  | cons entry rest ih =>
    obtain ⟨first, value⟩ := entry
    rw [List.map_cons, List.nodup_cons] at keys
    rw [mergeEntries, ih keys.2, lookup_put, lookup_cons]
    by_cases same : key = first
    · subst same
      have alone : rest.lookup key = none := by
        rw [List.lookup_eq_none_iff]
        intro entry member
        have : entry.1 ≠ key := fun same => keys.1 (List.mem_map.mpr ⟨entry, member, same⟩)
        simpa using fun same => this same.symm
      cases below.lookup key <;> simp [alone]
    · simp [same]

theorem nodup_mergeEntries {below : Entries} (keys : (below.map Prod.fst).Nodup) (above : Entries) :
    ((mergeEntries below above).map Prod.fst).Nodup := by
  induction above generalizing below with
  | nil => exact keys
  | cons entry rest ih => exact ih (nodup_put keys _ _)

theorem merge_of_plain {below : Value} (plain : ∀ entries, below ≠ .table entries) (above : Value) :
    below.merge above = above := by
  unfold merge
  split
  next entries _ => exact absurd rfl (plain entries)
  · rfl

theorem merge_eq_of_plain {below above : Value} (plain : ∀ entries, below.merge above ≠ .table entries) :
    below.merge above = above := by
  unfold merge at plain ⊢
  split
  · exact absurd rfl (plain _)
  · rfl

theorem find?_cons (entries : Entries) (key : String) (rest : List String) :
    (table entries).find? (key :: rest) = (entries.lookup key).bind fun value => value.find? rest := by
  rw [find?]
  cases entries.lookup key <;> rfl

theorem find?_of_plain {value : Value} (plain : ∀ entries, value ≠ .table entries) (key : String)
    (rest : List String) : value.find? (key :: rest) = none := by
  cases value with
  | table entries => exact absurd rfl (plain entries)
  | _ => rfl

def Open : (path : List String) → Value → Prop
  | [], _ => True
  | key :: rest, value => ∃ entries, value = .table entries ∧ (entries.map Prod.fst).Nodup ∧
    ∀ inner, entries.lookup key = some inner → Open rest inner

variable {path : List String}

theorem open_empty : Open path (.table []) := by
  cases path with
  | nil => trivial
  | cons key rest => exact ⟨[], rfl, List.nodup_nil, nofun⟩

theorem Distinct.isOpen {value : Value} (distinct : value.Distinct)
    (tables : ∀ before after, path = before ++ after → after ≠ [] → ∀ found,
      value.find? before = some found → ∃ entries, found = .table entries) : Open path value := by
  induction path generalizing value with
  | nil => trivial
  | cons key rest ih =>
    obtain ⟨entries, rfl⟩ := tables [] _ rfl (List.cons_ne_nil _ _) value (by rw [find?])
    obtain ⟨keys, each⟩ := distinct.entries
    refine ⟨entries, rfl, keys, fun inner there => ih ?_ fun before after split some found seen => ?_⟩
    next =>
      obtain ⟨front, back, rfl, -⟩ := List.lookup_eq_some_iff.mp there
      exact each (key, inner) (by simp)
    next =>
      refine tables (key :: before) after (by rw [split, List.cons_append]) some found ?_
      rw [find?_cons, there]
      exact seen

theorem find?_merge {below above : Value} (opens : Open path above) :
    (below.merge above).find? path = Option.merge merge (below.find? path) (above.find? path) := by
  induction path generalizing below above with
  | nil => simp [find?]
  | cons key rest ih =>
    obtain ⟨entries, rfl, keys, there⟩ := opens
    by_cases plain : ∀ others, below ≠ .table others
    next =>
      rw [merge_of_plain plain, find?_of_plain plain, Option.merge_none_left]
    next =>
      obtain ⟨others, same⟩ := not_forall.mp plain
      obtain rfl := not_not.mp same
      rw [merge, find?_cons, find?_cons, find?_cons, lookup_mergeEntries keys]
      cases found : entries.lookup key with
      | none => simp
      | some inner =>
        cases others.lookup key with
        | none => simp
        | some old => exact ih (there inner found)

theorem Open.merge {below above : Value} (first : Open path below) (second : Open path above) :
    Open path (below.merge above) := by
  induction path generalizing below above with
  | nil => trivial
  | cons key rest ih =>
    obtain ⟨others, rfl, distinct, inside⟩ := first
    obtain ⟨entries, rfl, keys, there⟩ := second
    refine ⟨_, rfl, nodup_mergeEntries distinct entries, fun inner found => ?_⟩
    rw [lookup_mergeEntries keys] at found
    cases above : entries.lookup key with
    | none =>
      rw [above, Option.merge_none_right] at found
      exact inside inner found
    | some new =>
      cases below : others.lookup key with
      | none =>
        rw [above, below, Option.merge_none_left] at found
        exact there inner (above.trans found)
      | some old =>
        rw [above, below, Option.merge_some_some] at found
        obtain rfl := Option.some.inj found
        exact ih (inside old below) (there new above)

theorem Open.foldl_merge {sources : List Value} (opens : ∀ source ∈ sources, Open path source)
    {below : Value} (first : Open path below) : Open path (sources.foldl Value.merge below) := by
  induction sources generalizing below with
  | nil => exact first
  | cons source rest ih =>
    exact ih (fun other member => opens other (List.mem_cons_of_mem source member))
      (first.merge (opens source List.mem_cons_self))

theorem or_eq_merge {below above : Option Value}
    (plain : ∀ value, Option.merge merge below above = some value → ∀ entries, value ≠ .table entries) :
    above.or below = Option.merge merge below above := by
  cases above with
  | none => rw [Option.merge_none_right, Option.none_or]
  | some upper =>
    cases below with
    | none => rfl
    | some lower => exact congrArg some (merge_eq_of_plain (plain _ rfl)).symm

theorem getLast?_eq_find?_foldl_merge {sources : List Value} (opens : ∀ source ∈ sources, Open path source)
    {below : Value} (plain : ∀ value, (sources.foldl Value.merge below).find? path = some value →
      ∀ entries, value ≠ .table entries) :
    (sources.filterMap fun source => source.find? path).getLast?.or (below.find? path) =
      (sources.foldl Value.merge below).find? path := by
  induction sources generalizing below with
  | nil => rfl
  | cons source rest ih =>
    have last := ih (fun other member => opens other (List.mem_cons_of_mem source member)) plain
    rw [List.foldl_cons] at plain ⊢
    rw [← last] at plain ⊢
    rw [List.filterMap_cons]
    cases later : (rest.filterMap fun source => source.find? path).getLast? with
    | some value =>
      cases source.find? path with
      | none => rw [later, Option.some_or]; rfl
      | some first => rw [List.getLast?_cons, later]; rfl
    | none =>
      rw [later, Option.none_or, find?_merge (opens source List.mem_cons_self)] at plain
      rw [Option.none_or, find?_merge (opens source List.mem_cons_self), ← or_eq_merge plain]
      cases source.find? path with
      | none => rw [later]
      | some first => rw [List.getLast?_cons, later]; rfl

end CompactChain.Value
