import CompactChain.Proofs.Settings.Merging
import CompactChain.Settings.Load

set_option autoImplicit false

namespace CompactChain.Settings

inductive Leaf where
  | network
  | startHeight
  | syncFrom
  | capacity
  | path

def Leaf.keys : Leaf → List String
  | .network => ["network"]
  | .startHeight => ["start_height"]
  | .syncFrom => ["sync_from_height"]
  | .capacity => ["storage", "cache", "capacity"]
  | .path => ["storage", "database", "path"]

def valueAt (settings : Settings) : Leaf → Value
  | .network => .text settings.network.tag
  | .startHeight => .integer settings.startHeight
  | .syncFrom => naturalOrNothing settings.syncFrom
  | .capacity => naturalOrNothing settings.capacity
  | .path => .text settings.path

def tablePaths : List (List String) :=
  [["storage"], ["storage", "cache"], ["storage", "database"]]

theorem mem_tablePaths_of_split {leaf : Leaf} {before after : List String}
    (split : leaf.keys = before ++ after) (some : after ≠ []) : before = [] ∨ before ∈ tablePaths := by
  rcases before with _ | ⟨first, _ | ⟨second, _ | ⟨third, before⟩⟩⟩ <;> cases leaf <;>
    simp_all [Leaf.keys, tablePaths]

theorem find?_toValue (settings : Settings) (leaf : Leaf) :
    settings.toValue.find? leaf.keys = some (settings.valueAt leaf) := by
  cases leaf <;> rfl

theorem naturalOrNothing_plain (number : Option Nat) (entries : Value.Entries) :
    naturalOrNothing number ≠ .table entries := by
  cases number <;> exact nofun

theorem valueAt_plain (settings : Settings) (leaf : Leaf) (entries : Value.Entries) :
    settings.valueAt leaf ≠ .table entries := by
  cases leaf with
  | network | startHeight | path => exact nofun
  | syncFrom | capacity => exact naturalOrNothing_plain _ entries

theorem eq_of_natural? {value : Value} {number : Nat} (read : natural? value = some number) :
    value = .integer number := by
  unfold natural? at read
  split at read
  next n =>
    split at read
    next known =>
      obtain rfl := Option.some.inj read
      rw [Int.toNat_of_nonneg known]
    next => contradiction
  next => contradiction

theorem eq_of_naturalOrNothing? {value : Value} {number : Option Nat}
    (read : naturalOrNothing? value = some number) : value = naturalOrNothing number := by
  unfold naturalOrNothing? at read
  split at read
  next =>
    obtain rfl := Option.some.inj read
    rfl
  next =>
    obtain ⟨n, there, rfl⟩ := Option.map_eq_some_iff.mp read
    exact eq_of_natural? there

theorem eq_of_text? {value : Value} {text : String} (read : text? value = some text) :
    value = .text text := by
  unfold text? at read
  split at read
  next =>
    obtain rfl := Option.some.inj read
    rfl
  next => contradiction

theorem eq_of_network? {value : Value} {network : Network} (read : network? value = some network) :
    value = .text network.tag := by
  unfold network? at read
  split at read
  all_goals first
    | contradiction
    | obtain rfl := Option.some.inj read
      rfl

theorem read_of_field? {α : Type} {entries : Value.Entries} {key : String} {missing answer : α}
    {read : Value → Option α} {value : Value} (there : entries.lookup key = some value)
    (answered : field? entries key missing read = some answer) : read value = some answer := by
  unfold field? at answered
  rwa [there] at answered

theorem entries_of_find? {value : Value} {key : String} {rest : List String} {found : Value}
    (there : value.find? (key :: rest) = some found) :
    ∃ entries inner, value = .table entries ∧ entries.lookup key = some inner ∧
      inner.find? rest = some found := by
  cases value with
  | table entries =>
    rw [Value.find?_cons] at there
    obtain ⟨inner, here, later⟩ := Option.bind_eq_some_iff.mp there
    exact ⟨entries, inner, rfl, here, later⟩
  | _ => contradiction

theorem lookup_of_find? {value found : Value} {key : String} (there : value.find? [key] = some found) :
    ∃ entries, value = .table entries ∧ entries.lookup key = some found := by
  obtain ⟨entries, inner, rfl, here, same⟩ := entries_of_find? there
  rw [Value.find?] at same
  exact ⟨entries, rfl, same ▸ here⟩

theorem capacity?_of_storageParts? {cache : Value} {database : Option Value} {capacity : Option Nat}
    {path : String} (read : storageParts? (some cache) database = some (capacity, path)) :
    capacity? cache = some capacity := by
  simp only [storageParts?, Option.bind_eq_bind] at read
  obtain ⟨number, given, read⟩ := Option.bind_eq_some_iff.mp read
  cases database with
  | none =>
    obtain ⟨rfl, -⟩ := Prod.mk.inj (Option.some.inj read)
    exact given
  | some value =>
    obtain ⟨_, -, same⟩ := Option.bind_eq_some_iff.mp read
    obtain ⟨rfl, -⟩ := Prod.mk.inj (Option.some.inj same)
    exact given

theorem path?_of_storageParts? {cache : Option Value} {database : Value} {capacity : Option Nat}
    {path : String} (read : storageParts? cache (some database) = some (capacity, path)) :
    path? database = some path := by
  have placed {number : Option Nat}
      (read : ((path? database).bind fun text => some (number, text)) = some (capacity, path)) :
      path? database = some path := by
    obtain ⟨text, there, same⟩ := Option.bind_eq_some_iff.mp read
    obtain ⟨-, rfl⟩ := Prod.mk.inj (Option.some.inj same)
    exact there
  simp only [storageParts?, Option.bind_eq_bind] at read
  cases cache with
  | none => exact placed read
  | some value =>
    obtain ⟨_, -, read⟩ := Option.bind_eq_some_iff.mp read
    exact placed read

theorem eq_capacity_of_find? {value found : Value} {capacity : Option Nat} {path : String}
    (read : storage? value = some (capacity, path)) (there : value.find? ["cache", "capacity"] = some found) :
    found = naturalOrNothing capacity := by
  obtain ⟨entries, cache, rfl, held, inside⟩ := entries_of_find? there
  obtain ⟨limits, rfl, here⟩ := lookup_of_find? inside
  rw [storage?, held] at read
  have given := capacity?_of_storageParts? read
  simp only [capacity?, here] at given
  exact eq_of_naturalOrNothing? given

theorem eq_path_of_find? {value found : Value} {capacity : Option Nat} {path : String}
    (read : storage? value = some (capacity, path)) (there : value.find? ["database", "path"] = some found) :
    found = .text path := by
  obtain ⟨entries, database, rfl, held, inside⟩ := entries_of_find? there
  obtain ⟨places, rfl, here⟩ := lookup_of_find? inside
  rw [storage?, held] at read
  have placed := path?_of_storageParts? read
  simp only [path?, here] at placed
  exact eq_of_text? placed

-- A leaf that is there is read as it is; the standard settings stand in for others only.
theorem eq_valueAt_of_find? {value found : Value} {settings : Settings} (read : ofValue? value = some settings)
    {leaf : Leaf} (there : value.find? leaf.keys = some found) : found = settings.valueAt leaf := by
  have keyed : leaf.keys ≠ [] := by cases leaf <;> exact nofun
  obtain ⟨key, rest, split⟩ := List.exists_cons_of_ne_nil keyed
  obtain ⟨entries, inner, rfl, here, inside⟩ := entries_of_find? (split ▸ there)
  simp only [ofValue?, Option.bind_eq_bind, Option.bind_eq_some_iff] at read
  obtain ⟨⟨capacity, path⟩, storage, network, named, start, first, syncFrom, discarded, same⟩ := read
  obtain rfl := Option.some.inj same
  cases leaf with
  | network =>
    obtain ⟨rfl, rfl⟩ := List.cons.inj split
    obtain rfl := Option.some.inj inside
    exact eq_of_network? (read_of_field? here named)
  | startHeight =>
    obtain ⟨rfl, rfl⟩ := List.cons.inj split
    obtain rfl := Option.some.inj inside
    exact eq_of_natural? (read_of_field? here first)
  | syncFrom =>
    obtain ⟨rfl, rfl⟩ := List.cons.inj split
    obtain rfl := Option.some.inj inside
    exact eq_of_naturalOrNothing? (read_of_field? here discarded)
  | capacity =>
    obtain ⟨rfl, rfl⟩ := List.cons.inj split
    exact eq_capacity_of_find? (read_of_field? here storage) inside
  | path =>
    obtain ⟨rfl, rfl⟩ := List.cons.inj split
    exact eq_path_of_find? (read_of_field? here storage) inside

end CompactChain.Settings
