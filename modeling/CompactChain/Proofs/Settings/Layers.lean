import CompactChain.Proofs.Cache.Opening
import CompactChain.Proofs.Settings.Keys
import CompactChain.Proofs.Settings.Leaves
import CompactChain.Proofs.Settings.Names
import CompactChain.Proofs.Settings.Toml.Keys

set_option autoImplicit false

namespace CompactChain

open Value (Distinct Open)

def Value.isTable : Value → Bool
  | .table _ => true
  | _ => false

namespace Environment

def source? (entry : String × String) : Option Value :=
  (keyPath? entry.1).map fun keys => nest keys (parse entry.2)

theorem layer_eq_foldl (environment : List (String × String)) :
    layer environment = (environment.filterMap source?).foldl Value.merge (.table []) := by
  rw [List.foldl_filterMap]
  refine congrArg (fun step => environment.foldl step (Value.table [])) ?_
  funext below entry
  obtain ⟨name, text⟩ := entry
  simp only [source?]
  cases keyPath? name <;> rfl

theorem exists_table_of_source? {entry : String × String} {source : Value}
    (read : source? entry = some source) : ∃ entries, source = .table entries := by
  obtain ⟨keys, named, rfl⟩ := Option.map_eq_some_iff.mp read
  obtain ⟨key, rest, rfl⟩ := List.exists_cons_of_ne_nil (keyPath?_ne_nil named)
  exact ⟨_, rfl⟩

theorem source?_distinct {entry : String × String} {source : Value} (read : source? entry = some source) :
    source.Distinct := by
  obtain ⟨keys, -, rfl⟩ := Option.map_eq_some_iff.mp read
  exact nest_distinct (parse_distinct entry.2) keys

theorem find?_nest (keys : List String) (value : Value) : (nest keys value).find? keys = some value := by
  induction keys with
  | nil => simp [nest, Value.find?]
  | cons key rest ih =>
    have there : nest (key :: rest) value = .table [(key, nest rest value)] := rfl
    rw [there, Value.find?_cons, List.lookup_cons_self]
    exact ih

end Environment

namespace Settings

def documentEntries? (document : Option String) : Option Value.Entries :=
  (Toml.parse (document.getD "")).bind Value.unwrapEach?

def sources (document : Option String) (environment : List (String × String)) : List Value :=
  (documentEntries? document).toList.map .table ++ environment.filterMap Environment.source?

def keepsTables (source : Value) : Bool :=
  tablePaths.all fun keys => (source.find? keys).all Value.isTable

def inDocument? (document : Option String) (keys : List String) : Option Value :=
  (documentEntries? document).bind fun entries => (Value.table entries).find? keys

def inEnvironment (environment : List (String × String)) (keys : List String) : List Value :=
  environment.filterMap fun entry => (Environment.source? entry).bind fun source => source.find? keys

theorem open_of_keepsTables {source : Value} (distinct : source.Distinct)
    (table : ∃ entries, source = .table entries) (keeps : keepsTables source = true) (leaf : Leaf) :
    Open leaf.keys source := by
  refine distinct.isOpen fun before after split some found there => ?_
  rcases mem_tablePaths_of_split split some with rfl | place
  next =>
    obtain rfl : source = found := Option.some.inj there
    exact table
  next =>
    have kept := List.all_eq_true.mp keeps before place
    rw [there] at kept
    cases found with
    | table entries => exact ⟨entries, rfl⟩
    | _ => contradiction

theorem load_eq_ok {document : Option String} {environment : List (String × String)} {settings : Settings}
    (loaded : load document environment = .ok settings) :
    ∃ entries, documentEntries? document = some entries ∧
      ofValue? (layered entries environment) = some settings ∧ settings.check = .ok () := by
  unfold load at loaded
  split at loaded
  · contradiction
  next entries there =>
    split at loaded
    · contradiction
    next found read =>
      split at loaded
      next checked =>
        obtain rfl := Except.ok.inj loaded
        exact ⟨entries, there, read, checked⟩
      · contradiction

section Layered

variable {entries : Value.Entries} {environment : List (String × String)} {leaf : Leaf}
  (above : ∀ source ∈ environment.filterMap Environment.source?, Open leaf.keys source)

include above

theorem find?_layered (document : Open leaf.keys (.table entries)) :
    (layered entries environment).find? leaf.keys =
      Option.merge Value.merge
        (Option.merge Value.merge (some (standard.valueAt leaf)) ((Value.table entries).find? leaf.keys))
        ((Environment.layer environment).find? leaf.keys) := by
  have opens : Open leaf.keys (Environment.layer environment) := by
    rw [Environment.layer_eq_foldl]
    exact Value.open_empty.foldl_merge above
  rw [layered, Value.find?_merge opens, Value.find?_merge document, find?_toValue]

theorem getLast?_inEnvironment
    (plain : ∀ value, (Environment.layer environment).find? leaf.keys = some value →
      ∀ entries, value ≠ .table entries) :
    (inEnvironment environment leaf.keys).getLast? = (Environment.layer environment).find? leaf.keys := by
  have nothing : (Value.table []).find? leaf.keys = none := by cases leaf <;> rfl
  rw [Environment.layer_eq_foldl] at plain ⊢
  rw [← Value.getLast?_eq_find?_foldl_merge above plain, List.filterMap_filterMap, nothing, Option.or_none]
  rfl

-- A leaf is no table, so that the uppermost layer in which it is set decides.
theorem valueAt_eq_uppermost (document : Open leaf.keys (.table entries)) {settings : Settings}
    (read : ofValue? (layered entries environment) = some settings) :
    settings.valueAt leaf =
      ((inEnvironment environment leaf.keys).getLast?.or ((Value.table entries).find? leaf.keys)).getD
        (standard.valueAt leaf) := by
  have plain {value : Value} (same : some (settings.valueAt leaf) = some value) (entries : Value.Entries) :
      value ≠ .table entries :=
    Option.some.inj same ▸ settings.valueAt_plain leaf entries
  have layers := find?_layered above document
  obtain ⟨value, there⟩ : ∃ value, (layered entries environment).find? leaf.keys = some value := by
    rw [layers]
    cases (Value.table entries).find? leaf.keys <;>
      cases (Environment.layer environment).find? leaf.keys <;> exact ⟨_, rfl⟩
  obtain rfl := eq_valueAt_of_find? read there
  rw [layers] at there
  have upper := (Value.or_eq_merge fun _ same => plain (there.symm.trans same)).trans there
  cases given : (Environment.layer environment).find? leaf.keys with
  | some value =>
    rw [given] at upper
    obtain rfl := Option.some.inj upper
    rw [getLast?_inEnvironment above fun _ same => plain (given.symm.trans same), given]
    rfl
  | none =>
    rw [given, Option.none_or] at upper
    have lower := (Value.or_eq_merge fun _ same => plain (upper.symm.trans same)).trans upper
    rw [Option.or_some] at lower
    have last := getLast?_inEnvironment above fun value same => by
      rw [given] at same
      contradiction
    rw [last, given, Option.none_or]
    exact (Option.some.inj lower).symm

end Layered

def Leaf.variable : Leaf → String
  | .network => "JUNO_NETWORK"
  | .startHeight => "JUNO_START_HEIGHT"
  | .syncFrom => "JUNO_SYNC_FROM_HEIGHT"
  | .capacity => "JUNO_STORAGE__CACHE__CAPACITY"
  | .path => "JUNO_STORAGE__DATABASE__PATH"

theorem keyPath?_of_spelled {name : String} {leaf : Leaf} (spelled : name.toLower = leaf.variable.toLower) :
    Environment.keyPath? name = some leaf.keys := by
  rw [← Environment.keyPath?_toLower, spelled, Environment.keyPath?_toLower]
  cases leaf <;> decide

theorem getLast?_inEnvironment_of_spelled {name text : String} {leaf : Leaf}
    (spelled : name.toLower = leaf.variable.toLower) {after : List (String × String)}
    (last : inEnvironment after leaf.keys = []) (before : List (String × String)) :
    (inEnvironment (before ++ (name, text) :: after) leaf.keys).getLast? = some (Environment.parse text) := by
  have here : (Environment.source? (name, text)).bind (fun source => source.find? leaf.keys) =
      some (Environment.parse text) := by
    rw [Environment.source?, keyPath?_of_spelled spelled]
    exact Environment.find?_nest leaf.keys _
  rw [inEnvironment, List.filterMap_append, List.filterMap_cons, here]
  dsimp only
  rw [← inEnvironment, ← inEnvironment, last, List.getLast?_concat]

/-- What settings are read out of a document and variables: each leaf from the uppermost layer in which it is
set, with the variables that have its name, in letters of either case, among those that set it. -/
structure Layered (document : Option String) (environment : List (String × String)) (settings : Settings) :
    Prop where
  uppermost : ∀ leaf, settings.valueAt leaf =
    ((inEnvironment environment leaf.keys).getLast?.or (inDocument? document leaf.keys)).getD
      (standard.valueAt leaf)
  named : ∀ (leaf : Leaf) (before after : List (String × String)) (name text : String),
    name.toLower = leaf.variable.toLower → inEnvironment after leaf.keys = [] →
    environment = before ++ (name, text) :: after → settings.valueAt leaf = Environment.parse text
  checked : settings.check = .ok ()
  opened : ∀ medium tree cause, (Cache.openIn medium tree settings).answer ≠ .error (.settings cause)

theorem loaded_by_layers {document : Option String} {environment : List (String × String)}
    {settings : Settings} (tables : ∀ source ∈ sources document environment, keepsTables source = true)
    (loaded : load document environment = .ok settings) : Layered document environment settings := by
  obtain ⟨entries, there, read, checked⟩ := load_eq_ok loaded
  have first : Value.table entries ∈ sources document environment := by simp [sources, there]
  have distinct : Value.Distinct (.table entries) := by
    obtain ⟨raw, parsed, unwrapped⟩ := Option.bind_eq_some_iff.mp there
    exact Value.unwrapEach?_distinct (Toml.parse_distinct parsed) unwrapped
  have uppermost (leaf : Leaf) : settings.valueAt leaf =
      ((inEnvironment environment leaf.keys).getLast?.or (inDocument? document leaf.keys)).getD
        (standard.valueAt leaf) := by
    have documentOpen := open_of_keepsTables distinct ⟨entries, rfl⟩ (tables _ first) leaf
    have above : ∀ source ∈ environment.filterMap Environment.source?, Open leaf.keys source := by
      intro source member
      obtain ⟨entry, -, given⟩ := List.mem_filterMap.mp member
      exact open_of_keepsTables (Environment.source?_distinct given)
        (Environment.exists_table_of_source? given) (tables source (List.mem_append_right _ member)) leaf
    rw [inDocument?, there]
    exact valueAt_eq_uppermost above documentOpen read
  refine ⟨uppermost, fun leaf before after name text spelled last parted => ?_, checked,
    Cache.answer_openIn_ne_settings checked⟩
  rw [uppermost, parted, getLast?_inEnvironment_of_spelled spelled last]
  rfl

def layeredDocument : String :=
  "network = \"mainnet\"\nstart_height = 1000\nsync_from_height = 1500\n[storage.cache]\ncapacity = 64\n"

def layeredEnvironment : List (String × String) :=
  [("JUNO_NETWORK", "regtest"), ("juno_storage", "\x7bcache = \x7bcapacity = 8\x7d\x7d"),
    ("Juno_Start_Height", "2000")]

theorem loaded_by_sample_layers :
    let settings : Settings := ⟨.regtest, 2000, some 1500, some 8, "./juno_cache"⟩
    (∀ source ∈ sources (some layeredDocument) layeredEnvironment, keepsTables source = true) ∧
      load (some layeredDocument) layeredEnvironment = .ok settings ∧
      Layered (some layeredDocument) layeredEnvironment settings := by
  have tables : (sources (some layeredDocument) layeredEnvironment).all keepsTables = true := by
    decide +kernel
  have loaded : load (some layeredDocument) layeredEnvironment =
      .ok ⟨.regtest, 2000, some 1500, some 8, "./juno_cache"⟩ := by
    decide +kernel
  have each := List.all_eq_true.mp tables
  exact ⟨each, loaded, loaded_by_layers each loaded⟩

end Settings

end CompactChain
