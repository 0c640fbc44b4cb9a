import CompactChain.Proofs.Settings.Merging
import CompactChain.Settings.Toml.Document

set_option autoImplicit false

namespace CompactChain

namespace Toml

open Value (Distinct distinct_empty)

inductive Item.Distinct : Item → Prop
  | value {value : Value} (distinct : value.Distinct) : Distinct (.value value)
  | table (origin : Origin) {items : Items} (keys : (items.map Prod.fst).Nodup)
      (each : ∀ entry ∈ items, Distinct entry.2) : Distinct (.table origin items)
  | tables (items : List Items) : Distinct (.tables items)

structure Items.Distinct (items : Items) : Prop where
  keys : (items.map Prod.fst).Nodup
  each : ∀ entry ∈ items, entry.2.Distinct

theorem Items.distinct_nil : Items.Distinct [] :=
  ⟨List.nodup_nil, nofun⟩

theorem Item.Distinct.items {origin : Origin} {items : Items} (distinct : Item.Distinct (.table origin items)) :
    Items.Distinct items := by
  cases distinct with
  | table _ keys each => exact ⟨keys, each⟩

theorem Items.Distinct.table {items : Items} (distinct : Items.Distinct items) (origin : Origin) :
    Item.Distinct (.table origin items) :=
  .table origin distinct.keys distinct.each

theorem itemsToEntries_eq_map (items : Items) :
    itemsToEntries items = items.map fun entry => (entry.1, entry.2.toValue) := by
  induction items with
  | nil => rfl
  | cons entry rest ih => exact congrArg _ ih

theorem Item.Distinct.toValue {item : Item} (distinct : item.Distinct) : item.toValue.Distinct := by
  induction distinct with
  | value distinct => exact distinct
  | table origin keys each ih =>
    rw [Item.toValue, itemsToEntries_eq_map]
    refine .table (by simpa [Function.comp_def] using keys) fun entry member => ?_
    obtain ⟨original, there, rfl⟩ := List.mem_map.mp member
    exact ih original there
  | tables items => exact .plain nofun

theorem Items.Distinct.toValue {items : Items} (distinct : Items.Distinct items) :
    Value.Distinct (.table (itemsToEntries items)) :=
  (distinct.table .header).toValue

def KeepsItem (change : Option Item → Option Item) : Prop :=
  ∀ old, (∀ item ∈ old, item.Distinct) → ∀ item, change old = some item → item.Distinct

def KeepsItems (change : Items → Option Items) : Prop :=
  ∀ items, Items.Distinct items → ∀ changed, change items = some changed → Items.Distinct changed

theorem keys_alter {key : String} {change : Option Item → Option Item} {items changed : Items}
    (altered : alter key change items = some changed) :
    changed.map Prod.fst =
      if key ∈ items.map Prod.fst then items.map Prod.fst else items.map Prod.fst ++ [key] := by
  induction items generalizing changed with
  | nil =>
    obtain ⟨item, -, rfl⟩ := Option.map_eq_some_iff.mp altered
    simp
  | cons entry rest ih =>
    obtain ⟨first, old⟩ := entry
    rw [alter] at altered
    split at altered
    next here =>
      obtain ⟨item, -, rfl⟩ := Option.map_eq_some_iff.mp altered
      simp [here]
    next differs =>
      obtain ⟨later, there, rfl⟩ := Option.map_eq_some_iff.mp altered
      have other : key ≠ first := fun same => differs same.symm
      rw [List.map_cons, ih there]
      by_cases old : key ∈ rest.map Prod.fst <;> simp [old, other]

theorem keepsItems_alter {change : Option Item → Option Item} (keeps : KeepsItem change) (key : String) :
    KeepsItems (alter key change) := by
  intro items distinct changed altered
  refine ⟨?_, ?_⟩
  next =>
    rw [keys_alter altered]
    split
    next => exact distinct.keys
    next new => exact List.nodup_append.mpr ⟨distinct.keys, List.nodup_singleton key, by grind⟩
  next =>
    obtain ⟨-, each⟩ := distinct
    induction items generalizing changed with
    | nil =>
      obtain ⟨item, made, rfl⟩ := Option.map_eq_some_iff.mp altered
      have distinct := keeps none nofun item made
      simpa using distinct
    | cons entry rest ih =>
      obtain ⟨first, old⟩ := entry
      rw [List.forall_mem_cons] at each
      rw [alter] at altered
      split at altered
      next here =>
        obtain ⟨item, made, rfl⟩ := Option.map_eq_some_iff.mp altered
        have distinct := keeps (some old) (by simpa using each.1) item made
        exact List.forall_mem_cons.mpr ⟨distinct, each.2⟩
      next differs =>
        obtain ⟨later, there, rfl⟩ := Option.map_eq_some_iff.mp altered
        exact List.forall_mem_cons.mpr ⟨each.1, ih later there each.2⟩

theorem keepsItems_insert {value : Value} (distinct : value.Distinct) (key : String) :
    KeepsItems (insert key value) := by
  refine keepsItems_alter ?_ key
  rintro (_ | old) - item made
  next =>
    obtain rfl := Option.some.inj made
    exact .value distinct
  next => contradiction

theorem keepsItems_within {change : Items → Option Items} (keeps : KeepsItems change) (path : List String) :
    KeepsItems (within path change) := by
  induction path with
  | nil => exact keeps
  | cons key rest ih =>
    refine keepsItems_alter ?_ key
    intro old distinct item made
    dsimp only at made
    split at made
    next =>
      obtain ⟨items, inside, rfl⟩ := Option.map_eq_some_iff.mp made
      exact (ih [] Items.distinct_nil items inside).table .implied
    next origin items =>
      obtain ⟨changed, inside, rfl⟩ := Option.map_eq_some_iff.mp made
      exact (ih items (distinct _ rfl).items changed inside).table origin
    next last before =>
      obtain ⟨changed, -, rfl⟩ := Option.map_eq_some_iff.mp made
      exact .tables _
    next => contradiction

theorem keepsItems_withinDotted {change : Items → Option Items} (keeps : KeepsItems change)
    (path : List String) : KeepsItems (withinDotted path change) := by
  induction path with
  | nil => exact keeps
  | cons key rest ih =>
    refine keepsItems_alter ?_ key
    intro old distinct item made
    dsimp only at made
    split at made
    next =>
      obtain ⟨items, inside, rfl⟩ := Option.map_eq_some_iff.mp made
      exact (ih [] Items.distinct_nil items inside).table .dotted
    next origin items =>
      split at made
      · contradiction
      obtain ⟨changed, inside, rfl⟩ := Option.map_eq_some_iff.mp made
      exact (ih items (distinct _ rfl).items changed inside).table origin
    next last before =>
      split at made
      · contradiction
      obtain ⟨changed, -, rfl⟩ := Option.map_eq_some_iff.mp made
      exact .tables _
    next => contradiction

theorem keepsItems_insertDotted {value : Value} (distinct : value.Distinct) (key : List String) :
    KeepsItems (insertDotted key value) := by
  intro items whole changed made
  unfold insertDotted at made
  split at made
  · contradiction
  · exact keepsItems_withinDotted (keepsItems_insert distinct _) _ items whole changed made

theorem keepsItems_openTable (path : List String) : KeepsItems (openTable path) := by
  intro items whole changed made
  unfold openTable at made
  split at made
  · contradiction
  next last found =>
    refine keepsItems_within (keepsItems_alter ?_ last) _ items whole changed made
    intro old distinct item made
    dsimp only at made
    split at made
    next =>
      obtain rfl := Option.some.inj made
      exact Items.distinct_nil.table .header
    next items =>
      obtain rfl := Option.some.inj made
      exact (distinct _ rfl).items.table .header
    next => contradiction

theorem keepsItems_openArrayTable (path : List String) : KeepsItems (openArrayTable path) := by
  intro items whole changed made
  unfold openArrayTable at made
  split at made
  · contradiction
  next last found =>
    refine keepsItems_within (keepsItems_alter ?_ last) _ items whole changed made
    intro old distinct item made
    dsimp only at made
    split at made
    next =>
      obtain rfl := Option.some.inj made
      exact .tables _
    next before =>
      obtain rfl := Option.some.inj made
      exact .tables _
    next => contradiction

section Scanning

variable {text rest : List Char} {found : Value}

theorem based?_distinct {base : Nat} (read : based? base text = some (found, rest)) : found.Distinct := by
  obtain ⟨_, -, there⟩ := Option.bind_eq_some_iff.mp read
  dsimp only at there
  split at there
  next =>
    exact .of_found there (.plain nofun)
  next => contradiction

theorem decimal?_distinct (read : decimal? text = some (found, rest)) : found.Distinct := by
  simp only [decimal?, Option.bind_eq_bind, Option.bind_eq_some_iff] at read
  obtain ⟨_, -, _, -, _, -, there⟩ := read
  split at there
  next =>
    obtain ⟨-, same⟩ := Option.ite_none_right_eq_some.mp there
    exact .of_found same (.plain nofun)
  next =>
    obtain ⟨-, same⟩ := Option.ite_none_left_eq_some.mp there
    exact .of_found same (.plain nofun)

theorem infinityOrNan?_distinct (read : infinityOrNan? text = some (found, rest)) : found.Distinct := by
  unfold infinityOrNan? at read
  split at read
  next =>
    exact .of_found read (.plain nofun)
  next =>
    exact .of_found read (.plain nofun)
  next => contradiction

theorem number?_distinct : Value.Scanner.FindsDistinct number? := by
  intro text found rest read
  have moments {left : Option (List Char)} (there : left.map (moment, ·) = some (found, rest)) :
      found.Distinct := by
    obtain ⟨_, -, same⟩ := Option.map_eq_some_iff.mp there
    obtain ⟨rfl, -⟩ := Prod.mk.inj same
    exact distinct_empty
  unfold number? at read
  split at read
  · exact moments read
  split at read
  · exact moments read
  split at read
  · exact based?_distinct read
  · exact based?_distinct read
  · exact based?_distinct read
  split at read
  next there =>
    obtain rfl := Option.some.inj read
    exact infinityOrNan?_distinct there
  next => exact decimal?_distinct read

theorem arrayItems_distinct (scanner : Value.Scanner) (fuel : Nat) (before : List Value) :
    Value.Scanner.FindsDistinct (arrayItems scanner fuel before) := by
  induction fuel generalizing before with
  | zero => exact nofun
  | succ fuel ih =>
    intro text found rest read
    rw [arrayItems] at read
    split at read
    next =>
      exact .of_found read (.plain nofun)
    next =>
      obtain ⟨⟨item, left⟩, -, read⟩ := Option.bind_eq_some_iff.mp read
      dsimp only at read
      split at read
      · exact ih _ _ _ _ read
      · exact .of_found read (.plain nofun)
      · contradiction

theorem keyValue?_distinct {scanner : Value.Scanner} (distinct : scanner.FindsDistinct) {key : List String}
    (read : keyValue? scanner text = some (key, found, rest)) : found.Distinct := by
  obtain ⟨⟨path, left⟩, -, read⟩ := Option.bind_eq_some_iff.mp read
  dsimp only at read
  split at read
  next =>
    obtain ⟨⟨value, after⟩, there, same⟩ := Option.bind_eq_some_iff.mp read
    obtain ⟨-, both⟩ := Prod.mk.inj (Option.some.inj same)
    obtain ⟨rfl, -⟩ := Prod.mk.inj both
    exact distinct _ _ _ there
  next => contradiction

theorem inlineItems_distinct {scanner : Value.Scanner} (distinct : scanner.FindsDistinct) (fuel : Nat)
    {items : Items} (whole : items.Distinct) :
    Value.Scanner.FindsDistinct (inlineItems scanner fuel items) := by
  induction fuel generalizing items with
  | zero => exact nofun
  | succ fuel ih =>
    intro text found rest read
    obtain ⟨⟨key, value, left⟩, there, read⟩ := Option.bind_eq_some_iff.mp read
    obtain ⟨more, inserted, read⟩ := Option.bind_eq_some_iff.mp read
    have kept := keepsItems_insertDotted (keyValue?_distinct distinct there) key items whole more inserted
    split at read
    · exact ih kept _ _ _ read
    · exact .of_found read kept.toValue
    · contradiction

theorem inlineTable_distinct {scanner : Value.Scanner} (distinct : scanner.FindsDistinct) :
    Value.Scanner.FindsDistinct (inlineTable scanner) := by
  intro text found rest read
  unfold inlineTable at read
  split at read
  next =>
    exact .of_found read distinct_empty
  next => exact inlineItems_distinct distinct _ Items.distinct_nil _ _ _ read

theorem value_distinct (depth : Nat) : Value.Scanner.FindsDistinct (value depth) := by
  have step (depth : Nat)
      (within : ∀ inner, depth = inner + 1 → Value.Scanner.FindsDistinct (value inner)) :
      Value.Scanner.FindsDistinct (value depth) := by
    intro text found rest read
    unfold value at read
    split at read
    · contradiction
    split at read
    next =>
      obtain ⟨_, -, same⟩ := Option.map_eq_some_iff.mp read
      obtain ⟨rfl, -⟩ := Prod.mk.inj same
      exact .plain nofun
    split at read
    next => exact number?_distinct _ _ _ read
    split at read
    next =>
      exact .of_found read (.plain nofun)
    next =>
      exact .of_found read (.plain nofun)
    next =>
      split at read
      next => contradiction
      next => exact arrayItems_distinct _ _ _ _ _ _ read
    next =>
      split at read
      next => contradiction
      next inner => exact inlineTable_distinct (within inner rfl) _ _ _ read
    next => contradiction
  induction depth with
  | zero => exact step 0 nofun
  | succ depth ih => exact step (depth + 1) fun inner same => Nat.succ.inj same ▸ ih

theorem KeepsItems.ended {step : Items → Option Items} (keeps : KeepsItems step) {items changed : Items}
    (whole : items.Distinct) {header path : List String} {ending : Option (List Char)}
    (read : ((step items).bind fun made => ending.bind fun rest => some (made, header, rest)) =
      some (changed, path, rest)) : changed.Distinct := by
  obtain ⟨made, there, read⟩ := Option.bind_eq_some_iff.mp read
  obtain ⟨_, -, same⟩ := Option.bind_eq_some_iff.mp read
  obtain ⟨rfl, -⟩ := Prod.mk.inj (Option.some.inj same)
  exact keeps items whole made there

theorem line_distinct {items changed : Items} {header path : List String} (whole : items.Distinct)
    (read : line items header text = some (changed, path, rest)) : changed.Distinct := by
  unfold line at read
  split at read
  next =>
    obtain ⟨⟨key, left⟩, -, read⟩ := Option.bind_eq_some_iff.mp read
    dsimp only at read
    split at read
    next => exact (keepsItems_openArrayTable key).ended whole read
    next => contradiction
  next =>
    obtain ⟨⟨key, left⟩, -, read⟩ := Option.bind_eq_some_iff.mp read
    dsimp only at read
    split at read
    next => exact (keepsItems_openTable key).ended whole read
    next => contradiction
  next =>
    obtain ⟨⟨key, value, left⟩, there, read⟩ := Option.bind_eq_some_iff.mp read
    have distinct := keyValue?_distinct (value_distinct _) there
    exact (keepsItems_within (keepsItems_insertDotted distinct key) header).ended whole read

theorem lines_distinct {fuel : Nat} {items changed : Items} {header : List String} (whole : items.Distinct)
    (read : lines fuel items header text = some changed) : changed.Distinct := by
  induction fuel generalizing items header text with
  | zero => contradiction
  | succ fuel ih =>
    rw [lines] at read
    split at read
    next =>
      obtain rfl := Option.some.inj read
      exact whole
    next =>
      split at read
      next =>
        obtain rfl := Option.some.inj read
        exact whole
      next => contradiction
    next =>
      obtain ⟨⟨more, path, left⟩, there, read⟩ := Option.bind_eq_some_iff.mp read
      exact ih (line_distinct whole there) read

theorem parse_distinct {document : String} {entries : Value.Entries} (read : parse document = some entries) :
    Value.Distinct (.table entries) := by
  obtain ⟨items, there, rfl⟩ := Option.map_eq_some_iff.mp read
  exact (lines_distinct Items.distinct_nil there).toValue

end Scanning

end Toml

end CompactChain
