import CompactChain.Proofs.Settings.Merging
import CompactChain.Settings.Environment
import CompactChain.Settings.Wrapped

set_option autoImplicit false

namespace CompactChain

namespace Value

theorem unwrapEntries?_distinct {entries unwrapped : Entries}
    (each : ∀ entry ∈ entries, ∀ value, entry.2.unwrap? = some value → value.Distinct)
    (read : unwrapEntries? entries = some unwrapped) :
    (unwrapped.map Prod.fst).Sublist (entries.map Prod.fst) ∧ ∀ entry ∈ unwrapped, entry.2.Distinct := by
  induction entries generalizing unwrapped with
  | nil =>
    obtain rfl := Option.some.inj read
    exact ⟨List.Sublist.refl _, nofun⟩
  | cons entry rest ih =>
    obtain ⟨key, value⟩ := entry
    obtain ⟨first, others⟩ := List.forall_mem_cons.mp each
    rw [unwrapEntries?] at read
    split at read
    next =>
      split at read
      next =>
        obtain ⟨keys, distinct⟩ := ih others read
        exact ⟨keys.cons key, distinct⟩
      next => contradiction
    next =>
      obtain ⟨inner, there, read⟩ := Option.bind_eq_some_iff.mp read
      obtain ⟨later, found, same⟩ := Option.bind_eq_some_iff.mp read
      obtain rfl := Option.some.inj same
      obtain ⟨keys, distinct⟩ := ih others found
      exact ⟨keys.cons_cons key, List.forall_mem_cons.mpr ⟨first inner there, distinct⟩⟩

theorem Distinct.of_unwrap? {value unwrapped : Value} (distinct : value.Distinct)
    (read : value.unwrap? = some unwrapped) : unwrapped.Distinct := by
  induction distinct generalizing unwrapped with
  | @plain value plain =>
    cases value with
    | table entries => exact absurd rfl (plain entries)
    | array items =>
      obtain ⟨_, -, rfl⟩ := Option.map_eq_some_iff.mp read
      exact .plain nofun
    | _ =>
      obtain rfl := Option.some.inj read
      exact .plain plain
  | table keys each ih =>
    obtain ⟨inside, there, rfl⟩ := Option.map_eq_some_iff.mp read
    obtain ⟨fewer, distinct⟩ := unwrapEntries?_distinct (fun entry member _ => ih entry member) there
    cases wrapped : inside.lookup wrappedKey with
    | none => exact .table (fewer.nodup keys) distinct
    | some found =>
      obtain ⟨front, back, rfl, -⟩ := List.lookup_eq_some_iff.mp wrapped
      exact distinct (wrappedKey, found) (by simp)

theorem unwrapEach?_distinct {entries unwrapped : Entries} (distinct : Distinct (.table entries))
    (read : unwrapEach? entries = some unwrapped) : Distinct (.table unwrapped) := by
  obtain ⟨keys, each⟩ := distinct.entries
  have parts : unwrapped.map Prod.fst = entries.map Prod.fst ∧
      ∀ entry ∈ unwrapped, entry.2.Distinct := by
    clear keys distinct
    induction entries generalizing unwrapped with
    | nil =>
      obtain rfl := Option.some.inj read
      exact ⟨rfl, nofun⟩
    | cons entry rest ih =>
      obtain ⟨key, value⟩ := entry
      obtain ⟨first, others⟩ := List.forall_mem_cons.mp each
      rw [unwrapEach?, List.mapM_cons] at read
      obtain ⟨_, there, read⟩ := Option.bind_eq_some_iff.mp read
      obtain ⟨later, found, same⟩ := Option.bind_eq_some_iff.mp read
      obtain rfl := Option.some.inj same
      obtain ⟨inner, unwrapped, rfl⟩ := Option.map_eq_some_iff.mp there
      obtain ⟨same, distinct⟩ := ih found others
      exact ⟨congrArg (key :: ·) same, List.forall_mem_cons.mpr ⟨first.of_unwrap? unwrapped, distinct⟩⟩
  exact .table (parts.1 ▸ keys) parts.2

end Value

namespace Environment

open Value (Distinct Scanner distinct_empty)

theorem listItems_distinct (scanner : Scanner) (fuel : Nat) (before : List Value) :
    Scanner.FindsDistinct (listItems scanner fuel before) := by
  induction fuel generalizing before with
  | zero => exact nofun
  | succ fuel ih =>
    intro text found rest read
    unfold listItems at read
    split at read
    next => contradiction
    next =>
      exact .of_found read (.plain nofun)
    next same _ =>
      obtain rfl := Nat.succ.inj same
      obtain ⟨⟨item, left⟩, -, read⟩ := Option.bind_eq_some_iff.mp read
      dsimp only at read
      split at read
      next => exact ih _ _ _ _ read
      next =>
        exact .of_found read (.plain nofun)
      next => contradiction

theorem tableItems_distinct {scanner : Scanner} (distinct : scanner.FindsDistinct) (fuel : Nat)
    {before : Value.Entries} (whole : Distinct (.table before)) :
    Scanner.FindsDistinct (tableItems scanner fuel before) := by
  induction fuel generalizing before with
  | zero => exact nofun
  | succ fuel ih =>
    intro text found rest read
    unfold tableItems at read
    split at read
    next => contradiction
    next =>
      exact .of_found read whole
    next same _ =>
      obtain rfl := Nat.succ.inj same
      obtain ⟨⟨key, left⟩, -, read⟩ := Option.bind_eq_some_iff.mp read
      dsimp only at read
      split at read
      next =>
        obtain ⟨⟨item, after⟩, there, read⟩ := Option.bind_eq_some_iff.mp read
        have more := whole.put key (distinct _ _ _ there)
        dsimp only at read
        split at read
        next => exact ih more _ _ _ read
        next =>
          exact .of_found read more
        next => contradiction
      next => contradiction

theorem bare_plain (text : List Char) (entries : Value.Entries) : bare text ≠ .table entries := by
  unfold bare
  split
  · exact nofun
  split
  · exact nofun
  · exact nofun

theorem scanned_of_spaced {scanned : Option (Value × List Char)} {found : Value} {rest : List Char}
    (read : (scanned.bind fun (found, rest) => some (found, skipSpace rest)) = some (found, rest)) :
    ∃ left, scanned = some (found, left) := by
  obtain ⟨⟨inner, left⟩, there, same⟩ := Option.bind_eq_some_iff.mp read
  obtain ⟨rfl, -⟩ := Prod.mk.inj (Option.some.inj same)
  exact ⟨left, there⟩

theorem value_distinct (depth : Nat) : Scanner.FindsDistinct (value depth) := by
  induction depth with
  | zero => exact nofun
  | succ depth ih =>
    intro text found rest read
    unfold value at read
    dsimp only at read
    split at read
    next =>
      obtain ⟨_, there⟩ := scanned_of_spaced read
      exact .of_found there (.plain nofun)
    next =>
      obtain ⟨_, there⟩ := scanned_of_spaced read
      exact .of_found there (.plain nofun)
    next =>
      obtain ⟨_, there⟩ := scanned_of_spaced read
      exact tableItems_distinct ih _ distinct_empty _ _ _ there
    next =>
      obtain ⟨_, there⟩ := scanned_of_spaced read
      exact listItems_distinct _ _ _ _ _ _ there
    next =>
      obtain ⟨_, there⟩ := scanned_of_spaced read
      obtain ⟨_, -, same⟩ := Option.map_eq_some_iff.mp there
      obtain ⟨rfl, -⟩ := Prod.mk.inj same
      exact .plain nofun
    next =>
      split at read
      next =>
        obtain ⟨_, there⟩ := scanned_of_spaced read
        exact .of_found there (.plain nofun)
      next => contradiction
    next =>
      obtain ⟨_, there⟩ := scanned_of_spaced read
      exact .of_found there (.plain (bare_plain _))

theorem parse_distinct (text : String) : (parse text).Distinct := by
  unfold parse
  split
  next read => exact value_distinct _ _ _ _ read
  next => exact .plain nofun

theorem nest_distinct {value : Value} (distinct : value.Distinct) (keys : List String) :
    (nest keys value).Distinct := by
  induction keys with
  | nil => exact distinct
  | cons key rest ih => exact .table (List.nodup_singleton key) (List.forall_mem_singleton.mpr ih)

end Environment

end CompactChain
