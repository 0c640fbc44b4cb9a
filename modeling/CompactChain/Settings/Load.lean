import CompactChain.Settings
import CompactChain.Settings.Environment
import CompactChain.Settings.Toml.Document
import CompactChain.Settings.Wrapped

set_option autoImplicit false

namespace CompactChain.Settings

inductive LoadFault where
  | document
  | value
  | settings (cause : SettingsFault)
  deriving DecidableEq

def naturalOrNothing : Option Nat → Value
  | none => .nothing
  | some n => .integer n

def toValue (settings : Settings) : Value :=
  .table [
    ("storage", .table [
      ("cache", .table [("capacity", naturalOrNothing settings.capacity)]),
      ("database", .table [("path", .text settings.path)])]),
    ("network", .text settings.network.tag),
    ("start_height", .integer settings.startHeight),
    ("sync_from_height", naturalOrNothing settings.syncFrom)]

def natural? : Value → Option Nat
  | .integer n => if 0 ≤ n then some n.toNat else none
  | _ => none

def naturalOrNothing? : Value → Option (Option Nat)
  | .nothing => some none
  | value => (natural? value).map some

def text? : Value → Option String
  | .text text => some text
  | _ => none

def network? : Value → Option Network
  | .text "mainnet" => some .mainnet
  | .text "testnet" => some .testnet
  | .text "regtest" => some .regtest
  | _ => none

-- A record may also be given as the list of its fields in order.
def capacity? : Value → Option (Option Nat)
  | .table entries =>
    match entries.lookup "capacity" with
    | none => some none
    | some value => naturalOrNothing? value
  | .array (value :: _) => naturalOrNothing? value
  | _ => none

def path? : Value → Option String
  | .table entries => (entries.lookup "path").bind text?
  | .array (value :: _) => text? value
  | _ => none

def storageParts? (cache database : Option Value) : Option (Option Nat × String) := do
  let capacity ← match cache with
    | none => some standard.capacity
    | some value => capacity? value
  let path ← match database with
    | none => some standard.path
    | some value => path? value
  return (capacity, path)

def storage? : Value → Option (Option Nat × String)
  | .table entries => storageParts? (entries.lookup "cache") (entries.lookup "database")
  | .array items => storageParts? items[0]? items[1]?
  | _ => none

def field? {α : Type} (entries : Value.Entries) (key : String) (missing : α)
    (read : Value → Option α) : Option α :=
  match entries.lookup key with
  | none => some missing
  | some value => read value

def ofValue? : Value → Option Settings
  | .table entries => do
    let (capacity, path) ←
      field? entries "storage" (standard.capacity, standard.path) storage?
    let network ← field? entries "network" standard.network network?
    let startHeight ← field? entries "start_height" standard.startHeight natural?
    let syncFrom ← field? entries "sync_from_height" standard.syncFrom naturalOrNothing?
    return ⟨network, startHeight, syncFrom, capacity, path⟩
  | _ => none

def layered (document : Value.Entries) (environment : List (String × String)) : Value :=
  (standard.toValue.merge (.table document)).merge (Environment.layer environment)

def load (document : Option String) (environment : List (String × String)) :
    Except LoadFault Settings :=
  match (Toml.parse (document.getD "")).bind Value.unwrapEach? with
  | none => .error .document
  | some entries =>
    match ofValue? (layered entries environment) with
    | none => .error .value
    | some settings =>
      match settings.check with
      | .ok () => .ok settings
      | .error cause => .error (.settings cause)

end CompactChain.Settings
