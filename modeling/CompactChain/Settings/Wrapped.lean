import CompactChain.Settings.Value

set_option autoImplicit false

namespace CompactChain.Value

def wrappedKey : String := "___figment_value_value"

def identifierKey : String := "___figment_value_id"

def isIdentifier : Value → Bool
  | .integer n => 0 ≤ n
  | _ => false

mutual

/-- The value with what it stands for in place of each table that wraps one. -/
def unwrap? : Value → Option Value
  | .array items => (unwrapItems? items).map .array
  | .table entries =>
    (unwrapEntries? entries).map fun entries =>
      (entries.lookup wrappedKey).getD (.table entries)
  | value => some value

def unwrapItems? : List Value → Option (List Value)
  | [] => some []
  | item :: rest => do
    let item ← item.unwrap?
    return item :: (← unwrapItems? rest)

def unwrapEntries? : Entries → Option Entries
  | [] => some []
  | (key, value) :: rest =>
    if key = identifierKey then
      if value.isIdentifier then unwrapEntries? rest else none
    else do
      let value ← value.unwrap?
      return (key, value) :: (← unwrapEntries? rest)

end

-- Unwraps each value of an outermost table, whose own keys are like any others.
def unwrapEach? (entries : Entries) : Option Entries :=
  entries.mapM fun (key, value) => value.unwrap?.map fun value => (key, value)

end CompactChain.Value
