set_option autoImplicit false

namespace CompactChain

inductive Value where
  | nothing
  | bool (value : Bool)
  | integer (value : Int)
  | float
  | text (value : String)
  | array (items : List Value)
  | table (entries : List (String × Value))

namespace Value

abbrev Entries := List (String × Value)

abbrev Scanner := List Char → Option (Value × List Char)

def put (key : String) (value : Value) : Entries → Entries
  | [] => [(key, value)]
  | (other, old) :: rest =>
    if other = key then (key, value) :: rest else (other, old) :: put key value rest

mutual

def merge : (below above : Value) → Value
  | .table below, .table above => .table (mergeEntries below above)
  | _, above => above

def mergeEntries (below : Entries) : (above : Entries) → Entries
  | [] => below
  | (key, value) :: rest =>
    let merged := match below.lookup key with
      | none => value
      | some old => old.merge value
    mergeEntries (put key merged below) rest

end

def find? : Value → (path : List String) → Option Value
  | value, [] => some value
  | .table entries, key :: rest =>
    match entries.lookup key with
    | none => none
    | some value => value.find? rest
  | _, _ :: _ => none

end Value

end CompactChain
