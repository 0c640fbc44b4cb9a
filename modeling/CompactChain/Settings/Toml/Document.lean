import CompactChain.Settings.Toml.Number
import CompactChain.Settings.Toml.Text

set_option autoImplicit false

namespace CompactChain.Toml

inductive Origin where
  | header
  | implied
  | dotted
  deriving DecidableEq

-- The tables of an array stand with the last one first.
inductive Item where
  | value (value : Value)
  | table (origin : Origin) (entries : List (String × Item))
  | tables (items : List (List (String × Item)))

abbrev Items := List (String × Item)

-- Keys may have fewer parts than this, and arrays and inline tables fewer levels.
def depthBound : Nat := 80

def alter (key : String) (change : Option Item → Option Item) : Items → Option Items
  | [] => (change none).map fun item => [(key, item)]
  | (other, old) :: rest =>
    if other = key then (change (some old)).map fun item => (key, item) :: rest
    else (alter key change rest).map ((other, old) :: ·)

def insert (key : String) (value : Value) : Items → Option Items :=
  alter key fun
    | none => some (.value value)
    | some _ => none

def within : (path : List String) → (change : Items → Option Items) → Items → Option Items
  | [], change, items => change items
  | key :: rest, change, items =>
    items |> alter key fun
      | none => (within rest change []).map (.table .implied)
      | some (.table origin items) => (within rest change items).map (.table origin)
      | some (.tables (last :: before)) =>
        (within rest change last).map fun last => .tables (last :: before)
      | _ => none

-- Changes the table that a dotted key names within another: only tables that no header opened.
def withinDotted : (path : List String) → (change : Items → Option Items) → Items → Option Items
  | [], change, items => change items
  | key :: rest, change, items =>
    items |> alter key fun
      | none => (withinDotted rest change []).map (.table .dotted)
      | some (.table origin items) =>
        if origin = .header ∨ (rest.isEmpty ∧ origin = .implied) then none
        else (withinDotted rest change items).map (.table origin)
      | some (.tables (last :: before)) =>
        if rest.isEmpty then none
        else (withinDotted rest change last).map fun last => .tables (last :: before)
      | _ => none

def insertDotted (key : List String) (value : Value) (items : Items) : Option Items :=
  match key.getLast? with
  | none => none
  | some last => withinDotted key.dropLast (insert last value) items

def openTable (path : List String) (items : Items) : Option Items :=
  match path.getLast? with
  | none => none
  | some last =>
    items |> within path.dropLast (alter last fun
      | none => some (.table .header [])
      | some (.table .implied items) => some (.table .header items)
      | some _ => none)

def openArrayTable (path : List String) (items : Items) : Option Items :=
  match path.getLast? with
  | none => none
  | some last =>
    items |> within path.dropLast (alter last fun
      | none => some (.tables [[]])
      | some (.tables before) => some (.tables ([] :: before))
      | some _ => none)

mutual

def Item.toValue : Item → Value
  | .value value => value
  | .table _ items => .table (itemsToEntries items)
  | .tables items => .array (tablesToValues items).reverse

def itemsToEntries : Items → Value.Entries
  | [] => []
  | (key, item) :: rest => (key, item.toValue) :: itemsToEntries rest

def tablesToValues : List Items → List Value
  | [] => []
  | items :: rest => .table (itemsToEntries items) :: tablesToValues rest

end

def simpleKey? (text : List Char) : Option (String × List Char) :=
  match shortText? text with
  | some found => some found
  | none => Text.name? text

def keyParts : (fuel : Nat) → List Char → Option (List String × List Char)
  | 0, _ => none
  | fuel + 1, text => do
    let (part, rest) ← simpleKey? (skipSpace text)
    match skipSpace rest with
    | '.' :: rest =>
      let (parts, rest) ← keyParts fuel rest
      return (part :: parts, rest)
    | rest => return ([part], rest)

def key? (text : List Char) : Option (List String × List Char) := do
  let (parts, rest) ← keyParts (text.length + 1) text
  if parts.length < depthBound then return (parts, rest) else none

def arrayItems (value : Value.Scanner) : (fuel : Nat) → (read : List Value) → Value.Scanner
  | 0, _, _ => none
  | fuel + 1, read, text =>
    match skipLines text.length text with
    | ']' :: rest => some (.array read.reverse, rest)
    | start => do
      let (item, rest) ← value start
      match skipLines rest.length rest with
      | ',' :: rest => arrayItems value fuel (item :: read) rest
      | ']' :: rest => return (.array (item :: read).reverse, rest)
      | _ => none

def keyValue? (value : Value.Scanner) (text : List Char) : Option (List String × Value × List Char) := do
  let (key, rest) ← key? text
  match rest with
  | '=' :: rest =>
    let (found, rest) ← value (skipSpace rest)
    return (key, found, skipSpace rest)
  | _ => none

def inlineItems (value : Value.Scanner) : (fuel : Nat) → (items : Items) → Value.Scanner
  | 0, _, _ => none
  | fuel + 1, items, text => do
    let (key, found, rest) ← keyValue? value text
    let items ← insertDotted key found items
    match rest with
    | ',' :: rest => inlineItems value fuel items rest
    | '\x7d' :: rest => return (.table (itemsToEntries items), rest)
    | _ => none

def inlineTable (value : Value.Scanner) (text : List Char) : Option (Value × List Char) :=
  match skipSpace text with
  | '\x7d' :: rest => some (.table [], rest)
  | _ => inlineItems value (text.length + 1) [] text

def startsNumber (c : Char) : Bool :=
  c.isDigit || c = '+' || c = '-' || c = 'i' || c = 'n'

def value : (depth : Nat) → Value.Scanner
  | _, [] => none
  | depth, c :: rest =>
    if c = '"' ∨ c = '\'' then (text? (c :: rest)).map fun (text, rest) => (.text text, rest)
    else if startsNumber c then number? (c :: rest)
    else
      match c, rest with
      | 't', 'r' :: 'u' :: 'e' :: rest => some (.bool true, rest)
      | 'f', 'a' :: 'l' :: 's' :: 'e' :: rest => some (.bool false, rest)
      | '[', rest =>
        match depth with
        | 0 => none
        | depth + 1 => arrayItems (value depth) (rest.length + 1) [] rest
      | '\x7b', rest =>
        match depth with
        | 0 => none
        | depth + 1 => inlineTable (value depth) rest
      | _, _ => none

def line (items : Items) (header : List String) (text : List Char) :
    Option (Items × List String × List Char) :=
  match text with
  | '[' :: '[' :: rest => do
    let (path, rest) ← key? rest
    match rest with
    | ']' :: ']' :: rest => return (← openArrayTable path items, path, ← lineEnd? rest)
    | _ => none
  | '[' :: rest => do
    let (path, rest) ← key? rest
    match rest with
    | ']' :: rest => return (← openTable path items, path, ← lineEnd? rest)
    | _ => none
  | text => do
    let (key, found, rest) ← keyValue? (value (depthBound - 1)) text
    return (← within header (insertDotted key found) items, header, ← lineEnd? rest)

def lines : (fuel : Nat) → (items : Items) → (header : List String) → List Char → Option Items
  | 0, _, _, _ => none
  | fuel + 1, items, header, text =>
    match skipLines text.length text with
    | [] => some items
    | '#' :: rest => if (rest.dropWhile Text.isPlain).isEmpty then some items else none
    | start => do
      let (items, header, rest) ← line items header start
      lines fuel items header rest

def parse (document : String) : Option Value.Entries :=
  let text := match document.toList with
    | '\ufeff' :: rest => rest
    | text => text
  (lines (text.length + 1) [] [] text).map itemsToEntries

end CompactChain.Toml
