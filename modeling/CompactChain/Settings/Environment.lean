import CompactChain.Settings.Value
import CompactChain.Text.Blank
import CompactChain.Text.Quoted

set_option autoImplicit false

namespace CompactChain.Environment

def nameStart : List Char := "juno_".toList

def afterStart? : (start name : List Char) → Option (List Char)
  | [], name => some name
  | _ :: _, [] => none
  | s :: start, c :: name => if c.toLower = s then afterStart? start name else none

def parts (part : List Char) : List Char → List (List Char)
  | [] => [part.reverse]
  | '_' :: '_' :: rest => part.reverse :: parts [] rest
  | '.' :: rest => part.reverse :: parts [] rest
  | c :: rest => parts (c :: part) rest

def keyPath? (name : String) : Option (List String) :=
  match afterStart? nameStart (Text.trim name.toList) with
  | none => none
  | some rest =>
    let keys := parts [] (Text.trim rest)
    if keys.any List.isEmpty then none
    else some (keys.map fun key => String.ofList (key.map Char.toLower))

def isSpace (c : Char) : Bool :=
  c = ' ' || c = '\t' || c = '\n' || c = '\x0c' || c = '\r'

def skipSpace (text : List Char) : List Char :=
  text.dropWhile isSpace

def isSeparator (c : Char) : Bool :=
  c = ',' || c = '[' || c = ']' || c = '\x7b' || c = '\x7d'

def isFloat (text : List Char) : Bool :=
  let unsigned := match text with
    | '+' :: rest => rest
    | '-' :: rest => rest
    | text => text
  let whole := unsigned.takeWhile Char.isDigit
  match unsigned.dropWhile Char.isDigit with
  | '.' :: rest =>
    let fraction := rest.takeWhile Char.isDigit
    let hasDigits := !(whole.isEmpty && fraction.isEmpty)
    match rest.dropWhile Char.isDigit with
    | [] => hasDigits
    | c :: power =>
      let digits := match power with
        | '+' :: rest => rest
        | '-' :: rest => rest
        | power => power
      hasDigits && (c = 'e' || c = 'E') && !digits.isEmpty && digits.all Char.isDigit
  | _ => false

def natural? (text : List Char) : Option Nat :=
  if text.isEmpty || !text.all Char.isDigit then none
  else some (text.foldl (fun n c => 10 * n + (c.toNat - 48)) 0)

def integer? : List Char → Option Int
  | '-' :: digits =>
    match natural? digits with
    | some n => if n ≤ 0x8000000000000000 then some (-(n : Int)) else none
    | none => none
  | text =>
    let digits := match text with
      | '+' :: rest => rest
      | text => text
    match natural? digits with
    | some n => if n < 0x10000000000000000 then some n else none
    | none => none

def bare (text : List Char) : Value :=
  if isFloat text then .float
  else
    match integer? text with
    | some n => .integer n
    | none => .text (String.ofList text)

def fitting : (bytes : Nat) → List Char → List Char
  | _, [] => []
  | bytes, c :: rest =>
    if c.utf8Size ≤ bytes then c :: fitting (bytes - c.utf8Size) rest else []

-- Text between double quotes. What stands before the first escape keeps as many bytes as it has
-- characters, so that it loses its end where one of them takes more than one byte.
def quoted (text : List Char) : Option (String × List Char) :=
  let start := text.takeWhile fun c => c ≠ '"' && c ≠ '\\' && Text.isPlain c
  match text.drop start.length with
  | '\\' :: rest =>
    (Text.quoted ('\\' :: rest)).map fun (found, rest) =>
      (String.ofList (fitting start.length start) ++ found, rest)
  | _ => Text.quoted text

def listItems (value : Value.Scanner) : (fuel : Nat) → (read : List Value) → Value.Scanner
  | 0, _, _ => none
  | _ + 1, read, ']' :: rest => some (.array read.reverse, rest)
  | fuel + 1, read, text => do
    let (item, rest) ← value text
    match rest with
    | ',' :: rest => listItems value fuel (item :: read) rest
    | ']' :: rest => return (.array (item :: read).reverse, rest)
    | _ => none

def key? (text : List Char) : Option (String × List Char) :=
  match text with
  | '"' :: rest => quoted rest
  | text => Text.name? text

def tableItems (value : Value.Scanner) : (fuel : Nat) → (read : Value.Entries) → Value.Scanner
  | 0, _, _ => none
  | _ + 1, read, '\x7d' :: rest => some (.table read, rest)
  | fuel + 1, read, text => do
    let (key, rest) ← key? (skipSpace text)
    match skipSpace rest with
    | '=' :: rest =>
      let (item, rest) ← value (skipSpace rest)
      match rest with
      | ',' :: rest => tableItems value fuel (Value.put key item read) rest
      | '\x7d' :: rest => return (.table (Value.put key item read), rest)
      | _ => none
    | _ => none

def value : (depth : Nat) → Value.Scanner
  | 0, _ => none
  | depth + 1, text => do
    let (found, rest) ←
      match skipSpace text with
      | 't' :: 'r' :: 'u' :: 'e' :: rest => some (.bool true, rest)
      | 'f' :: 'a' :: 'l' :: 's' :: 'e' :: rest => some (.bool false, rest)
      | '\x7b' :: rest => tableItems (value depth) (rest.length + 1) [] rest
      | '[' :: rest => listItems (value depth) (rest.length + 1) [] rest
      | '"' :: rest => (quoted rest).map fun (text, rest) => (.text text, rest)
      | '\'' :: rest =>
        match rest with
        | c :: '\'' :: rest => some (.text (String.singleton c), rest)
        | _ => none
      | start =>
        some (bare (Text.trim (start.takeWhile fun c => !isSeparator c)),
          start.dropWhile fun c => !isSeparator c)
    return (found, skipSpace rest)

def parse (text : String) : Value :=
  match value (text.length + 1) text.toList with
  | some (found, []) => found
  | _ => .text text

def nest (keys : List String) (value : Value) : Value :=
  keys.foldr (fun key inner => .table [(key, inner)]) value

def layer (environment : List (String × String)) : Value :=
  environment.foldl (fun below (name, text) =>
    match keyPath? name with
    | none => below
    | some keys => below.merge (nest keys (parse text))) (.table [])

end CompactChain.Environment
