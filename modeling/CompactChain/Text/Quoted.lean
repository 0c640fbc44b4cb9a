set_option autoImplicit false

namespace CompactChain.Text

def hexValue? (c : Char) : Option Nat :=
  if '0' ≤ c ∧ c ≤ '9' then some (c.toNat - 48)
  else if 'a' ≤ c ∧ c ≤ 'f' then some (c.toNat - 87)
  else if 'A' ≤ c ∧ c ≤ 'F' then some (c.toNat - 55)
  else none

def hexNumber : (count : Nat) → (high : Nat) → List Char → Option (Nat × List Char)
  | 0, high, rest => some (high, rest)
  | _ + 1, _, [] => none
  | count + 1, high, c :: rest =>
    match hexValue? c with
    | none => none
    | some digit => hexNumber count (16 * high + digit) rest

def character? (number : Nat) : Option Char :=
  if h : number.isValidChar then some (Char.ofNatAux number h) else none

def numbered (digits : Nat) (text : List Char) : Option (Char × List Char) :=
  match hexNumber digits 0 text with
  | none => none
  | some (number, rest) => (character? number).map (·, rest)

def escape : List Char → Option (Char × List Char)
  | 'b' :: rest => some ('\x08', rest)
  | 't' :: rest => some ('\t', rest)
  | 'n' :: rest => some ('\n', rest)
  | 'f' :: rest => some ('\x0c', rest)
  | 'r' :: rest => some ('\r', rest)
  | '"' :: rest => some ('"', rest)
  | '\\' :: rest => some ('\\', rest)
  | 'u' :: rest => numbered 4 rest
  | 'U' :: rest => numbered 8 rest
  | _ => none

def isPlain (c : Char) : Bool :=
  c = '\t' || (' ' ≤ c && c ≠ '\x7f')

def quotedAfter : (fuel : Nat) → (read : List Char) → List Char → Option (String × List Char)
  | 0, _, _ => none
  | _ + 1, _, [] => none
  | fuel + 1, read, c :: rest =>
    if c = '"' then some (String.ofList read.reverse, rest)
    else if c = '\\' then
      match escape rest with
      | none => none
      | some (escaped, rest) => quotedAfter fuel (escaped :: read) rest
    else if isPlain c then quotedAfter fuel (c :: read) rest
    else none

def quoted (text : List Char) : Option (String × List Char) :=
  quotedAfter text.length [] text

def isNameChar (c : Char) : Bool :=
  c.isAlphanum || c = '_' || c = '-'

def name? (text : List Char) : Option (String × List Char) :=
  let name := text.takeWhile isNameChar
  if name.isEmpty then none else some (String.ofList name, text.dropWhile isNameChar)

end CompactChain.Text
