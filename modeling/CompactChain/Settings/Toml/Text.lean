import CompactChain.Text.Quoted

set_option autoImplicit false

namespace CompactChain.Toml

open Text (escape isPlain quoted)

def isSpace (c : Char) : Bool :=
  c = ' ' || c = '\t'

def skipSpace (text : List Char) : List Char :=
  text.dropWhile isSpace

def newline? : List Char → Option (List Char)
  | '\n' :: rest => some rest
  | '\r' :: '\n' :: rest => some rest
  | _ => none

def skipComment : List Char → List Char
  | '#' :: rest => rest.dropWhile isPlain
  | text => text

def lineEnd? (text : List Char) : Option (List Char) :=
  match skipComment (skipSpace text) with
  | [] => some []
  | rest => newline? rest

def skipLines : (fuel : Nat) → List Char → List Char
  | 0, text => text
  | fuel + 1, text =>
    match newline? (skipComment (skipSpace text)) with
    | some rest => skipLines fuel rest
    | none => skipSpace text

def skipBlank : (fuel : Nat) → List Char → List Char
  | 0, text => text
  | fuel + 1, text =>
    match newline? (skipSpace text) with
    | some rest => skipBlank fuel rest
    | none => skipSpace text

def literalText : (read : List Char) → List Char → Option (String × List Char)
  | _, [] => none
  | read, c :: rest =>
    if c = '\'' then some (String.ofList read.reverse, rest)
    else if isPlain c then literalText (c :: read) rest
    else none

-- After three closing quotes: up to two more of them belong to the text.
def closeLong (quote : Char) (read : List Char) : List Char → String × List Char
  | c :: d :: rest =>
    if c ≠ quote then (String.ofList read.reverse, c :: d :: rest)
    else if d ≠ quote then (String.ofList (quote :: read).reverse, d :: rest)
    else (String.ofList (quote :: quote :: read).reverse, rest)
  | [c] =>
    if c = quote then (String.ofList (quote :: read).reverse, [])
    else (String.ofList read.reverse, [c])
  | [] => (String.ofList read.reverse, [])

def longText (quote : Char) : (fuel : Nat) → (read : List Char) → List Char →
    Option (String × List Char)
  | 0, _, _ => none
  | _ + 1, _, [] => none
  | fuel + 1, read, c :: rest =>
    if c = quote then
      match rest with
      | d :: e :: after =>
        if d = quote ∧ e = quote then some (closeLong quote read after)
        else longText quote fuel (c :: read) rest
      | _ => none
    else if c = '\\' ∧ quote = '"' then
      match newline? (skipSpace rest) with
      | some after => longText quote fuel read (skipBlank after.length after)
      | none =>
        match escape rest with
        | none => none
        | some (escaped, after) => longText quote fuel (escaped :: read) after
    else
      match newline? (c :: rest) with
      | some after => longText quote fuel ('\n' :: read) after
      | none => if isPlain c then longText quote fuel (c :: read) rest else none

-- A line end right after the opening quotes is dropped.
def openLong (quote : Char) (text : List Char) : Option (String × List Char) :=
  let body := (newline? text).getD text
  longText quote (body.length + 1) [] body

def shortText? : List Char → Option (String × List Char)
  | '"' :: rest => quoted rest
  | '\'' :: rest => literalText [] rest
  | _ => none

def text? : List Char → Option (String × List Char)
  | '"' :: '"' :: '"' :: rest => openLong '"' rest
  | '\'' :: '\'' :: '\'' :: rest => openLong '\'' rest
  | text => shortText? text

end CompactChain.Toml
