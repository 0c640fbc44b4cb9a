import CompactChain.Settings.Value
import CompactChain.Text.Quoted

set_option autoImplicit false

namespace CompactChain.Toml

def digit? (base : Nat) (c : Char) : Option Nat :=
  match Text.hexValue? c with
  | some digit => if digit < base then some digit else none
  | none => none

def moreDigits (base : Nat) : (read : List Nat) → List Char → Option (List Nat × List Char)
  | read, [] => some (read, [])
  | read, '_' :: rest =>
    match rest with
    | [] => none
    | c :: after =>
      match digit? base c with
      | none => none
      | some digit => moreDigits base (digit :: read) after
  | read, c :: rest =>
    match digit? base c with
    | none => some (read, c :: rest)
    | some digit => moreDigits base (digit :: read) rest

def digits? (base : Nat) : List Char → Option (List Nat × List Char)
  | [] => none
  | c :: rest =>
    match digit? base c with
    | none => none
    | some digit => moreDigits base [digit] rest

def number (base : Nat) (lastFirst : List Nat) : Nat :=
  lastFirst.foldr (fun digit n => base * n + digit) 0

def whole? : List Char → Option (List Nat × List Char)
  | '0' :: rest => some ([0], rest)
  | text => digits? 10 text

def sign : List Char → Bool × List Char
  | '-' :: rest => (true, rest)
  | '+' :: rest => (false, rest)
  | text => (false, text)

def fraction? : List Char → Option (List Nat × List Char)
  | '.' :: rest => digits? 10 rest
  | text => some ([], text)

def exponent? : List Char → Option (Int × List Char)
  | c :: rest =>
    if c = 'e' ∨ c = 'E' then
      let (negative, rest) := sign rest
      match digits? 10 rest with
      | none => none
      | some (lastFirst, rest) =>
        let size : Int := number 10 lastFirst
        some (if negative then -size else size, rest)
    else some (0, c :: rest)
  | [] => some (0, [])

-- Half a step above the greatest float of sixty-four bits.
def floatBound : Nat := (1 <<< 1024) - (1 <<< 970)

def isTooLarge (mantissa : Nat) (exponent : Int) : Bool :=
  let size : Int := (Nat.toDigits 10 mantissa).length
  if mantissa = 0 ∨ size + exponent ≤ 308 then false
  else if 310 ≤ size + exponent then true
  else if 0 ≤ exponent then floatBound ≤ mantissa * Nat.pow 10 exponent.toNat
  else floatBound * Nat.pow 10 (-exponent).toNat ≤ mantissa

def decimal? (text : List Char) : Option (Value × List Char) := do
  let (negative, unsigned) := sign text
  let (wholeDigits, afterWhole) ← whole? unsigned
  let (fractionDigits, afterFraction) ← fraction? afterWhole
  let (power, rest) ← exponent? afterFraction
  if rest.length = afterWhole.length then
    let size : Int := number 10 wholeDigits
    let value := if negative then -size else size
    if -0x8000000000000000 ≤ value ∧ value < 0x8000000000000000 then return (.integer value, rest)
    else none
  else
    let mantissa := number 10 (fractionDigits ++ wholeDigits)
    if !negative && isTooLarge mantissa (power - fractionDigits.length) then none
    else return (.float, rest)

def based? (base : Nat) (text : List Char) : Option (Value × List Char) := do
  let (lastFirst, rest) ← digits? base text
  let value := number base lastFirst
  if value < 0x8000000000000000 then return (.integer value, rest) else none

def twoDigits? : List Char → Option (Nat × List Char)
  | c :: d :: rest => do
    let high ← digit? 10 c
    let low ← digit? 10 d
    return (10 * high + low, rest)
  | _ => none

def colon? : List Char → Option (List Char)
  | ':' :: rest => some rest
  | _ => none

def isTime (text : List Char) : Bool :=
  match twoDigits? text with
  | some (_, ':' :: _) => true
  | _ => false

def secondFraction? : List Char → Option (List Char)
  | '.' :: rest =>
    match rest with
    | c :: after => if c.isDigit then some (after.dropWhile Char.isDigit) else none
    | [] => none
  | text => some text

def time? (text : List Char) : Option (List Char) := do
  let (hour, rest) ← twoDigits? text
  let (minute, rest) ← twoDigits? (← colon? rest)
  let (second, rest) ← twoDigits? (← colon? rest)
  if hour ≤ 23 ∧ minute ≤ 59 ∧ second ≤ 60 then secondFraction? rest else none

def offset? : List Char → Option (List Char)
  | c :: rest =>
    if c = 'Z' ∨ c = 'z' then some rest
    else if c = '+' ∨ c = '-' then do
      let (hour, rest) ← twoDigits? rest
      let (minute, rest) ← twoDigits? (← colon? rest)
      if hour ≤ 23 ∧ minute ≤ 59 then some rest else none
    else some (c :: rest)
  | [] => some []

def daysInMonth (year month : Nat) : Nat :=
  if month = 2 then
    if year % 4 = 0 ∧ (year % 100 ≠ 0 ∨ year % 400 = 0) then 29 else 28
  else if month = 4 ∨ month = 6 ∨ month = 9 ∨ month = 11 then 30
  else 31

def isDate : List Char → Bool
  | a :: b :: c :: d :: '-' :: _ => a.isDigit && b.isDigit && c.isDigit && d.isDigit
  | _ => false

def dashed? : List Char → Option (Nat × List Char)
  | '-' :: rest => twoDigits? rest
  | _ => none

def date? (text : List Char) : Option (List Char) := do
  let (century, rest) ← twoDigits? text
  let (years, rest) ← twoDigits? rest
  let (month, rest) ← dashed? rest
  let (day, rest) ← dashed? rest
  if month < 1 ∨ 12 < month ∨ day < 1 ∨ daysInMonth (100 * century + years) month < day then none
  else
    match rest with
    | c :: after =>
      if (c = 'T' ∨ c = 't' ∨ c = ' ') ∧ isTime after then offset? (← time? after) else return rest
    | [] => return rest

-- A moment is a table of its own kind, which holds no setting.
def moment : Value := .table []

def infinityOrNan? (text : List Char) : Option (Value × List Char) :=
  match (sign text).2 with
  | 'i' :: 'n' :: 'f' :: rest => some (.float, rest)
  | 'n' :: 'a' :: 'n' :: rest => some (.float, rest)
  | _ => none

def number? (text : List Char) : Option (Value × List Char) :=
  if isDate text then (date? text).map (moment, ·)
  else if isTime text then (time? text).map (moment, ·)
  else
    match text with
    | '0' :: 'x' :: rest => based? 16 rest
    | '0' :: 'o' :: rest => based? 8 rest
    | '0' :: 'b' :: rest => based? 2 rest
    | _ =>
      match infinityOrNan? text with
      | some found => some found
      | none => decimal? text

end CompactChain.Toml
