import CompactChain.Bytes

set_option autoImplicit false

namespace CompactChain.Hex

inductive Error where
  | oddLength
  | invalidCharacter (byte : UInt8) (position : Nat)
  deriving DecidableEq

def digit (n : Nat) : Char :=
  if n < 10 then Char.ofNat (48 + n) else Char.ofNat (87 + n)

def encode (bytes : Bytes) : List Char :=
  bytes.flatMap fun byte => [digit (byte.toNat / 16), digit (byte.toNat % 16)]

def digitValue? (byte : UInt8) : Option Nat :=
  let n := byte.toNat
  if 48 ≤ n ∧ n ≤ 57 then some (n - 48)
  else if 97 ≤ n ∧ n ≤ 102 then some (n - 87)
  else if 65 ≤ n ∧ n ≤ 70 then some (n - 55)
  else none

def utf8 (text : List Char) : Bytes :=
  text.flatMap String.utf8EncodeChar

def decodePairs (position : Nat) (read : Bytes) : Bytes → Except Error Bytes
  | high :: low :: rest =>
    match digitValue? high, digitValue? low with
    | none, _ => .error (.invalidCharacter high position)
    | some _, none => .error (.invalidCharacter low (position + 1))
    | some h, some l => decodePairs (position + 2) (UInt8.ofNat (16 * h + l) :: read) rest
  | _ => .ok read.reverse

-- An odd length is reported before any bad character.
def decode (text : List Char) : Except Error Bytes :=
  let bytes := utf8 text
  if bytes.length % 2 = 1 then .error .oddLength else decodePairs 0 [] bytes

def ofNat (n : Nat) : String :=
  String.ofList (Nat.toDigits 16 n)

def quotedLatin1 (byte : UInt8) : String :=
  let n := byte.toNat
  let body :=
    if n = 0 then "\\0"
    else if n = 9 then "\\t"
    else if n = 10 then "\\n"
    else if n = 13 then "\\r"
    else if n = 39 then "\\'"
    else if n = 92 then "\\\\"
    else if n < 0x20 ∨ (0x7f ≤ n ∧ n ≤ 0xa0) ∨ n = 0xad then "\\u\x7b" ++ ofNat n ++ "\x7d"
    else String.singleton (Char.ofNat n)
  "'" ++ body ++ "'"

def Error.message : Error → String
  | .oddLength => "Odd number of digits"
  | .invalidCharacter byte position =>
    "Invalid character " ++ quotedLatin1 byte ++ " at position " ++ toString position

end CompactChain.Hex
