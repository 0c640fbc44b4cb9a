import CompactChain.Bytes

set_option autoImplicit false

namespace CompactChain.Message

inductive WireType where
  | varint
  | sixtyFourBit
  | lengthDelimited
  | startGroup
  | endGroup
  | thirtyTwoBit
  deriving DecidableEq

def WireType.code : WireType → Nat
  | .varint => 0
  | .sixtyFourBit => 1
  | .lengthDelimited => 2
  | .startGroup => 3
  | .endGroup => 4
  | .thirtyTwoBit => 5

def WireType.ofCode? : Nat → Option WireType
  | 0 => some .varint
  | 1 => some .sixtyFourBit
  | 2 => some .lengthDelimited
  | 3 => some .startGroup
  | 4 => some .endGroup
  | 5 => some .thirtyTwoBit
  | _ => none

theorem WireType.ofCode?_code (wire : WireType) : WireType.ofCode? wire.code = some wire := by
  cases wire <;> rfl

structure Key where
  tag : Nat
  wire : WireType
  deriving DecidableEq

inductive DecodeFault where
  | invalidVarint
  | invalidKey (value : Nat)
  | invalidWireType (value : Nat)
  | invalidTag
  | unexpectedWireType (found expected : WireType)
  | bufferUnderflow
  | lengthExceeded
  | unexpectedEndGroup
  | recursionLimit
  deriving DecidableEq

-- `path` names the fields being read, innermost first.
structure DecodeError where
  path : List (String × String)
  fault : DecodeFault
  deriving DecidableEq

def WireType.name : WireType → String
  | .varint => "Varint"
  | .sixtyFourBit => "SixtyFourBit"
  | .lengthDelimited => "LengthDelimited"
  | .startGroup => "StartGroup"
  | .endGroup => "EndGroup"
  | .thirtyTwoBit => "ThirtyTwoBit"

def DecodeFault.message : DecodeFault → String
  | .invalidVarint => "invalid varint"
  | .invalidKey value => "invalid key value: " ++ toString value
  | .invalidWireType value => "invalid wire type value: " ++ toString value
  | .invalidTag => "invalid tag value: 0"
  | .unexpectedWireType found expected =>
    "invalid wire type: " ++ found.name ++ " (expected " ++ expected.name ++ ")"
  | .bufferUnderflow => "buffer underflow"
  | .lengthExceeded => "delimited length exceeded"
  | .unexpectedEndGroup => "unexpected end group tag"
  | .recursionLimit => "recursion limit reached"

def DecodeError.message (error : DecodeError) : String :=
  let path := error.path.map fun (message, field) => message ++ "." ++ field ++ ": "
  "failed to decode Protobuf message: " ++ String.join path ++ error.fault.message

def DecodeFault.raise {α : Type} (fault : DecodeFault) : Except DecodeError α :=
  .error ⟨[], fault⟩

def writeVarintIn : (room : Nat) → Nat → Bytes
  | 0, _ => []
  | room + 1, n =>
    if n < 128 then [UInt8.ofNat n] else UInt8.ofNat (128 + n % 128) :: writeVarintIn room (n / 128)

def writeVarint (n : Nat) : Bytes :=
  writeVarintIn 10 n

def varintLength (n : Nat) : Nat :=
  n.log2 / 7 + 1

-- Longer forms than needed are read too, but no value of more than sixty-four bits.
def readVarintIn : (room : Nat) → Bytes → Except DecodeError (Nat × Bytes)
  | 0, _ => DecodeFault.invalidVarint.raise
  | _, [] => DecodeFault.invalidVarint.raise
  | room + 1, byte :: rest =>
    if room = 0 ∧ 1 < byte.toNat then DecodeFault.invalidVarint.raise
    else if byte.toNat < 128 then .ok (byte.toNat, rest)
    else
      match readVarintIn room rest with
      | .ok (high, rest) => .ok (byte.toNat - 128 + 128 * high, rest)
      | .error error => .error error

def readVarint (bytes : Bytes) : Except DecodeError (Nat × Bytes) :=
  readVarintIn 10 bytes

def Key.number (key : Key) : Nat :=
  8 * key.tag + key.wire.code

def Key.write (key : Key) : Bytes :=
  writeVarint key.number

def Key.read (bytes : Bytes) : Except DecodeError (Key × Bytes) :=
  match readVarint bytes with
  | .error error => .error error
  | .ok (number, rest) =>
    if 0x100000000 ≤ number then (DecodeFault.invalidKey number).raise
    else
      match WireType.ofCode? (number % 8) with
      | none => (DecodeFault.invalidWireType (number % 8)).raise
      | some wire =>
        if number / 8 = 0 then DecodeFault.invalidTag.raise else .ok (⟨number / 8, wire⟩, rest)

end CompactChain.Message
