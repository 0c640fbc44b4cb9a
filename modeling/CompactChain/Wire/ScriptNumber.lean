import CompactChain.Wire.Reader

set_option autoImplicit false

namespace CompactChain.ScriptNumber

-- The last byte may hold a sign alone only where the byte before it needs its own top bit.
def isMinimal (bytes : Bytes) : Bool :=
  match bytes.reverse with
  | [] => false
  | last :: before => last.toNat % 128 ≠ 0 || (before.headD 0).toNat ≥ 128

def magnitude (bytes : Bytes) : Nat :=
  LittleEndian.toNat bytes % (1 <<< (8 * bytes.length - 1))

def isNegative (bytes : Bytes) : Bool :=
  1 <<< (8 * bytes.length - 1) ≤ LittleEndian.toNat bytes

def decode? (bytes : Bytes) : Option Int :=
  if isMinimal bytes then
    some (if isNegative bytes then - (magnitude bytes : Int) else magnitude bytes)
  else none

def read (field : Field) : Reader Int := do
  let opcode ← Reader.u8 field
  let n := opcode.toNat
  if n = 0x00 then return 0
  else if n = 0x4f then return -1
  else if 0x51 ≤ n ∧ n ≤ 0x60 then return (n : Int) - 0x50
  else if n ≤ 8 then
    let bytes ← Reader.bytes n field
    match decode? bytes with
    | some value => return value
    | none => .fail (.data (.nonMinimalNumber field))
  else .fail (.data (.unexpectedOpcode opcode field))

def width (size : Nat) : Nat :=
  size.log2 / 8 + 1 + if size.log2 % 8 = 7 then 1 else 0

def write (value : Int) : Bytes :=
  if value = 0 then [0x00]
  else if value = -1 then [0x4f]
  else if 1 ≤ value ∧ value ≤ 16 then [UInt8.ofNat (0x50 + value.toNat)]
  else
    let size := value.natAbs
    let count := width size
    let sign := if value < 0 then 1 <<< (8 * count - 1) else 0
    UInt8.ofNat count :: LittleEndian.ofNat count (size + sign)

end CompactChain.ScriptNumber
