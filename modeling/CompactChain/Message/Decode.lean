import CompactChain.Message.Basic
import CompactChain.Message.Wire

set_option autoImplicit false

namespace CompactChain

namespace Message

def nestingBudget : Nat := 100

def expect (expected found : WireType) : Except DecodeError Unit :=
  if found = expected then .ok () else (DecodeFault.unexpectedWireType found expected).raise

def skipGroup (skip : Key → Bytes → Except DecodeError Bytes) (tag : Nat) :
    (fuel : Nat) → Bytes → Except DecodeError Bytes
  | 0, _ => DecodeFault.invalidVarint.raise
  | fuel + 1, bytes => do
    let (key, rest) ← Key.read bytes
    if key.wire = .endGroup then
      if key.tag = tag then return rest else DecodeFault.unexpectedEndGroup.raise
    else skipGroup skip tag fuel (← skip key rest)

def skipBytes (count : Nat) (bytes : Bytes) : Except DecodeError Bytes :=
  if bytes.length < count then DecodeFault.bufferUnderflow.raise else .ok (bytes.drop count)

def skipField : (budget : Nat) → Key → Bytes → Except DecodeError Bytes
  | 0, _, _ => DecodeFault.recursionLimit.raise
  | budget + 1, key, bytes =>
    match key.wire with
    | .varint => do
      let (_, rest) ← readVarint bytes
      return rest
    | .sixtyFourBit => skipBytes 8 bytes
    | .thirtyTwoBit => skipBytes 4 bytes
    | .lengthDelimited => do
      let (length, rest) ← readVarint bytes
      skipBytes length rest
    | .startGroup => skipGroup (skipField budget) key.tag (bytes.length + 1) bytes
    | .endGroup => DecodeFault.unexpectedEndGroup.raise

abbrev Merge (α : Type) := Key → α → Bytes → Except DecodeError (α × Bytes)

def mergeFields {α : Type} (merge : Merge α) (limit : Nat) :
    (fuel : Nat) → α → Bytes → Except DecodeError (α × Bytes)
  | 0, message, bytes => .ok (message, bytes)
  | fuel + 1, message, bytes =>
    if bytes.length ≤ limit then .ok (message, bytes)
    else do
      let (key, rest) ← Key.read bytes
      let (message, rest) ← merge key message rest
      mergeFields merge limit fuel message rest

def mergeAll {α : Type} (merge : Merge α) (message : α) (bytes : Bytes) : Except DecodeError α :=
  match mergeFields merge 0 bytes.length message bytes with
  | .ok (message, _) => .ok message
  | .error error => .error error

def readNumber (wire : WireType) (bytes : Bytes) : Except DecodeError (Nat × Bytes) := do
  expect .varint wire
  readVarint bytes

def readBytes (wire : WireType) (bytes : Bytes) : Except DecodeError (Bytes × Bytes) := do
  expect .lengthDelimited wire
  let (length, rest) ← readVarint bytes
  if rest.length < length then DecodeFault.bufferUnderflow.raise
  else return (rest.take length, rest.drop length)

def mergeInner {α : Type} (merge : (budget : Nat) → Merge α) (wire : WireType) (message : α)
    (bytes : Bytes) : (budget : Nat) → Except DecodeError (α × Bytes)
  | 0 => do
    expect .lengthDelimited wire
    DecodeFault.recursionLimit.raise
  | budget + 1 => do
    expect .lengthDelimited wire
    let (length, rest) ← readVarint bytes
    if rest.length < length then DecodeFault.bufferUnderflow.raise
    else
      let limit := rest.length - length
      let (message, rest) ← mergeFields (merge budget) limit rest.length message rest
      if rest.length = limit then return (message, rest) else DecodeFault.lengthExceeded.raise

def mergeWith {α β : Type} (message field : String) (value : Except DecodeError (α × Bytes))
    (change : α → β) : Except DecodeError (β × Bytes) :=
  match value with
  | .ok (value, rest) => .ok (change value, rest)
  | .error error => .error { error with path := error.path ++ [(message, field)] }

def mergeUnknown {α : Type} (budget : Nat) : Merge α := fun key message bytes => do
  return (message, ← skipField budget key bytes)

end Message

open Message

namespace ChainMetadata

def merge (budget : Nat) : Merge ChainMetadata := fun key m bytes =>
  let number (field : String) := mergeWith "ChainMetadata" field (readNumber key.wire bytes)
  match key.tag with
  | 1 => number "sapling_commitment_tree_size" fun n => { m with saplingTreeSize := UInt32.ofNat n }
  | 2 => number "orchard_commitment_tree_size" fun n => { m with orchardTreeSize := UInt32.ofNat n }
  | _ => mergeUnknown budget key m bytes

def decode (bytes : Bytes) : Except DecodeError ChainMetadata :=
  mergeAll (merge nestingBudget) {} bytes

end ChainMetadata

namespace CompactSpend

def merge (budget : Nat) : Merge CompactSpend := fun key m bytes =>
  match key.tag with
  | 1 =>
    mergeWith "CompactSaplingSpend" "nf" (readBytes key.wire bytes) fun b => { m with nullifier := b }
  | _ => mergeUnknown budget key m bytes

def decode (bytes : Bytes) : Except DecodeError CompactSpend :=
  mergeAll (merge nestingBudget) {} bytes

end CompactSpend

namespace CompactOutput

def merge (budget : Nat) : Merge CompactOutput := fun key m bytes =>
  let string (field : String) := mergeWith "CompactSaplingOutput" field (readBytes key.wire bytes)
  match key.tag with
  | 1 => string "cmu" fun b => { m with commitment := b }
  | 2 => string "ephemeral_key" fun b => { m with ephemeralKey := b }
  | 3 => string "ciphertext" fun b => { m with ciphertext := b }
  | _ => mergeUnknown budget key m bytes

def decode (bytes : Bytes) : Except DecodeError CompactOutput :=
  mergeAll (merge nestingBudget) {} bytes

end CompactOutput

namespace CompactAction

def merge (budget : Nat) : Merge CompactAction := fun key m bytes =>
  let string (field : String) := mergeWith "CompactOrchardAction" field (readBytes key.wire bytes)
  match key.tag with
  | 1 => string "nullifier" fun b => { m with nullifier := b }
  | 2 => string "cmx" fun b => { m with commitment := b }
  | 3 => string "ephemeral_key" fun b => { m with ephemeralKey := b }
  | 4 => string "ciphertext" fun b => { m with ciphertext := b }
  | _ => mergeUnknown budget key m bytes

def decode (bytes : Bytes) : Except DecodeError CompactAction :=
  mergeAll (merge nestingBudget) {} bytes

end CompactAction

namespace CompactTx

def merge (budget : Nat) : Merge CompactTx := fun key m bytes =>
  let number (field : String) := mergeWith "CompactTx" field (readNumber key.wire bytes)
  let string (field : String) := mergeWith "CompactTx" field (readBytes key.wire bytes)
  match key.tag with
  | 1 => number "index" fun n => { m with index := UInt64.ofNat n }
  | 2 => string "hash" fun b => { m with hash := b }
  | 3 => number "fee" fun n => { m with fee := UInt32.ofNat n }
  | 4 =>
    mergeWith "CompactTx" "spends" (mergeInner CompactSpend.merge key.wire {} bytes budget)
      fun spend => { m with spends := m.spends ++ [spend] }
  | 5 =>
    mergeWith "CompactTx" "outputs" (mergeInner CompactOutput.merge key.wire {} bytes budget)
      fun output => { m with outputs := m.outputs ++ [output] }
  | 6 =>
    mergeWith "CompactTx" "actions" (mergeInner CompactAction.merge key.wire {} bytes budget)
      fun action => { m with actions := m.actions ++ [action] }
  | _ => mergeUnknown budget key m bytes

def decode (bytes : Bytes) : Except DecodeError CompactTx :=
  mergeAll (merge nestingBudget) {} bytes

end CompactTx

namespace CompactBlock

def merge (budget : Nat) : Merge CompactBlock := fun key m bytes =>
  let number (field : String) := mergeWith "CompactBlock" field (readNumber key.wire bytes)
  let string (field : String) := mergeWith "CompactBlock" field (readBytes key.wire bytes)
  match key.tag with
  | 1 => number "proto_version" fun n => { m with version := UInt32.ofNat n }
  | 2 => number "height" fun n => { m with height := UInt64.ofNat n }
  | 3 => string "hash" fun b => { m with hash := b }
  | 4 => string "prev_hash" fun b => { m with prevHash := b }
  | 5 => number "time" fun n => { m with time := UInt32.ofNat n }
  | 6 => string "header" fun b => { m with header := b }
  | 7 =>
    mergeWith "CompactBlock" "vtx" (mergeInner CompactTx.merge key.wire {} bytes budget)
      fun tx => { m with transactions := m.transactions ++ [tx] }
  | 8 =>
    let metadata := m.metadata.getD {}
    mergeWith "CompactBlock" "chain_metadata"
      (mergeInner ChainMetadata.merge key.wire metadata bytes budget)
      fun metadata => { m with metadata := some metadata }
  | _ => mergeUnknown budget key m bytes

def decode (bytes : Bytes) : Except DecodeError CompactBlock :=
  mergeAll (merge nestingBudget) {} bytes

end CompactBlock

end CompactChain
