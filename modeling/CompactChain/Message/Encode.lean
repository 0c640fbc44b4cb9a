import CompactChain.Message.Basic
import CompactChain.Message.Wire

set_option autoImplicit false

namespace CompactChain

namespace Message

def numberField (tag value : Nat) : Bytes :=
  if value = 0 then [] else Key.write ⟨tag, .varint⟩ ++ writeVarint value

def delimitedField (tag : Nat) (body : Bytes) : Bytes :=
  Key.write ⟨tag, .lengthDelimited⟩ ++ writeVarint body.length ++ body

def bytesField (tag : Nat) (value : Bytes) : Bytes :=
  if value = [] then [] else delimitedField tag value

def keyLength (key : Key) : Nat :=
  varintLength key.number

def numberFieldLength (tag value : Nat) : Nat :=
  if value = 0 then 0 else keyLength ⟨tag, .varint⟩ + varintLength value

def delimitedFieldLength (tag length : Nat) : Nat :=
  keyLength ⟨tag, .lengthDelimited⟩ + varintLength length + length

def bytesFieldLength (tag length : Nat) : Nat :=
  if length = 0 then 0 else delimitedFieldLength tag length

end Message

open Message

namespace ChainMetadata

def encode (m : ChainMetadata) : Bytes :=
  numberField 1 m.saplingTreeSize.toNat ++ numberField 2 m.orchardTreeSize.toNat

def encodedLength (m : ChainMetadata) : Nat :=
  numberFieldLength 1 m.saplingTreeSize.toNat + numberFieldLength 2 m.orchardTreeSize.toNat

end ChainMetadata

namespace CompactSpend

def encode (m : CompactSpend) : Bytes :=
  bytesField 1 m.nullifier

def encodedLength (m : CompactSpend) : Nat :=
  bytesFieldLength 1 m.nullifier.length

end CompactSpend

namespace CompactOutput

def encode (m : CompactOutput) : Bytes :=
  bytesField 1 m.commitment ++ bytesField 2 m.ephemeralKey ++ bytesField 3 m.ciphertext

def encodedLength (m : CompactOutput) : Nat :=
  bytesFieldLength 1 m.commitment.length + bytesFieldLength 2 m.ephemeralKey.length +
    bytesFieldLength 3 m.ciphertext.length

end CompactOutput

namespace CompactAction

def encode (m : CompactAction) : Bytes :=
  bytesField 1 m.nullifier ++ bytesField 2 m.commitment ++ bytesField 3 m.ephemeralKey ++
    bytesField 4 m.ciphertext

def encodedLength (m : CompactAction) : Nat :=
  bytesFieldLength 1 m.nullifier.length + bytesFieldLength 2 m.commitment.length +
    bytesFieldLength 3 m.ephemeralKey.length + bytesFieldLength 4 m.ciphertext.length

end CompactAction

namespace CompactTx

def encode (m : CompactTx) : Bytes :=
  numberField 1 m.index.toNat ++ bytesField 2 m.hash ++ numberField 3 m.fee.toNat ++
    m.spends.flatMap (fun spend => delimitedField 4 spend.encode) ++
    m.outputs.flatMap (fun output => delimitedField 5 output.encode) ++
    m.actions.flatMap (fun action => delimitedField 6 action.encode)

def encodedLength (m : CompactTx) : Nat :=
  numberFieldLength 1 m.index.toNat + bytesFieldLength 2 m.hash.length +
    numberFieldLength 3 m.fee.toNat +
    (m.spends.map fun spend => delimitedFieldLength 4 spend.encodedLength).foldl (· + ·) 0 +
    (m.outputs.map fun output => delimitedFieldLength 5 output.encodedLength).foldl (· + ·) 0 +
    (m.actions.map fun action => delimitedFieldLength 6 action.encodedLength).foldl (· + ·) 0

end CompactTx

namespace CompactBlock

def encode (m : CompactBlock) : Bytes :=
  numberField 1 m.version.toNat ++ numberField 2 m.height.toNat ++ bytesField 3 m.hash ++
    bytesField 4 m.prevHash ++ numberField 5 m.time.toNat ++ bytesField 6 m.header ++
    m.transactions.flatMap (fun tx => delimitedField 7 tx.encode) ++
    m.metadata.elim [] (fun metadata => delimitedField 8 metadata.encode)

def encodedLength (m : CompactBlock) : Nat :=
  numberFieldLength 1 m.version.toNat + numberFieldLength 2 m.height.toNat +
    bytesFieldLength 3 m.hash.length + bytesFieldLength 4 m.prevHash.length +
    numberFieldLength 5 m.time.toNat + bytesFieldLength 6 m.header.length +
    (m.transactions.map fun tx => delimitedFieldLength 7 tx.encodedLength).foldl (· + ·) 0 +
    m.metadata.elim 0 (fun metadata => delimitedFieldLength 8 metadata.encodedLength)

end CompactBlock

end CompactChain
