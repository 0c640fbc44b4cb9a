import CompactChain.Chain.Transaction
import CompactChain.Digest.Sha256
import CompactChain.Text.Blank
import CompactChain.Wire.ScriptNumber

set_option autoImplicit false

namespace CompactChain

structure HeaderFields where
  version : Int32
  prevHash : Bytes
  merkleRoot : Bytes
  commitments : Bytes
  time : UInt32
  bits : Bytes
  nonce : Bytes
  solution : Bytes
  deriving DecidableEq

structure Header extends HeaderFields where
  raw : Bytes
  hash : Bytes
  deriving DecidableEq

structure Block where
  header : Header
  transactions : List Transaction
  height : Nat
  deriving DecidableEq

def HeaderFields.read : Reader HeaderFields := do
  let version ← Reader.i32 "BlockHeaderData::version"
  let prevHash ← Reader.bytes 32 "BlockHeaderData::hash_prev_block"
  let merkleRoot ← Reader.bytes 32 "BlockHeaderData::hash_merkle_root"
  let commitments ← Reader.bytes 32 "BlockHeaderData::hash_block_commitments"
  let time ← Reader.u32 "BlockHeaderData::time"
  let bits ← Reader.bytes 4 "BlockHeaderData::n_bits_bytes"
  let nonce ← Reader.bytes 32 "BlockHeaderData::nonce"
  let solution ← CompactSize.readPrefixed "BlockHeaderData::solution"
  return ⟨version, prevHash, merkleRoot, commitments, time, bits, nonce, solution⟩

def Header.read : Reader Header := do
  let (raw, fields) ← HeaderFields.read.withBytes
  return { fields with raw := raw, hash := Sha256.digestTwice raw }

namespace Block

-- The number that the first block of a chain holds in place of its height.
def genesisMarker : Int := 0x1F07FFFF

def coinbaseScript? (transactions : List Transaction) : Option Bytes :=
  match transactions with
  | [] => none
  | coinbase :: _ => coinbase.inputs.head?.map TransparentInput.script

def heightOf (transactions : List Transaction) : Except ParseError Nat :=
  match coinbaseScript? transactions with
  | none => .error (.fieldNotFound "coinbase script sig")
  | some script =>
    match ((ScriptNumber.read "coinbase height").run script).1 with
    | .error error => .error error
    | .ok number =>
      if number = genesisMarker then .ok 0
      else if number < 0 then .error (.data (.negativeHeight number))
      else .ok number.toNat

def readTransactions (txids : Option (List Bytes)) (read : List Transaction) :
    (count : Nat) → Reader (List Transaction)
  | 0 => .done read.reverse
  | count + 1 => do
    let tx ← Transaction.read (txids.bind List.head?)
    readTransactions (txids.map List.tail) (tx :: read) count

def checkTxidCount (txids : Option (List Bytes)) (count : Nat) : Reader Unit :=
  match txids with
  | none => .done ()
  | some txids =>
    if txids.length = count then .done ()
    else .fail (.data (.txidsForBlock txids.length count))

def read (txids : Option (List Bytes)) (txVersion : Option UInt32) : Reader Block :=
  if txVersion.isSome then .fail (.data (.unwantedArgument .txVersion "FullBlock"))
  else do
    let header ← Header.read
    let count ← CompactSize.read "FullBlock::tx_count"
    checkTxidCount txids count
    let transactions ← .reserve count Transaction.leastLength (readTransactions txids [] count)
    let height ← Reader.ofExcept (heightOf transactions)
    return ⟨header, transactions, height⟩

def ofHex (text : String) (txids : Option (List Bytes)) : Except ParseError Block :=
  match Hex.decode (Text.trim text.toList) with
  | .error error => .error (.hex error)
  | .ok data =>
    match (read txids none).parse data with
    | .error error => .error error
    | .ok (block, rest) =>
      if rest.isEmpty then .ok block else .error (.data (.trailingBytes rest.length))

def compactVersion : UInt32 := 1

def toCompact (block : Block) (orchardTreeSize : UInt32) : Except ParseError CompactBlock := do
  let shielded := block.transactions.zipIdx.filter fun (tx, _) => tx.isShielded
  let transactions ← shielded.mapM fun (tx, index) => tx.toCompact index
  return {
    version := compactVersion
    height := UInt64.ofNat block.height
    hash := block.header.hash
    prevHash := block.header.prevHash
    time := block.header.time
    transactions := transactions
    metadata := some { orchardTreeSize := orchardTreeSize } }

end Block

end CompactChain
