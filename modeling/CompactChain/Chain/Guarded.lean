import CompactChain.Chain.Block
import CompactChain.Wire.Guarded

set_option autoImplicit false

namespace CompactChain

def Decoder.alone {α : Type} (decoder : String) (reader : Reader α) (txids : Option (List Bytes))
    (txVersion : Option UInt32) : Decoder α :=
  Guarded.parse (.ofReader (reader.withoutArguments decoder txids txVersion))

def TransparentInput.decode : Option (List Bytes) → Option UInt32 → Decoder TransparentInput :=
  .alone "TxIn" read

def TransparentOutput.decode : Option (List Bytes) → Option UInt32 → Decoder TransparentOutput :=
  .alone "TxOut" read

def Action.decode : Option (List Bytes) → Option UInt32 → Decoder Action :=
  .alone "Action" read

def HeaderFields.decode : Option (List Bytes) → Option UInt32 → Decoder HeaderFields :=
  .alone "BlockHeaderData" read

def Header.decode (txids : Option (List Bytes)) (txVersion : Option UInt32) : Decoder Header :=
  (HeaderFields.decode txids txVersion).withBytes.map fun (raw, fields) =>
    { fields with raw := raw, hash := Sha256.digestTwice raw }

def OrchardBundle.readGuarded (actionCount : Nat) : Guarded OrchardBundle := do
  let actions ← Guarded.times actionCount (.nested (Action.decode none none))
  .ofReader (Reader.skip 1 "TransactionData::flagsOrchard")
  let valueBalance ← .ofReader (Reader.i64 "TransactionData::valueBalanceOrchard")
  let anchor ← .ofReader (Reader.bytes 32 "TransactionData::anchorOrchard")
  .ofReader (CompactSize.skipPrefixed "TransactionData::proofsOrchard")
  let signatures ← .step (Word.mul 64 actions.length)
  .ofReader (Reader.skip signatures "TransactionData::vSpendAuthSigsOrchard")
  .ofReader (Reader.skip 64 "TransactionData::bindingSigOrchard")
  return ⟨actions, valueBalance, anchor⟩

namespace TransactionBody

def readTransparentGuarded : Guarded (List TransparentInput × List TransparentOutput) := do
  let inputCount ← .ofReader (CompactSize.read "TransactionData::tx_in_count")
  let inputs ← Guarded.times inputCount (.nested (TransparentInput.decode none none))
  let outputCount ← .ofReader (CompactSize.read "TransactionData::tx_out_count")
  let outputs ← Guarded.times outputCount (.nested (TransparentOutput.decode none none))
  return (inputs, outputs)

def readV4Guarded (version group : UInt32) : Guarded TransactionBody := do
  .ofReader (expectGroup v4Group group)
  let (inputs, outputs) ← .nested readTransparentGuarded.parse
  .ofReader (Reader.skip 4 "TransactionData::nLockTime")
  .ofReader (Reader.skip 4 "TransactionData::nExpiryHeight")
  .ofReader (Reader.skip 8 "TransactionData::valueBalanceSapling")
  .ofReader (readEmptyPool "TransactionData::nShieldedSpend" .saplingSpends)
  .ofReader (readEmptyPool "TransactionData::nShieldedOutput" .saplingOutputs)
  .ofReader (readEmptyPool "TransactionData::nJoinSplit" .sproutJoinSplits)
  return ⟨version, group, none, inputs, outputs, none⟩

def readOrchardGuarded : Guarded (Option OrchardBundle) := do
  let count ← .ofReader readActionCount
  if count = 0 then return none
  else return some (← OrchardBundle.readGuarded count)

def readV5Guarded (version group : UInt32) : Guarded TransactionBody := do
  .ofReader (expectGroup v5Group group)
  let branch ← .ofReader (Reader.u32 "TransactionData::ConsensusBranchId")
  .ofReader (Reader.skip 4 "TransactionData::nLockTime")
  .ofReader (Reader.skip 4 "TransactionData::nExpiryHeight")
  let (inputs, outputs) ← .nested readTransparentGuarded.parse
  .ofReader (readEmptyPool "TransactionData::nSpendsSapling" .saplingSpends)
  .ofReader (readEmptyPool "TransactionData::nOutputsSapling" .saplingOutputs)
  let orchard ← readOrchardGuarded
  return ⟨version, group, some branch, inputs, outputs, orchard⟩

def decode : Decoder TransactionBody := Guarded.start do
  let version ← .ofReader readVersion
  let group ← .ofReader (Reader.u32 "FullTransaction::nVersionGroupId")
  let body := if version = 4 then readV4Guarded version group else readV5Guarded version group
  .hand body.parse

end TransactionBody

namespace Transaction

def decode (txid : Option Bytes) : Decoder Transaction :=
  match txid.mapM Txid.check with
  | .error error => .fail error
  | .ok txid => TransactionBody.decode.withBytes.map fun (raw, body) =>
    { body with raw := raw, txid := txid }

def decodeAlone (txids : Option (List Bytes)) (txVersion : Option UInt32) : Decoder Transaction :=
  if txVersion.isSome then .fail (.data (.unwantedArgument .txVersion "FullTransaction"))
  else
    match txids with
    | none => decode none
    | some [txid] => decode (some txid)
    | some txids => .fail (.data (.txidCount "FullTransaction" txids.length))

end Transaction

namespace Block

def heightGuarded (transactions : List Transaction) : Checked Nat :=
  match coinbaseScript? transactions with
  | none => .error (.fieldNotFound "coinbase script sig")
  | some script => do
    let number ← Guarded.start (ScriptNumber.readGuarded "coinbase height") script
    if number = genesisMarker then return 0
    else if number < 0 then .error (.data (.negativeHeight number))
    else return number.toNat

def readTransactionsGuarded (txids : Option (List Bytes)) (read : List Transaction) :
    (count : Nat) → Guarded (List Transaction)
  | 0 => pure read.reverse
  | count + 1 => do
    let tx ← .nested (Transaction.decode (txids.bind List.head?))
    readTransactionsGuarded (txids.map List.tail) (tx :: read) count

def readGuarded (txids : Option (List Bytes)) : Guarded Block := do
  let header ← .nested (Header.decode none none)
  let count ← .ofReader (CompactSize.read "FullBlock::tx_count")
  .ofReader (checkTxidCount txids count)
  let transactions ← readTransactionsGuarded txids [] count
  let height ← .ofChecked (heightGuarded transactions)
  return ⟨header, transactions, height⟩

def decode (txids : Option (List Bytes)) (txVersion : Option UInt32) : Decoder Block :=
  if txVersion.isSome then .fail (.data (.unwantedArgument .txVersion "FullBlock"))
  else (readGuarded txids).parse

end Block

def Action.compactGuarded (action : Action) : Except Overrun CompactAction := do
  let ciphertext ← Bytes.slice action.ciphertext 0 compactCiphertextLength
  return ⟨action.nullifier, action.commitment, action.ephemeralKey, ciphertext⟩

def Transaction.compactGuarded (tx : Transaction) (index : Nat) : Checked CompactTx :=
  match tx.txid with
  | none => .error (.fieldNotParsed "txid")
  | some txid => do
    let actions ← .step (tx.actions.mapM Action.compactGuarded)
    return { index := UInt64.ofNat index, hash := txid, actions := actions }

def Block.compactGuarded (block : Block) (orchardTreeSize : UInt32) : Checked CompactBlock := do
  let shielded := block.transactions.zipIdx.filter fun (tx, _) => tx.isShielded
  let transactions ← shielded.mapM fun (tx, index) => tx.compactGuarded index
  return {
    version := compactVersion
    height := UInt64.ofNat block.height
    hash := block.header.hash
    prevHash := block.header.prevHash
    time := block.header.time
    transactions := transactions
    metadata := some { orchardTreeSize := orchardTreeSize } }

end CompactChain
