import CompactChain.Chain.Txid
import CompactChain.Message.Basic
import CompactChain.Wire.CompactSize

set_option autoImplicit false

namespace CompactChain

structure TransparentInput where
  script : Bytes
  deriving DecidableEq

structure TransparentOutput where
  value : UInt64
  deriving DecidableEq

structure Action where
  nullifier : Bytes
  commitment : Bytes
  ephemeralKey : Bytes
  ciphertext : Bytes
  deriving DecidableEq

structure OrchardBundle where
  actions : List Action
  valueBalance : Int64
  anchor : Bytes
  deriving DecidableEq

structure TransactionBody where
  version : UInt32
  versionGroup : UInt32
  branch : Option UInt32
  inputs : List TransparentInput
  outputs : List TransparentOutput
  orchard : Option OrchardBundle
  deriving DecidableEq

structure Transaction extends TransactionBody where
  raw : Bytes
  txid : Option Bytes
  deriving DecidableEq

def Reader.withoutArguments {α : Type} (decoder : String) (txids : Option (List Bytes))
    (txVersion : Option UInt32) (reader : Reader α) : Reader α :=
  if txids.isSome then .fail (.data (.unwantedArgument .txid decoder))
  else if txVersion.isSome then .fail (.data (.unwantedArgument .txVersion decoder))
  else reader

namespace TransparentInput

def leastLength : Nat := 32 + 4 + 1 + 4

def read : Reader TransparentInput := do
  Reader.skip 32 "TxIn::PrevTxHash"
  Reader.skip 4 "TxIn::PrevTxOutIndex"
  let script ← CompactSize.readPrefixed "TxIn::ScriptSig"
  Reader.skip 4 "TxIn::SequenceNumber"
  return ⟨script⟩

end TransparentInput

namespace TransparentOutput

def leastLength : Nat := 8 + 1

def read : Reader TransparentOutput := do
  let value ← Reader.u64 "TxOut::Value"
  CompactSize.skipPrefixed "TxOut::Script"
  return ⟨value⟩

end TransparentOutput

namespace Action

def encodedLength : Nat := 32 * 5 + 580 + 80

def compactCiphertextLength : Nat := 52

def read : Reader Action := do
  Reader.skip 32 "Action::Cv"
  let nullifier ← Reader.bytes 32 "Action::nullifier"
  Reader.skip 32 "Action::Rk"
  let commitment ← Reader.bytes 32 "Action::cmx"
  let ephemeralKey ← Reader.bytes 32 "Action::ephemeral_key"
  let ciphertext ← Reader.bytes 580 "Action::enc_ciphertext"
  Reader.skip 80 "Action::OutCiphertext"
  return ⟨nullifier, commitment, ephemeralKey, ciphertext⟩

def toCompact (action : Action) : CompactAction where
  nullifier := action.nullifier
  commitment := action.commitment
  ephemeralKey := action.ephemeralKey
  ciphertext := action.ciphertext.take compactCiphertextLength

end Action

def OrchardBundle.read (actionCount : Nat) : Reader OrchardBundle := do
  let actions ← Reader.list actionCount Action.encodedLength Action.read
  Reader.skip 1 "TransactionData::flagsOrchard"
  let valueBalance ← Reader.i64 "TransactionData::valueBalanceOrchard"
  let anchor ← Reader.bytes 32 "TransactionData::anchorOrchard"
  CompactSize.skipPrefixed "TransactionData::proofsOrchard"
  Reader.skip (64 * actions.length) "TransactionData::vSpendAuthSigsOrchard"
  Reader.skip 64 "TransactionData::bindingSigOrchard"
  return ⟨actions, valueBalance, anchor⟩

namespace TransactionBody

def v4Group : UInt32 := 0x892F2085

def v5Group : UInt32 := 0x26A7270A

def actionCountBound : Nat := 0x10000

def readTransparent : Reader (List TransparentInput × List TransparentOutput) := do
  let inputCount ← CompactSize.read "TransactionData::tx_in_count"
  let inputs ← Reader.list inputCount TransparentInput.leastLength TransparentInput.read
  let outputCount ← CompactSize.read "TransactionData::tx_out_count"
  let outputs ← Reader.list outputCount TransparentOutput.leastLength TransparentOutput.read
  return (inputs, outputs)

def expectGroup (expected found : UInt32) : Reader Unit :=
  if found = expected then .done () else .fail (.consensus (.versionGroup expected found))

def readEmptyPool (field : Field) (pool : ShieldedPool) : Reader Unit := do
  let count ← CompactSize.read field
  if count = 0 then .done () else .fail (.consensus (.disallowedPool pool count))

def readV4 (version group : UInt32) : Reader TransactionBody := do
  expectGroup v4Group group
  let (inputs, outputs) ← readTransparent
  Reader.skip 4 "TransactionData::nLockTime"
  Reader.skip 4 "TransactionData::nExpiryHeight"
  Reader.skip 8 "TransactionData::valueBalanceSapling"
  readEmptyPool "TransactionData::nShieldedSpend" .saplingSpends
  readEmptyPool "TransactionData::nShieldedOutput" .saplingOutputs
  readEmptyPool "TransactionData::nJoinSplit" .sproutJoinSplits
  return ⟨version, group, none, inputs, outputs, none⟩

def readActionCount : Reader Nat := do
  let count ← CompactSize.read "TransactionData::nActionsOrchard"
  if count < actionCountBound then .done count else .fail (.consensus (.tooManyActions count))

def readOrchard : Reader (Option OrchardBundle) := do
  let count ← readActionCount
  if count = 0 then return none
  else return some (← OrchardBundle.read count)

def readV5 (version group : UInt32) : Reader TransactionBody := do
  expectGroup v5Group group
  let branch ← Reader.u32 "TransactionData::ConsensusBranchId"
  Reader.skip 4 "TransactionData::nLockTime"
  Reader.skip 4 "TransactionData::nExpiryHeight"
  let (inputs, outputs) ← readTransparent
  readEmptyPool "TransactionData::nSpendsSapling" .saplingSpends
  readEmptyPool "TransactionData::nOutputsSapling" .saplingOutputs
  let orchard ← readOrchard
  return ⟨version, group, some branch, inputs, outputs, orchard⟩

def readVersion : Reader UInt32 := do
  let header ← Reader.u32 "FullTransaction::header"
  let version := header &&& 0x7fffffff
  if header >>> 31 ≠ 1 then .fail (.consensus (.notOverwintered version))
  else if version < 4 then .fail (.consensus (.unsupportedVersion version))
  else .done version

def read : Reader TransactionBody := do
  let version ← readVersion
  let group ← Reader.u32 "FullTransaction::nVersionGroupId"
  if version = 4 then readV4 version group else readV5 version group

end TransactionBody

namespace Transaction

def leastLength : Nat := 4 + 4 + 4 + 4 + 4 + 1 + 1 + 1 + 1 + 1

def read (txid : Option Bytes) : Reader Transaction := do
  let txid ← Reader.ofExcept (txid.mapM Txid.check)
  let (raw, body) ← TransactionBody.read.withBytes
  return { body with raw := raw, txid := txid }

def readAlone (txids : Option (List Bytes)) (txVersion : Option UInt32) : Reader Transaction :=
  if txVersion.isSome then .fail (.data (.unwantedArgument .txVersion "FullTransaction"))
  else
    match txids with
    | none => read none
    | some [txid] => read (some txid)
    | some txids => .fail (.data (.txidCount "FullTransaction" txids.length))

def withTxid (tx : Transaction) (txid : Bytes) : Transaction :=
  { tx with txid := some txid }

def actions (tx : Transaction) : List Action :=
  match tx.orchard with
  | none => []
  | some bundle => bundle.actions

def isShielded (tx : Transaction) : Bool :=
  5 ≤ tx.version && !tx.actions.isEmpty

-- Fees need the values of prior outputs, so they are never reported.
def toCompact (tx : Transaction) (index : Nat) : Except ParseError CompactTx :=
  match tx.txid with
  | none => .error (.fieldNotParsed "txid")
  | some txid =>
    .ok { index := UInt64.ofNat index, hash := txid, actions := tx.actions.map Action.toCompact }

end Transaction

end CompactChain
