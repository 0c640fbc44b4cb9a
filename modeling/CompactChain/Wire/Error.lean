import CompactChain.Bytes.Hex

set_option autoImplicit false

namespace CompactChain

abbrev Field := String

inductive SizeFault where
  | nonCanonical
  | tooLarge
  deriving DecidableEq

inductive ShieldedPool where
  | saplingSpends
  | saplingOutputs
  | sproutJoinSplits
  deriving DecidableEq

inductive ConsensusFault where
  | unsupportedVersion (found : UInt32)
  | versionGroup (expected found : UInt32)
  | notOverwintered (found : UInt32)
  | disallowedPool (pool : ShieldedPool) (count : Nat)
  | tooManyActions (count : Nat)
  deriving DecidableEq

inductive Argument where
  | txid
  | txVersion
  deriving DecidableEq

inductive DataFault where
  | unwantedArgument (argument : Argument) (decoder : String)
  | txidCount (decoder : String) (found : Nat)
  | txidLength (found : Nat)
  | txidsForBlock (given transactions : Nat)
  | nonMinimalNumber (field : Field)
  | unexpectedOpcode (opcode : UInt8) (field : Field)
  | negativeHeight (height : Int)
  | trailingBytes (count : Nat)
  deriving DecidableEq

inductive ParseError where
  | truncated (field : Field)
  | compactSize (field : Field) (fault : SizeFault)
  | data (fault : DataFault)
  | hex (error : Hex.Error)
  | fieldNotFound (field : Field)
  | fieldNotParsed (field : Field)
  | consensus (fault : ConsensusFault)
  deriving DecidableEq

def SizeFault.message : SizeFault → String
  | .nonCanonical => "non-canonical encoding"
  | .tooLarge => "exceeds maximum size"

def ShieldedPool.name : ShieldedPool → String
  | .saplingSpends => "Sapling spends"
  | .saplingOutputs => "Sapling outputs"
  | .sproutJoinSplits => "Sprout JoinSplits"

def ConsensusFault.message : ConsensusFault → String
  | .unsupportedVersion found => "Invalid version: " ++ toString found.toNat ++ ", must be >= 4"
  | .versionGroup expected found =>
    "Invalid version group ID: expected 0x" ++ Hex.ofNat expected.toNat ++
      ", got 0x" ++ Hex.ofNat found.toNat
  | .notOverwintered found => "Overwintered flag not set for version " ++ toString found.toNat
  | .disallowedPool pool count => pool.name ++ " are not supported, found " ++ toString count
  | .tooManyActions count => "Orchard action count " ++ toString count ++ " must be less than 2^16"

def Argument.name : Argument → String
  | .txid => "txid"
  | .txVersion => "tx_version"

def DataFault.message : DataFault → String
  | .unwantedArgument argument decoder =>
    argument.name ++ " must be None for " ++ decoder ++ "::parse_from_slice"
  | .txidCount decoder found =>
    "expected exactly one txid for " ++ decoder ++ "::parse_from_slice, got " ++ toString found
  | .txidLength found => "txid must be 32 bytes, got " ++ toString found
  | .txidsForBlock given transactions =>
    "number of txids (" ++ toString given ++
      ") does not match the number of transactions in the block (" ++ toString transactions ++ ")"
  | .nonMinimalNumber field => "non-minimal script number in " ++ field
  | .unexpectedOpcode opcode field =>
    "unexpected opcode 0x" ++ String.ofList (Hex.encode [opcode]) ++
      " reading script number in " ++ field
  | .negativeHeight height => "negative block height " ++ toString height ++ " in coinbase"
  | .trailingBytes count => toString count ++ " trailing bytes after block"

def ParseError.message : ParseError → String
  | .truncated field => "Truncated input: could not read " ++ field
  | .compactSize field fault => "Invalid compact size for " ++ field ++ ": " ++ fault.message
  | .data fault => "Invalid Data Error: " ++ fault.message
  | .hex error => "Hex Decode Error: " ++ error.message
  | .fieldNotFound field => "Field not found: " ++ field
  | .fieldNotParsed field => "Field not parsed: " ++ field
  | .consensus fault => "Consensus error: " ++ fault.message

end CompactChain
