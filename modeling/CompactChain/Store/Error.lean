import CompactChain.Message.Wire
import CompactChain.Settings
import CompactChain.Store.Files
import CompactChain.Wire.Error

set_option autoImplicit false

namespace CompactChain.Store

inductive BlockFault where
  | hashLength (height length : Nat)
  | trailingBytes (count height : Nat)
  deriving DecidableEq

inductive WriteStage where
  | beforeReplacing
  | writing
  deriving DecidableEq

inductive Error where
  | heightOutOfRange (height first next : Nat)
  | wrongHeight (expected found : Nat)
  | chainMismatch (height : Nat)
  | invalidBlock (fault : BlockFault)
  | corruption (height : Nat) (stage : WriteStage) (cause : OsError)
  | numberTooLarge
  | os (cause : OsError)
  | parse (cause : ParseError)
  | settings (cause : SettingsFault)
  deriving DecidableEq

inductive Damage where
  | entryTag
  | entryHeight (found : Nat)
  | missingData
  | checksum
  | undecodable (cause : Message.DecodeError)
  | storedHeight (found : Nat)
  | hash
  | link
  | trailingBytes (count : Nat)
  deriving DecidableEq

inductive Warning where
  | damaged (height : Nat) (damage : Damage) (kept : Nat)
  | unreadable (directory : String) (cause : OsError) (first : Nat)
  | moved (source target : String)
  | moveFailed (path : String) (cause : OsError)
  | copyFailed (source target : String) (cause : OsError)
  | rollBackFailed (cause : OsError)
  | reorgFailed (target : Nat) (cause : OsError)
  deriving DecidableEq

def BlockFault.message : BlockFault → String
  | .hashLength height length =>
    "block " ++ toString height ++ " has a " ++ toString length ++ " byte hash"
  | .trailingBytes count height => toString count ++ " trailing bytes after block " ++ toString height

def WriteStage.message : WriteStage → String
  | .beforeReplacing => "failed to truncate before replacing: "
  | .writing => "write failed: "

def Error.message : Error → String
  | .heightOutOfRange height first next =>
    "height " ++ toString height ++ " out of range, blocks can be added at " ++ toString first ++
      "..=" ++ toString next
  | .wrongHeight expected found =>
    "block height " ++ toString found ++ " does not match requested height " ++ toString expected
  | .chainMismatch height =>
    "block at height " ++ toString height ++ " does not extend the cached chain"
  | .invalidBlock fault => "invalid block: " ++ fault.message
  | .corruption height stage cause =>
    "cache corruption at height " ++ toString height ++ ": " ++ stage.message ++ cause.message
  | .numberTooLarge => "Integer conversion error: number too large to fit in target type"
  | .os cause => "IO error: " ++ cause.message
  | .parse cause => "Chain parse error: " ++ cause.message
  | .settings cause => "Configuration error: " ++ cause.message

def Damage.message : Damage → String
  | .entryTag => "bad index entry: unsupported record version tag"
  | .entryHeight found => "index entry holds height " ++ toString found
  | .missingData => "block data is truncated"
  | .checksum => "checksum mismatch"
  | .undecodable cause => "undecodable block: " ++ cause.message
  | .storedHeight found => "stored block holds height " ++ toString found
  | .hash => "block hash does not match index"
  | .link => "block does not extend the previous block"
  | .trailingBytes count => toString count ++ " trailing bytes in index"

def Warning.message : Warning → String
  | .damaged height damage kept =>
    "Block cache corruption at height " ++ toString height ++ ": " ++ damage.message ++
      ". Keeping " ++ toString kept ++ " blocks."
  | .unreadable directory cause first =>
    "Block cache files at " ++ directory ++ " are unreadable: " ++ cause.message ++
      ". Starting empty at height " ++ toString first ++ "."
  | .moved source target => "Moved " ++ source ++ " to " ++ target
  | .moveFailed path cause => "Failed to move " ++ path ++ ": " ++ cause.message
  | .copyFailed source target cause =>
    "Failed to copy " ++ source ++ " to " ++ target ++ ": " ++ cause.message
  | .rollBackFailed cause => "Failed to roll back block cache files: " ++ cause.message
  | .reorgFailed target cause =>
    "Failed to truncate block cache files during reorg to " ++ toString target ++ ": " ++ cause.message

end CompactChain.Store
