import CompactChain.Bytes

set_option autoImplicit false

namespace CompactChain

structure ChainMetadata where
  saplingTreeSize : UInt32 := 0
  orchardTreeSize : UInt32 := 0
  deriving DecidableEq

structure CompactSpend where
  nullifier : Bytes := []
  deriving DecidableEq

structure CompactOutput where
  commitment : Bytes := []
  ephemeralKey : Bytes := []
  ciphertext : Bytes := []
  deriving DecidableEq

structure CompactAction where
  nullifier : Bytes := []
  commitment : Bytes := []
  ephemeralKey : Bytes := []
  ciphertext : Bytes := []
  deriving DecidableEq

structure CompactTx where
  index : UInt64 := 0
  hash : Bytes := []
  fee : UInt32 := 0
  spends : List CompactSpend := []
  outputs : List CompactOutput := []
  actions : List CompactAction := []
  deriving DecidableEq

structure CompactBlock where
  version : UInt32 := 0
  height : UInt64 := 0
  hash : Bytes := []
  prevHash : Bytes := []
  time : UInt32 := 0
  header : Bytes := []
  transactions : List CompactTx := []
  metadata : Option ChainMetadata := none
  deriving DecidableEq

def CompactAction.nullifierOnly (action : CompactAction) : CompactAction :=
  { nullifier := action.nullifier }

def CompactTx.nullifiersOnly (tx : CompactTx) : CompactTx :=
  { tx with spends := [], outputs := [], actions := tx.actions.map CompactAction.nullifierOnly }

def CompactBlock.nullifiersOnly (block : CompactBlock) : CompactBlock :=
  { block with
    transactions := block.transactions.map CompactTx.nullifiersOnly
    metadata := some {} }

end CompactChain
