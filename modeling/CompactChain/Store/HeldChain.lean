import CompactChain.Message.Encode
import CompactChain.Store.Record

set_option autoImplicit false

namespace CompactChain.Store

/-- `starts` has the offset of each record and the end of the last one. -/
structure HeldChain where
  first : Nat
  next : Nat
  starts : List Nat
  latestHash : Option Bytes
  blocks : List CompactBlock
  deriving DecidableEq

namespace HeldChain

def empty (first : Nat) : HeldChain :=
  ⟨first, first, [0], none, []⟩

def ofBlocks (first : Nat) (starts : List Nat) (blocks : List CompactBlock) : HeldChain :=
  ⟨first, first + blocks.length, starts, blocks.getLast?.map CompactBlock.hash, blocks⟩

def get? (chain : HeldChain) (height : Nat) : Option CompactBlock :=
  if height < chain.first ∨ chain.next ≤ height then none else chain.blocks[height - chain.first]?

def nullifiersAt? (chain : HeldChain) (height : Nat) : Option CompactBlock :=
  (chain.get? height).map CompactBlock.nullifiersOnly

def hashAt? (chain : HeldChain) (height : Nat) : Option Bytes :=
  (chain.get? height).map CompactBlock.hash

def hashBelow? (chain : HeldChain) (height : Nat) : Option Bytes :=
  if height = 0 then none else chain.hashAt? (height - 1)

def latestHeight (chain : HeldChain) : Int :=
  if chain.next = chain.first then -1 else (chain.next : Int) - 1

def endOffset (chain : HeldChain) : Nat :=
  chain.starts.getLast?.getD 0

def indexLength (chain : HeldChain) : Nat :=
  chain.blocks.length * IndexEntry.encodedLength

def below (chain : HeldChain) (height : Nat) : HeldChain :=
  let kept := height - chain.first
  let blocks := chain.blocks.take kept
  { chain with
    next := chain.first + kept
    starts := chain.starts.take (kept + 1)
    latestHash := blocks.getLast?.map CompactBlock.hash
    blocks := blocks }

def push (chain : HeldChain) (block : CompactBlock) (recordLength : Nat) : HeldChain :=
  { chain with
    next := chain.next + 1
    starts := chain.starts ++ [chain.endOffset + recordLength]
    latestHash := some block.hash
    blocks := chain.blocks ++ [block] }

end HeldChain

end CompactChain.Store
