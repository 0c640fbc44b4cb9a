import CompactChain.Chain.Block
import CompactChain.Store.Recovery

set_option autoImplicit false

namespace CompactChain.Store

structure Outcome (α : Type) where
  chain : HeldChain
  answer : Except Error α
  warnings : List Warning := []

namespace HeldChain

def cutFiles (chain : HeldChain) : Script (Except OsError Unit) := do
  let blocks ← Script.ask (.resize .blocks chain.endOffset)
  let index ← Script.ask (.resize .index chain.indexLength)
  return blocks.bind fun _ => index

def validate (chain : HeldChain) (height : Nat) (block : CompactBlock) : Except Error Unit :=
  if height < chain.first ∨ chain.next < height then
    .error (.heightOutOfRange height chain.first chain.next)
  else if block.height.toNat ≠ height then .error (.wrongHeight height block.height.toNat)
  else if block.hash.length ≠ 32 then .error (.invalidBlock (.hashLength height block.hash.length))
  else if 0x100000000 ≤ height then .error .numberTooLarge
  else if (chain.hashBelow? height).any fun hash => block.prevHash ≠ hash then
    .error (.chainMismatch height)
  else .ok ()

def writeRecord (chain : HeldChain) (record entry : Bytes) : Script (Except OsError Unit) := do
  match ← Script.ask (.write .blocks chain.endOffset record) with
  | .error cause => return .error cause
  | .ok () => Script.ask (.write .index chain.indexLength entry)

-- The length is told from the block, so a block that is too long is never written out.
def append (chain : HeldChain) (height : Nat) (block : CompactBlock) : Script (Outcome Unit) := do
  if 0x100000000 ≤ block.encodedLength then
    return { chain := chain, answer := .error .numberTooLarge }
  else
    let body := block.encode
    let entry : IndexEntry := ⟨UInt32.ofNat height, UInt32.ofNat body.length, block.hash⟩
    let stored := record height body
    match ← chain.writeRecord stored entry.write with
    | .ok () => return { chain := chain.push block stored.length, answer := .ok () }
    | .error cause =>
      let answer := .error (.corruption height .writing cause)
      match ← chain.cutFiles with
      | .ok () => return { chain := chain, answer := answer }
      | .error cause =>
        return { chain := chain, answer := answer, warnings := [.rollBackFailed cause] }

def add (chain : HeldChain) (height : Nat) (block : CompactBlock) : Script (Outcome Unit) :=
  match chain.validate height block with
  | .error error => return { chain := chain, answer := .error error }
  | .ok () =>
    if height < chain.next then do
      let kept := chain.below height
      match ← kept.cutFiles with
      | .error cause =>
        return { chain := kept, answer := .error (.corruption height .beforeReplacing cause) }
      | .ok () => kept.append height block
    else chain.append height block

def compactOfRaw (data : Bytes) (txids : List Bytes) (treeSize : UInt32) :
    Except Error (Nat × CompactBlock) :=
  match (Block.read (some txids) none).parse data with
  | .error cause => .error (.parse cause)
  | .ok (block, rest) =>
    if rest.isEmpty then
      match block.toCompact treeSize with
      | .error cause => .error (.parse cause)
      | .ok compact => .ok (block.height, compact)
    else .error (.invalidBlock (.trailingBytes rest.length block.height))

def addRaw (chain : HeldChain) (data : Bytes) (txids : List Bytes) (treeSize : UInt32) :
    Script (Outcome Nat) :=
  match compactOfRaw data txids treeSize with
  | .error error => return { chain := chain, answer := .error error }
  | .ok (height, block) => do
    let outcome ← chain.add height block
    return { outcome with answer := outcome.answer.map fun _ => height }

def reorg (chain : HeldChain) (height : Nat) : Script (Outcome Unit) :=
  let target := max height chain.first
  if chain.next ≤ target then return { chain := chain, answer := .ok () }
  else do
    let kept := chain.below target
    match ← kept.cutFiles with
    | .ok () => return { chain := kept, answer := .ok () }
    | .error cause =>
      return { chain := kept, answer := .ok (), warnings := [.reorgFailed target cause] }

def settle (chain : HeldChain) (syncFrom : Option Nat) : Script (Except OsError HeldChain) := do
  match ← chain.cutFiles with
  | .error cause => return .error cause
  | .ok () =>
    match syncFrom with
    | none => return .ok chain
    | some height =>
      let target := max height chain.first
      if chain.next ≤ target then return .ok chain
      else
        let kept := chain.below target
        match ← kept.cutFiles with
        | .error cause => return .error cause
        | .ok () => return .ok kept

end HeldChain

def Recovered.settle (recovered : Recovered) (medium : Medium) (first : Nat) (syncFrom : Option Nat)
    (files : Files) : Except OsError HeldChain × Files :=
  ((recovered.chain first).settle syncFrom).run medium files

end CompactChain.Store
