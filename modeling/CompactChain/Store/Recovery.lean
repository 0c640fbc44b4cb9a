import CompactChain.Message.Decode
import CompactChain.Store.Error
import CompactChain.Store.HeldChain

set_option autoImplicit false

namespace CompactChain.Store

-- Checks one entry; `data` begins where its record should. Gives the block and the record's length.
def verify (height : Nat) (rawEntry data : Bytes) (previous : Option CompactBlock) :
    Except Damage (CompactBlock × Nat) :=
  match IndexEntry.read? rawEntry with
  | none => .error .entryTag
  | some entry =>
    if entry.height.toNat ≠ height then .error (.entryHeight entry.height.toNat)
    else
      let length := checksumLength + entry.bodyLength.toNat
      let stored := data.take length
      if stored.length < length then .error .missingData
      else
        let body := stored.drop checksumLength
        if checksum height body ≠ stored.take checksumLength then .error .checksum
        else
          match CompactBlock.decode body with
          | .error cause => .error (.undecodable cause)
          | .ok block =>
            if block.height.toNat ≠ height then .error (.storedHeight block.height.toNat)
            else if block.hash ≠ entry.hash then .error .hash
            else if previous.any fun p => block.prevHash ≠ p.hash then .error .link
            else .ok (block, length)

structure Recovered where
  blocks : List CompactBlock
  starts : List Nat
  damage : Option (Nat × Damage)
  deriving DecidableEq

-- Takes `count` entries from `height` on, whose records follow one another in `data` from `offset`.
def recoverFrom (height offset : Nat) (previous : Option CompactBlock) :
    (count : Nat) → (index data : Bytes) → Recovered
  | 0, _, _ => ⟨[], [offset], none⟩
  | count + 1, index, data =>
    match verify height (index.take IndexEntry.encodedLength) data previous with
    | .error damage => ⟨[], [offset], some (height, damage)⟩
    | .ok (block, length) =>
      let later := recoverFrom (height + 1) (offset + length) (some block) count
        (index.drop IndexEntry.encodedLength) (data.drop length)
      ⟨block :: later.blocks, offset :: later.starts, later.damage⟩

def recover (first : Nat) (files : Files) : Recovered :=
  let count := files.index.length / IndexEntry.encodedLength
  let left := files.index.length % IndexEntry.encodedLength
  let found := recoverFrom first 0 none count files.index files.blocks
  if found.damage.isNone && left ≠ 0 then
    { found with damage := some (first + count, .trailingBytes left) }
  else found

def Recovered.chain (recovered : Recovered) (first : Nat) : HeldChain :=
  HeldChain.ofBlocks first recovered.starts recovered.blocks

end CompactChain.Store
