import CompactChain.Store.Recovery

set_option autoImplicit false

namespace CompactChain.Store

inductive Stop where
  | noRoom
  | noStart (place : Nat)
  | offsetTooLarge
  | recordTooShort
  | hashLength (length : Nat)
  deriving DecidableEq

-- What a block takes in a list of blocks, in bytes.
def blockSize : Nat := 128

-- No more bytes of memory than this may be asked for at once. Fewer may be refused too, where no memory
-- is left; that is not told here.
def roomLimit : Nat := 0x7fffffffffffffff

def offsetLimit : Nat := 0x10000000000000000

def makeRoom (expected entries : Nat) : Except Stop Unit :=
  if max expected entries * blockSize ≤ roomLimit then .ok () else .error .noRoom

def entriesOf : (count : Nat) → (index : Bytes) → List Bytes
  | 0, _ => []
  | count + 1, index =>
    index.take IndexEntry.encodedLength :: entriesOf count (index.drop IndexEntry.encodedLength)

def lookUp (height : Nat) (rawEntry data : Bytes) (offset : Nat) : Except Stop Unit :=
  match IndexEntry.read? rawEntry with
  | none => .ok ()
  | some entry =>
    if entry.height.toNat ≠ height then .ok ()
    else
      let stop := offset + (checksumLength + entry.bodyLength.toNat)
      if offsetLimit ≤ stop then .error .offsetTooLarge
      else if stop ≤ data.length ∧ ((data.take stop).drop offset).length < checksumLength then
        .error .recordTooShort
      else .ok ()

-- `held` are the blocks taken before, and `starts` where their records start and the last one ends.
def recoverAt (first : Nat) (data : Bytes) (held : List CompactBlock) (starts : List Nat) :
    (entries : List Bytes) → Except Stop Recovered
  | [] => .ok ⟨held, starts, none⟩
  | entry :: later =>
    let height := first + held.length
    match starts[held.length]? with
    | none => .error (.noStart held.length)
    | some offset =>
      match lookUp height entry data offset with
      | .error stop => .error stop
      | .ok () =>
        match verify height entry (data.drop offset) held.getLast? with
        | .error damage => .ok ⟨held, starts, some (height, damage)⟩
        | .ok (block, length) =>
          recoverAt first data (held ++ [block]) (starts ++ [offset + length]) later

def Recovered.checkLatest (recovered : Recovered) : Except Stop Recovered :=
  match recovered.blocks.getLast? with
  | none => .ok recovered
  | some block =>
    if block.hash.length = 32 then .ok recovered else .error (.hashLength block.hash.length)

def Recovered.withTrailing (recovered : Recovered) (height left : Nat) : Recovered :=
  if recovered.damage.isNone && left ≠ 0 then
    { recovered with damage := some (height, .trailingBytes left) }
  else recovered

def recoverGuarded (expected first : Nat) (files : Files) : Except Stop Recovered := do
  let count := files.index.length / IndexEntry.encodedLength
  let left := files.index.length % IndexEntry.encodedLength
  makeRoom expected count
  let found ← recoverAt first files.blocks [] [0] (entriesOf count files.index)
  (found.withTrailing (first + count) left).checkLatest

end CompactChain.Store
