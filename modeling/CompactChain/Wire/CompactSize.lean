import CompactChain.Wire.Reader

set_option autoImplicit false

namespace CompactChain.CompactSize

def limit : Nat := 0x02000000

def accept (field : Field) (least value : Nat) : Reader Nat :=
  if value < least then .fail (.compactSize field .nonCanonical)
  else if limit < value then .fail (.compactSize field .tooLarge)
  else .done value

def word (field : Field) (width least : Nat) : Reader Nat :=
  .take width field fun bytes => accept field least (LittleEndian.toNat bytes)

def read (field : Field) : Reader Nat := do
  let marker ← Reader.u8 field
  if marker = 0xfd then word field 2 0xfd
  else if marker = 0xfe then word field 4 0x10000
  else if marker = 0xff then word field 8 0x100000000
  else accept field 0 marker.toNat

def write (size : Nat) : Bytes :=
  if size < 0xfd then [UInt8.ofNat size]
  else if size < 0x10000 then 0xfd :: LittleEndian.ofNat 2 size
  else if size < 0x100000000 then 0xfe :: LittleEndian.ofNat 4 size
  else 0xff :: LittleEndian.ofNat 8 size

def readPrefixed (field : Field) : Reader Bytes := do
  let length ← read field
  Reader.bytes length field

def skipPrefixed (field : Field) : Reader Unit := do
  let length ← read field
  Reader.skip length field

end CompactChain.CompactSize
