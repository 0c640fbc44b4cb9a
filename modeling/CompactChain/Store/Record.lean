import CompactChain.Digest.Blake2b

set_option autoImplicit false

namespace CompactChain.Store

structure IndexEntry where
  height : UInt32
  bodyLength : UInt32
  hash : Bytes
  deriving DecidableEq

namespace IndexEntry

def tag : UInt8 := 1

def encodedLength : Nat := 1 + 4 + 4 + 32

def write (entry : IndexEntry) : Bytes :=
  tag :: LittleEndian.ofNat 4 entry.height.toNat ++
    LittleEndian.ofNat 4 entry.bodyLength.toNat ++ entry.hash

def read? (bytes : Bytes) : Option IndexEntry :=
  match bytes with
  | [] => none
  | first :: rest =>
    if first = tag then
      some {
        height := UInt32.ofNat (LittleEndian.toNat (rest.take 4))
        bodyLength := UInt32.ofNat (LittleEndian.toNat ((rest.drop 4).take 4))
        hash := (rest.drop 8).take 32 }
    else none

end IndexEntry

def checksumLength : Nat := 32

def checksum (height : Nat) (body : Bytes) : Bytes :=
  Blake2b.digest (LittleEndian.ofNat 8 height ++ body)

def record (height : Nat) (body : Bytes) : Bytes :=
  checksum height body ++ body

theorem length_record (height : Nat) (body : Bytes) :
    (record height body).length = checksumLength + body.length := by
  simp [record, checksum, checksumLength]

end CompactChain.Store
