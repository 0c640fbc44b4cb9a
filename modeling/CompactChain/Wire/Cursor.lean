import CompactChain.Wire.Reader

set_option autoImplicit false

namespace CompactChain

structure Cursor where
  data : Bytes
  position : Nat
  deriving DecidableEq

namespace Cursor

def ofBytes (data : Bytes) : Cursor :=
  ⟨data, 0⟩

def rest (cursor : Cursor) : Bytes :=
  cursor.data.drop cursor.position

def remaining (cursor : Cursor) : Nat :=
  cursor.rest.length

-- A reading that fails leaves the cursor after the requests that were met.
def read {α : Type} (cursor : Cursor) (reader : Reader α) : Except ParseError α × Cursor :=
  let (answer, rest) := reader.run cursor.rest
  (answer, ⟨cursor.data, cursor.position + (cursor.remaining - rest.length)⟩)

def capacity (cursor : Cursor) (count width : Nat) : Nat :=
  Reader.capacity cursor.remaining count width

end Cursor

end CompactChain
