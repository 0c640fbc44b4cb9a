import CompactChain.Wire.Cursor
import CompactChain.Wire.ScriptNumber

set_option autoImplicit false

namespace CompactChain

inductive Overrun where
  | sum (first second : Nat)
  | difference (first second : Nat)
  | product (first second : Nat)
  | shift (amount : Nat)
  | signed (value : Int)
  | slice (start stop length : Nat)
  | copy (room length : Nat)
  | position (position length : Nat)
  deriving DecidableEq

namespace Word

def limit : Nat := 0x10000000000000000

def signedLimit : Int := 0x8000000000000000

def add (first second : Nat) : Except Overrun Nat :=
  if first + second < limit then .ok (first + second) else .error (.sum first second)

def sub (first second : Nat) : Except Overrun Nat :=
  if second ≤ first then .ok (first - second) else .error (.difference first second)

def mul (first second : Nat) : Except Overrun Nat :=
  if first * second < limit then .ok (first * second) else .error (.product first second)

def shiftLeft (word amount : Nat) : Except Overrun Nat :=
  if amount < 64 then .ok ((word <<< amount) % limit) else .error (.shift amount)

def signed (value : Int) : Except Overrun Int :=
  if -signedLimit ≤ value ∧ value < signedLimit then .ok value else .error (.signed value)

end Word

/-- What a computation comes to: it goes out of range, or else answers with an error or a value. -/
inductive Checked (α : Type) where
  | overrun (cause : Overrun)
  | error (cause : ParseError)
  | ok (value : α)
  deriving DecidableEq

namespace Checked

variable {α β : Type}

def bind (checked : Checked α) (f : α → Checked β) : Checked β :=
  match checked with
  | .overrun cause => .overrun cause
  | .error cause => .error cause
  | .ok value => f value

instance : Monad Checked where
  pure := .ok
  bind := bind

def step : Except Overrun α → Checked α
  | .error cause => .overrun cause
  | .ok value => .ok value

def ofAnswer : Except ParseError α → Checked α
  | .error cause => .error cause
  | .ok value => .ok value

end Checked

namespace Bytes

def slice (data : Bytes) (start stop : Nat) : Except Overrun Bytes :=
  if start ≤ stop ∧ stop ≤ data.length then .ok ((data.drop start).take (stop - start))
  else .error (.slice start stop data.length)

def copy (room : Nat) (bytes : Bytes) : Except Overrun Bytes :=
  if bytes.length = room then .ok bytes else .error (.copy room bytes.length)

end Bytes

def Guarded (α : Type) := Cursor → Checked (α × Cursor)

def Decoder (α : Type) := Bytes → Checked (α × Bytes)

namespace Guarded

variable {α β : Type}

def bind (guarded : Guarded α) (f : α → Guarded β) : Guarded β := fun cursor =>
  (guarded cursor).bind fun (value, cursor) => f value cursor

instance : Monad Guarded where
  pure value := fun cursor => pure (value, cursor)
  bind := bind

def ofChecked (checked : Checked α) : Guarded α := fun cursor =>
  checked.bind fun value => pure (value, cursor)

def step (result : Except Overrun α) : Guarded α :=
  ofChecked (.step result)

def fail (error : ParseError) : Guarded α :=
  ofChecked (.error error)

def here : Guarded Cursor := fun cursor => pure (cursor, cursor)

def moveTo (position : Nat) : Guarded Unit := fun cursor =>
  if position ≤ cursor.data.length then pure ((), { cursor with position := position })
  else .overrun (.position position cursor.data.length)

def take (count : Nat) (field : Field) : Guarded Bytes := do
  let cursor ← here
  if cursor.remaining < count then fail (.truncated field)
  else
    let stop ← step (Word.add cursor.position count)
    moveTo stop
    let taken ← step (Bytes.slice cursor.data cursor.position stop)
    step (Bytes.copy count taken)

def ofReader : Reader α → Guarded α
  | .done value => pure value
  | .fail error => fail error
  | .take count field next => bind (take count field) fun bytes => ofReader (next bytes)
  | .reserve _ _ next => ofReader next

def rest : Guarded Bytes := do
  let cursor ← here
  step (Bytes.slice cursor.data (min cursor.position cursor.data.length) cursor.data.length)

def advanceTo (left : Bytes) : Guarded Unit := do
  let cursor ← here
  let position ← step (Word.sub cursor.data.length left.length)
  moveTo position

def start (guarded : Guarded α) (data : Bytes) : Checked α :=
  (guarded (Cursor.ofBytes data)).bind fun (value, _) => pure value

def parse (guarded : Guarded α) : Decoder α :=
  start do
    let value ← guarded
    let left ← rest
    return (value, left)

def hand (decoder : Decoder α) : Guarded (α × Bytes) := do
  let data ← rest
  ofChecked (decoder data)

def nested (decoder : Decoder α) : Guarded α := do
  let (value, left) ← hand decoder
  advanceTo left
  return value

def timesAfter (items : List α) (item : Guarded α) : (count : Nat) → Guarded (List α)
  | 0 => pure items.reverse
  | count + 1 => bind item fun value => timesAfter (value :: items) item count

def times (count : Nat) (item : Guarded α) : Guarded (List α) :=
  timesAfter [] item count

end Guarded

namespace Decoder

variable {α β : Type}

def fail (error : ParseError) : Decoder α := fun _ => .error error

def map (f : α → β) (decoder : Decoder α) : Decoder β := fun data =>
  (decoder data).bind fun (value, left) => pure (f value, left)

def withBytes (decoder : Decoder α) : Decoder (Bytes × α) := fun data =>
  (decoder data).bind fun (value, left) => do
    let count ← .step (Word.sub data.length left.length)
    let taken ← .step (Bytes.slice data 0 count)
    return ((taken, value), left)

end Decoder

namespace ScriptNumber

-- Puts bytes together, each at its place; `size` is what those before `index` come to. The last one counts
-- without its top bit.
def gather (length index size : Nat) : Bytes → Except Overrun Nat
  | [] => .ok size
  | byte :: rest => do
    let last ← Word.sub length 1
    let bits := if index = last then byte.toNat % 128 else byte.toNat
    let place ← Word.mul 8 index
    let part ← Word.shiftLeft bits place
    gather length (index + 1) (size ||| part) rest

def decodeGuarded (bytes : Bytes) : Except Overrun (Option Int) :=
  match bytes.getLast? with
  | none => .ok none
  | some last =>
    if isMinimal bytes then do
      let size ← gather bytes.length 0 0 bytes
      if Word.signedLimit ≤ size then .ok none
      else if 128 ≤ last.toNat then (Word.signed (-size)).map some
      else .ok (some size)
    else .ok none

def readGuarded (field : Field) : Guarded Int := do
  let opcode ← .ofReader (Reader.u8 field)
  let n := opcode.toNat
  if n = 0x00 then return 0
  else if n = 0x4f then return -1
  else if 0x51 ≤ n ∧ n ≤ 0x60 then .step (Word.signed ((n : Int) - 0x50))
  else if n ≤ 8 then
    let bytes ← Guarded.take n field
    match ← Guarded.step (decodeGuarded bytes) with
    | some value => return value
    | none => .fail (.data (.nonMinimalNumber field))
  else .fail (.data (.unexpectedOpcode opcode field))

end ScriptNumber

end CompactChain
