import CompactChain.Wire.Error

set_option autoImplicit false

namespace CompactChain

inductive Reader (α : Type) where
  | done (value : α)
  | fail (error : ParseError)
  | take (count : Nat) (field : Field) (next : Bytes → Reader α)
  -- Announces `count` items of at least `width` bytes each; reads nothing.
  | reserve (count width : Nat) (next : Reader α)

namespace Reader

variable {α β : Type}

def bind : Reader α → (α → Reader β) → Reader β
  | done value, f => f value
  | fail error, _ => fail error
  | take count field next, f => take count field fun bytes => (next bytes).bind f
  | reserve count width next, f => reserve count width (next.bind f)

instance : Monad Reader where
  pure := done
  bind := bind

-- The answer, and the input that is left, also when reading fails.
def run : Reader α → Bytes → Except ParseError α × Bytes
  | done value, input => (.ok value, input)
  | fail error, input => (.error error, input)
  | take count field next, input =>
    let taken := input.take count
    if taken.length = count then (next taken).run (input.drop count)
    else (.error (.truncated field), input)
  | reserve _ _ next, input => next.run input

def parse (reader : Reader α) (input : Bytes) : Except ParseError (α × Bytes) :=
  match reader.run input with
  | (.ok value, rest) => .ok (value, rest)
  | (.error error, _) => .error error

theorem run_bind (reader : Reader α) (f : α → Reader β) (input : Bytes) :
    (reader.bind f).run input =
      match reader.run input with
      | (.ok value, rest) => (f value).run rest
      | (.error error, rest) => (.error error, rest) := by
  induction reader generalizing input with
  | done value => rfl
  | fail error => rfl
  | take count field next ih =>
    simp only [bind, run]
    split
    · exact ih _ _
    · rfl
  | reserve count width next ih => exact ih input

def capacity (left count width : Nat) : Nat :=
  min count (left / max width 1)

structure Reservation where
  count : Nat
  width : Nat
  left : Nat
  deriving DecidableEq

def reservations : Reader α → Bytes → List Reservation
  | done _, _ => []
  | fail _, _ => []
  | take count _ next, input =>
    let taken := input.take count
    if taken.length = count then (next taken).reservations (input.drop count) else []
  | reserve count width next, input =>
    ⟨count, width, input.length⟩ :: next.reservations input

def ofExcept : Except ParseError α → Reader α
  | .ok value => done value
  | .error error => fail error

def bytes (count : Nat) (field : Field) : Reader Bytes :=
  take count field done

def skip (count : Nat) (field : Field) : Reader Unit :=
  take count field fun _ => done ()

def u8 (field : Field) : Reader UInt8 :=
  take 1 field fun bytes => done (bytes.headD 0)

def u16 (field : Field) : Reader UInt16 :=
  take 2 field fun bytes => done (UInt16.ofNat (LittleEndian.toNat bytes))

def u32 (field : Field) : Reader UInt32 :=
  take 4 field fun bytes => done (UInt32.ofNat (LittleEndian.toNat bytes))

def u64 (field : Field) : Reader UInt64 :=
  take 8 field fun bytes => done (UInt64.ofNat (LittleEndian.toNat bytes))

def i32 (field : Field) : Reader Int32 :=
  return (← u32 field).toInt32

def i64 (field : Field) : Reader Int64 :=
  return (← u64 field).toInt64

def timesAfter (items : List α) (item : Reader α) : (count : Nat) → Reader (List α)
  | 0 => done items.reverse
  | count + 1 => item.bind fun value => timesAfter (value :: items) item count

def times (count : Nat) (item : Reader α) : Reader (List α) :=
  timesAfter [] item count

def list (count width : Nat) (item : Reader α) : Reader (List α) :=
  reserve count width (times count item)

def withBytesAfter (chunks : List Bytes) : Reader α → Reader (Bytes × α)
  | done value => done (chunks.reverse.flatten, value)
  | fail error => fail error
  | take count field next => take count field fun bytes => (next bytes).withBytesAfter (bytes :: chunks)
  | reserve count width next => reserve count width (next.withBytesAfter chunks)

def withBytes (reader : Reader α) : Reader (Bytes × α) :=
  reader.withBytesAfter []

end Reader

end CompactChain
