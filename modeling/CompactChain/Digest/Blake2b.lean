import CompactChain.Bytes

set_option autoImplicit false

namespace CompactChain.Blake2b

abbrev Row := List UInt64

def initialWords : List UInt64 :=
  [0x6a09e667f3bcc908, 0xbb67ae8584caa73b,
   0x3c6ef372fe94f82b, 0xa54ff53a5f1d36f1,
   0x510e527fade682d1, 0x9b05688c2b3e6c1f,
   0x1f83d9abfb41bd6b, 0x5be0cd19137e2179]

def schedule : List (List Nat) :=
  let orders : List (List Nat) :=
    [[0, 1, 2, 3, 4, 5, 6, 7, 8, 9, 10, 11, 12, 13, 14, 15],
     [14, 10, 4, 8, 9, 15, 13, 6, 1, 12, 0, 2, 11, 7, 5, 3],
     [11, 8, 12, 0, 5, 2, 15, 13, 10, 14, 3, 6, 7, 1, 9, 4],
     [7, 9, 3, 1, 13, 12, 11, 14, 2, 6, 5, 10, 4, 0, 15, 8],
     [9, 0, 5, 7, 2, 4, 10, 15, 14, 1, 11, 12, 6, 8, 3, 13],
     [2, 12, 6, 10, 0, 11, 8, 3, 4, 13, 7, 5, 15, 14, 1, 9],
     [12, 5, 1, 15, 14, 13, 4, 10, 0, 7, 6, 3, 9, 2, 8, 11],
     [13, 11, 7, 14, 12, 1, 3, 9, 5, 0, 15, 4, 8, 6, 2, 10],
     [6, 15, 14, 9, 11, 3, 0, 8, 12, 2, 13, 7, 1, 4, 10, 5],
     [10, 2, 8, 4, 7, 6, 1, 5, 15, 11, 9, 14, 3, 12, 13, 0]]
  orders ++ orders.take 2

def rotateRight (n : UInt64) (x : UInt64) : UInt64 :=
  (x >>> n) ||| (x <<< (64 - n))

def add (x y : Row) : Row :=
  x.zipWith (· + ·) y

def turn (n : UInt64) (x y : Row) : Row :=
  x.zipWith (fun u v => rotateRight n (u ^^^ v)) y

structure Square where
  a : Row
  b : Row
  c : Row
  d : Row
  deriving DecidableEq

def mix (s : Square) (even odd : Row) : Square :=
  let a := add (add s.a s.b) even
  let d := turn 32 s.d a
  let c := add s.c d
  let b := turn 24 s.b c
  let a := add (add a b) odd
  let d := turn 16 d a
  let c := add c d
  let b := turn 63 b c
  ⟨a, b, c, d⟩

def shift (n : Nat) (row : Row) : Row :=
  row.drop n ++ row.take n

def evens : Row → Row
  | x :: _ :: rest => x :: evens rest
  | rest => rest

def odds : Row → Row
  | _ :: y :: rest => y :: odds rest
  | _ => []

def round (block : List UInt64) (s : Square) (order : List Nat) : Square :=
  let words := order.map fun i => block.getD i 0
  let columns := words.take 8
  let diagonals := words.drop 8
  let s := mix s (evens columns) (odds columns)
  let s := mix ⟨s.a, shift 1 s.b, shift 2 s.c, shift 3 s.d⟩ (evens diagonals) (odds diagonals)
  ⟨s.a, shift 3 s.b, shift 2 s.c, shift 1 s.d⟩

def compress (state : List UInt64) (block : List UInt64) (counted : Nat) (isLast : Bool) :
    List UInt64 :=
  let flags := [UInt64.ofNat counted, UInt64.ofNat (counted / 0x10000000000000000), if isLast then ~~~0 else 0, 0]
  let start : Square :=
    ⟨state.take 4, state.drop 4, initialWords.take 4,
     (initialWords.drop 4).zipWith (· ^^^ ·) flags⟩
  let s := schedule.foldl (round block) start
  state.zipWith (· ^^^ ·) ((s.a ++ s.b).zipWith (· ^^^ ·) (s.c ++ s.d))

def words : (count : Nat) → Bytes → List UInt64
  | 0, _ => []
  | count + 1, block => UInt64.ofNat (LittleEndian.toNat (block.take 8)) :: words count (block.drop 8)

def absorb (state : List UInt64) (counted : Nat) : (blocks : Nat) → Bytes → List UInt64
  | 0, message =>
    let block := message ++ List.replicate (128 - message.length) 0
    compress state (words 16 block) (counted + message.length) true
  | blocks + 1, message =>
    let state := compress state (words 16 (message.take 128)) (counted + 128) false
    absorb state (counted + 128) blocks (message.drop 128)

def start : List UInt64 :=
  match initialWords with
  | first :: rest => (first ^^^ 0x01010020) :: rest
  | [] => []

def digest (message : Bytes) : Bytes :=
  let state := absorb start 0 ((message.length - 1) / 128) message
  [state.getD 0 0, state.getD 1 0, state.getD 2 0, state.getD 3 0].flatMap
    fun word => LittleEndian.ofNat 8 word.toNat

@[simp] theorem length_digest (message : Bytes) : (digest message).length = 32 := by
  simp [digest]

end CompactChain.Blake2b
