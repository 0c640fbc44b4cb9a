import CompactChain.Proofs.Chain.LeastLengths

set_option autoImplicit false

namespace CompactChain

def TransactionBody.lists (body : TransactionBody) : List (Nat × Nat) :=
  (body.inputs.length, TransparentInput.leastLength) ::
    (body.outputs.length, TransparentOutput.leastLength) ::
      body.orchard.toList.map fun bundle => (bundle.actions.length, Action.encodedLength)

def Block.lists (block : Block) : List (Nat × Nat) :=
  (block.transactions.length, Transaction.leastLength) ::
    block.transactions.flatMap fun tx => tx.lists

namespace Reader

variable {α β : Type} {before : List (Nat × Nat)}

/-- Whatever its requests are answered with, the reader goes on from each announcement with the list, and the
announcements until it is done with a value, behind those made before, are the `lists` of that value. -/
inductive Announces (lists : α → List (Nat × Nat)) : (before : List (Nat × Nat)) → Reader α → Prop
  | done {before : List (Nat × Nat)} (value : α) (same : lists value = before) :
      Announces lists before (.done value)
  | fail {before : List (Nat × Nat)} (error : ParseError) : Announces lists before (.fail error)
  | take {before : List (Nat × Nat)} {count : Nat} {field : Field} {next : Bytes → Reader α}
      (each : ∀ bytes, Announces lists before (next bytes)) :
      Announces lists before (.take count field next)
  | reserve {before : List (Nat × Nat)} {count width : Nat} {next : Reader α} {β : Type}
      {items : Reader (List β)} (counted : CountedList count width items) (begins : next.BeginsWith items)
      (later : Announces lists (before ++ [(count, width)]) next) :
      Announces lists before (.reserve count width next)

def Quiet (reader : Reader α) : Prop :=
  ∀ before, reader.Announces (fun _ => before) before

theorem Announces.bind {reader : Reader α} {first : α → List (Nat × Nat)}
    (announces : reader.Announces first before) {f : α → Reader β} {lists : β → List (Nat × Nat)}
    (each : ∀ value, (f value).Announces lists (first value)) : (reader >>= f).Announces lists before := by
  change (reader.bind f).Announces lists before
  induction announces with
  | done value same => exact same ▸ each value
  | fail error => exact .fail error
  | take _ ih => exact .take ih
  | reserve counted begins _ ih => exact .reserve counted (begins.bind f) ih

theorem Quiet.bind {reader : Reader α} (quiet : reader.Quiet) {f : α → Reader β}
    {lists : β → List (Nat × Nat)} (each : ∀ value, (f value).Announces lists before) :
    (reader >>= f).Announces lists before :=
  (quiet before).bind each

theorem Announces.withBytesAfter {reader : Reader α} {lists : α → List (Nat × Nat)}
    (announces : reader.Announces lists before) (chunks : List Bytes) :
    (reader.withBytesAfter chunks).Announces (fun found => lists found.2) before := by
  induction announces generalizing chunks with
  | done value same => exact .done _ same
  | fail error => exact .fail error
  | take _ ih => exact .take fun bytes => ih bytes _
  | reserve counted begins _ ih => exact .reserve counted (begins.withBytesAfter chunks) (ih chunks)

theorem announces_timesAfter {item : Reader α} (quiet : item.Quiet) {lists : List α → List (Nat × Nat)}
    (items : List α) (count : Nat)
    (same : ∀ found, found.length = items.length + count → lists found = before) :
    (timesAfter items item count).Announces lists before := by
  induction count generalizing items with
  | zero => exact .done _ (same _ List.length_reverse)
  | succ count ih =>
    refine quiet.bind fun value => ih (value :: items) fun found length => same found ?_
    rw [length, List.length_cons]
    omega

theorem announces_list {item : Reader α} {count width : Nat}
    (counted : CountedList count width (times count item)) (quiet : item.Quiet) :
    (list count width item).Announces (fun found => before ++ [(found.length, width)]) before := by
  refine .reserve counted (beginsWith_refl _) (announces_timesAfter quiet [] count fun found length => ?_)
  rw [length, List.length_nil, Nat.zero_add]

theorem quiet_bytes (count : Nat) (field : Field) : (bytes count field).Quiet :=
  fun _ => .take fun _ => .done _ rfl

theorem quiet_skip (count : Nat) (field : Field) : (skip count field).Quiet :=
  fun _ => .take fun _ => .done _ rfl

theorem quiet_u8 (field : Field) : (u8 field).Quiet :=
  fun _ => .take fun _ => .done _ rfl

theorem quiet_u32 (field : Field) : (u32 field).Quiet :=
  fun _ => .take fun _ => .done _ rfl

theorem quiet_u64 (field : Field) : (u64 field).Quiet :=
  fun _ => .take fun _ => .done _ rfl

theorem quiet_i32 (field : Field) : (i32 field).Quiet :=
  fun _ => (quiet_u32 field).bind fun _ => .done _ rfl

theorem quiet_i64 (field : Field) : (i64 field).Quiet :=
  fun _ => (quiet_u64 field).bind fun _ => .done _ rfl

theorem quiet_ofExcept (result : Except ParseError α) : (ofExcept result).Quiet := by
  intro before
  cases result with
  | error cause => exact .fail cause
  | ok value => exact .done value rfl

end Reader

namespace CompactSize

open Reader

variable (field : Field)

theorem quiet_accept (least value : Nat) : (accept field least value).Quiet := by
  intro before
  unfold accept
  split
  · exact .fail _
  split
  · exact .fail _
  · exact .done _ rfl

theorem quiet_read : (read field).Quiet := by
  intro before
  have word (width least : Nat) : (word field width least).Announces (fun _ => before) before :=
    .take fun bytes => quiet_accept field least (LittleEndian.toNat bytes) before
  refine (quiet_u8 field).bind fun marker => ?_
  split
  · exact word 2 _
  split
  · exact word 4 _
  split
  · exact word 8 _
  · exact quiet_accept field 0 marker.toNat before

theorem quiet_readPrefixed : (readPrefixed field).Quiet :=
  fun before => (quiet_read field).bind fun length => quiet_bytes length field before

theorem quiet_skipPrefixed : (skipPrefixed field).Quiet :=
  fun before => (quiet_read field).bind fun length => quiet_skip length field before

end CompactSize

open Reader CompactSize

theorem TransparentInput.quiet_read : read.Quiet :=
  fun _ => (quiet_skip _ _).bind fun _ => (quiet_skip _ _).bind fun _ =>
    (quiet_readPrefixed _).bind fun _ => (quiet_skip _ _).bind fun _ => .done _ rfl

theorem TransparentOutput.quiet_read : read.Quiet :=
  fun _ => (quiet_u64 _).bind fun _ => (quiet_skipPrefixed _).bind fun _ => .done _ rfl

theorem Action.quiet_read : read.Quiet :=
  fun _ => (quiet_skip _ _).bind fun _ => (quiet_bytes _ _).bind fun _ =>
    (quiet_skip _ _).bind fun _ => (quiet_bytes _ _).bind fun _ =>
      (quiet_bytes _ _).bind fun _ => (quiet_bytes _ _).bind fun _ =>
        (quiet_skip _ _).bind fun _ => .done _ rfl

variable {before : List (Nat × Nat)}

theorem OrchardBundle.announces_read (count : Nat) :
    (read count).Announces (fun bundle => before ++ [(bundle.actions.length, Action.encodedLength)]) before :=
  (announces_list (.actions count) Action.quiet_read).bind fun _ =>
    (quiet_skip _ _).bind fun _ => (quiet_i64 _).bind fun _ =>
      (quiet_bytes _ _).bind fun _ => (quiet_skipPrefixed _).bind fun _ =>
        (quiet_skip _ _).bind fun _ => (quiet_skip _ _).bind fun _ => .done _ rfl

namespace TransactionBody

theorem announces_readTransparent :
    readTransparent.Announces (fun found => before ++ [(found.1.length, TransparentInput.leastLength),
      (found.2.length, TransparentOutput.leastLength)]) before :=
  (CompactSize.quiet_read _).bind fun inputCount =>
    (announces_list (.inputs inputCount) TransparentInput.quiet_read).bind fun _ =>
      (CompactSize.quiet_read _).bind fun outputCount =>
        (announces_list (.outputs outputCount) TransparentOutput.quiet_read).bind fun _ =>
          .done _ (List.append_assoc before [_] [_]).symm

theorem quiet_expectGroup (expected found : UInt32) : (expectGroup expected found).Quiet := by
  intro before
  unfold expectGroup
  split
  · exact .done _ rfl
  · exact .fail _

theorem quiet_readEmptyPool (field : Field) (pool : ShieldedPool) : (readEmptyPool field pool).Quiet := by
  intro before
  refine (CompactSize.quiet_read field).bind fun count => ?_
  split
  · exact .done _ rfl
  · exact .fail _

theorem announces_readV4 (version group : UInt32) :
    (readV4 version group).Announces (fun body => before ++ body.lists) before :=
  (quiet_expectGroup _ _).bind fun _ => announces_readTransparent.bind fun _ =>
    (quiet_skip _ _).bind fun _ => (quiet_skip _ _).bind fun _ =>
      (quiet_skip _ _).bind fun _ => (quiet_readEmptyPool _ _).bind fun _ =>
        (quiet_readEmptyPool _ _).bind fun _ => (quiet_readEmptyPool _ _).bind fun _ => .done _ rfl

theorem quiet_readActionCount : readActionCount.Quiet := by
  intro before
  refine (CompactSize.quiet_read _).bind fun count => ?_
  split
  · exact .done _ rfl
  · exact .fail _

theorem announces_readOrchard :
    readOrchard.Announces (fun orchard => before ++
      orchard.toList.map fun bundle => (bundle.actions.length, Action.encodedLength)) before := by
  refine quiet_readActionCount.bind fun count => ?_
  split
  · exact .done _ (List.append_nil before)
  · exact (OrchardBundle.announces_read count).bind fun _ => .done _ rfl

theorem announces_readV5 (version group : UInt32) :
    (readV5 version group).Announces (fun body => before ++ body.lists) before :=
  (quiet_expectGroup _ _).bind fun _ => (quiet_u32 _).bind fun _ => (quiet_skip _ _).bind fun _ =>
    (quiet_skip _ _).bind fun _ => announces_readTransparent.bind fun _ =>
      (quiet_readEmptyPool _ _).bind fun _ => (quiet_readEmptyPool _ _).bind fun _ =>
        announces_readOrchard.bind fun _ => .done _ (List.append_assoc before [_, _] _).symm

theorem quiet_readVersion : readVersion.Quiet := by
  intro before
  refine (quiet_u32 _).bind fun header => ?_
  dsimp only
  split
  · exact .fail _
  split
  · exact .fail _
  · exact .done _ rfl

theorem announces_read : read.Announces (fun body => before ++ body.lists) before := by
  refine quiet_readVersion.bind fun version => (quiet_u32 _).bind fun group => ?_
  split
  · exact announces_readV4 version group
  · exact announces_readV5 version group

end TransactionBody

namespace Transaction

theorem announces_read (txid : Option Bytes) (before : List (Nat × Nat)) :
    (read txid).Announces (fun tx => before ++ tx.lists) before :=
  (quiet_ofExcept _).bind fun _ =>
    (TransactionBody.announces_read.withBytesAfter []).bind fun _ => .done _ rfl

theorem announces_readAlone (txids : Option (List Bytes)) (txVersion : Option UInt32) :
    (readAlone txids txVersion).Announces (fun tx => tx.lists) [] := by
  unfold readAlone
  split
  · exact .fail _
  split
  · exact announces_read none []
  · exact announces_read _ []
  · exact .fail _

end Transaction

namespace Block

theorem announces_readTransactions (txids : Option (List Bytes)) (read : List Transaction) (count : Nat)
    {lists : List Transaction → List (Nat × Nat)}
    (same : ∀ found, found.length = read.length + count →
      lists found = before ++ found.flatMap fun tx => tx.lists) :
    (readTransactions txids read count).Announces lists
      (before ++ read.reverse.flatMap fun tx => tx.lists) := by
  induction count generalizing txids read with
  | zero => exact .done _ (same _ List.length_reverse)
  | succ count ih =>
    refine (Transaction.announces_read _ _).bind fun tx => ?_
    have later := ih (txids.map List.tail) (tx :: read) fun found length => same found (by
      rw [length, List.length_cons]
      omega)
    rw [List.reverse_cons, List.flatMap_append, List.flatMap_singleton, ← List.append_assoc] at later
    exact later

theorem quiet_checkTxidCount (txids : Option (List Bytes)) (count : Nat) :
    (checkTxidCount txids count).Quiet := by
  intro before
  unfold checkTxidCount
  split
  · exact .done _ rfl
  split
  · exact .done _ rfl
  · exact .fail _

theorem quiet_readHeader : Header.read.Quiet := by
  intro before
  have fields : HeaderFields.read.Announces (fun _ => before) before :=
    (quiet_i32 _).bind fun _ => (quiet_bytes _ _).bind fun _ => (quiet_bytes _ _).bind fun _ =>
      (quiet_bytes _ _).bind fun _ => (quiet_u32 _).bind fun _ => (quiet_bytes _ _).bind fun _ =>
        (quiet_bytes _ _).bind fun _ => (quiet_readPrefixed _).bind fun _ => .done _ rfl
  exact (fields.withBytesAfter []).bind fun _ => .done _ rfl

theorem announces_read (txids : Option (List Bytes)) (txVersion : Option UInt32) :
    (read txids txVersion).Announces Block.lists [] := by
  unfold read
  split
  · exact .fail _
  next =>
    refine quiet_readHeader.bind fun _ => (CompactSize.quiet_read _).bind fun count =>
      (quiet_checkTxidCount txids count).bind fun _ => ?_
    have whole (found : List Transaction) (length : found.length = 0 + count) :
        (found.length, Transaction.leastLength) :: found.flatMap (fun tx => tx.lists) =
          [(count, Transaction.leastLength)] ++ found.flatMap fun tx => tx.lists := by
      rw [length, Nat.zero_add, List.singleton_append]
    have listed : (Reader.reserve count Transaction.leastLength
        (readTransactions txids [] count)).Announces
        (fun found => (found.length, Transaction.leastLength) :: found.flatMap fun tx => tx.lists) [] :=
      .reserve (.transactions txids count) (beginsWith_refl _)
        (announces_readTransactions txids [] count whole)
    exact listed.bind fun _ => (quiet_ofExcept _).bind fun _ => .done _ rfl

end Block

end CompactChain
