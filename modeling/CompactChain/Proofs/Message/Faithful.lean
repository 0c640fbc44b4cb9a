import CompactChain.Proofs.Message.RoundTrip
import Mathlib.Algebra.Order.BigOperators.Group.List
import Mathlib.Algebra.Order.Ring.Nat

set_option autoImplicit false

namespace CompactChain

namespace Message

theorem varintLength_of_lt {n : Nat} (short : n < 128) : varintLength n = 1 := by
  have bits : n.log2 < 7 := by
    by_cases zero : n = 0
    next => simp [zero]
    next => exact (Nat.log2_lt zero).mpr short
  rw [varintLength, Nat.div_eq_of_lt bits]

theorem varintLength_of_le {n : Nat} (long : 128 ≤ n) :
    varintLength n = varintLength (n / 128) + 1 := by
  have some? : n / 128 ≠ 0 := by omega
  have low := Nat.log2_self_le some?
  have high := Nat.lt_log2_self (n := n / 128)
  have least : 2 ^ ((n / 128).log2 + 7) = 128 * 2 ^ (n / 128).log2 := by
    rw [Nat.pow_add, Nat.mul_comm]
  have most : 2 ^ ((n / 128).log2 + 7 + 1) = 128 * 2 ^ ((n / 128).log2 + 1) := by
    rw [Nat.add_right_comm, Nat.pow_add, Nat.mul_comm]
  have bits : n.log2 = (n / 128).log2 + 7 := by
    rw [Nat.log2_eq_iff (by omega), least, most]
    omega
  rw [varintLength, varintLength, bits, Nat.add_div_right _ (by decide)]

theorem length_writeVarintIn {room n : Nat} (fits : n < 2 ^ (7 * (room + 1))) :
    (writeVarintIn (room + 1) n).length = varintLength n := by
  induction room generalizing n with
  | zero =>
    have short : n < 128 := fits
    rw [writeVarintIn, if_pos short, List.length_singleton, varintLength_of_lt short]
  | succ room ih =>
    rw [writeVarintIn]
    by_cases short : n < 128
    next => rw [if_pos short, List.length_singleton, varintLength_of_lt short]
    next =>
      have split : 2 ^ (7 * (room + 1 + 1)) = 128 * 2 ^ (7 * (room + 1)) := by
        rw [show 7 * (room + 1 + 1) = 7 + 7 * (room + 1) by omega, Nat.pow_add]
      have quotient : n / 128 < 2 ^ (7 * (room + 1)) := by omega
      rw [if_neg short, List.length_cons, ih quotient, varintLength_of_le (Nat.le_of_not_lt short)]

theorem length_writeVarint {n : Nat} (fits : n < 2 ^ 64) : (writeVarint n).length = varintLength n :=
  length_writeVarintIn (Nat.lt_trans fits (by decide))

section Fields

variable {tag : Nat}

theorem Key.length_write {key : Key} (fits : key.tag < 2 ^ 29) : key.write.length = keyLength key := by
  have code := key.wire.code_lt
  apply length_writeVarint
  rw [Key.number]
  omega

theorem length_numberField (tagged : tag < 2 ^ 29) {value : Nat} (fits : value < 2 ^ 64) :
    (numberField tag value).length = numberFieldLength tag value := by
  unfold numberField numberFieldLength
  split
  · rfl
  · rw [List.length_append, Key.length_write tagged, length_writeVarint fits]

theorem length_delimitedField (tagged : tag < 2 ^ 29) {body : Bytes} (fits : body.length < 2 ^ 64) :
    (delimitedField tag body).length = delimitedFieldLength tag body.length := by
  rw [delimitedField, List.length_append, List.length_append, Key.length_write tagged,
    length_writeVarint fits, delimitedFieldLength]

theorem length_le_delimitedField (tag : Nat) (body : Bytes) :
    body.length ≤ (delimitedField tag body).length := by
  rw [delimitedField, List.length_append]
  exact Nat.le_add_left _ _

theorem le_delimitedFieldLength (tag length : Nat) : length ≤ delimitedFieldLength tag length :=
  Nat.le_add_left _ _

theorem le_bytesFieldLength (tag length : Nat) : length ≤ bytesFieldLength tag length := by
  unfold bytesFieldLength
  split
  next empty => exact Nat.le_of_eq empty
  next => exact le_delimitedFieldLength tag length

theorem length_bytesField (tagged : tag < 2 ^ 29) {value : Bytes}
    (fits : (bytesField tag value).length < 2 ^ 64 ∨ bytesFieldLength tag value.length < 2 ^ 64) :
    (bytesField tag value).length = bytesFieldLength tag value.length := by
  have written := length_le_bytesField tag value
  have told := le_bytesFieldLength tag value.length
  have within : value.length < 2 ^ 64 := by omega
  unfold bytesField bytesFieldLength
  by_cases empty : value = []
  next => rw [if_pos empty, if_pos (List.length_eq_zero_iff.mpr empty), List.length_nil]
  next =>
    rw [if_neg empty, if_neg (mt List.length_eq_zero_iff.mp empty), length_delimitedField tagged within]

section Inner

variable {α : Type} {encode : α → Bytes} {count : α → Nat} {items : List α}

theorem le_delimitedFieldLengths (tag : Nat) (count : α → Nat) {item : α} (member : item ∈ items) :
    count item ≤ (items.map fun item => delimitedFieldLength tag (count item)).foldl (· + ·) 0 := by
  rw [← List.sum_eq_foldl]
  have told := List.le_sum_of_mem (List.mem_map_of_mem (f := fun item =>
    delimitedFieldLength tag (count item)) member)
  exact Nat.le_trans (le_delimitedFieldLength tag (count item)) told

theorem length_delimitedFields (tagged : tag < 2 ^ 29)
    (counted : ∀ item, (encode item).length < 2 ^ 64 ∨ count item < 2 ^ 64 →
      (encode item).length = count item)
    (fits : (items.flatMap fun item => delimitedField tag (encode item)).length < 2 ^ 64 ∨
      (items.map fun item => delimitedFieldLength tag (count item)).foldl (· + ·) 0 < 2 ^ 64) :
    (items.flatMap fun item => delimitedField tag (encode item)).length =
      (items.map fun item => delimitedFieldLength tag (count item)).foldl (· + ·) 0 := by
  rw [List.length_flatMap, ← List.sum_eq_foldl]
  congr 1
  apply List.map_congr_left
  intro item member
  have written := length_le_delimitedFields tag encode member
  have told := le_delimitedFieldLengths tag count member
  have same := counted item (by omega)
  rw [length_delimitedField tagged (by omega), same]

end Inner

end Fields

end Message

open Message

-- A message is as long as its fields together. Each length that is written fits where one of the two
-- sums does, since it is part of both.

theorem ChainMetadata.length_encode (m : ChainMetadata) : m.encode.length = m.encodedLength := by
  rw [encode, encodedLength, List.length_append, length_numberField (by decide) (word_lt _),
    length_numberField (by decide) (word_lt _)]

theorem CompactSpend.length_encode {m : CompactSpend}
    (fits : m.encode.length < 2 ^ 64 ∨ m.encodedLength < 2 ^ 64) :
    m.encode.length = m.encodedLength :=
  length_bytesField (by decide) fits

theorem CompactOutput.length_encode {m : CompactOutput}
    (fits : m.encode.length < 2 ^ 64 ∨ m.encodedLength < 2 ^ 64) :
    m.encode.length = m.encodedLength := by
  simp only [encode, encodedLength, List.length_append] at fits ⊢
  rw [length_bytesField (by decide) (by omega), length_bytesField (by decide) (by omega),
    length_bytesField (by decide) (by omega)]

theorem CompactAction.length_encode {m : CompactAction}
    (fits : m.encode.length < 2 ^ 64 ∨ m.encodedLength < 2 ^ 64) :
    m.encode.length = m.encodedLength := by
  simp only [encode, encodedLength, List.length_append] at fits ⊢
  rw [length_bytesField (by decide) (by omega), length_bytesField (by decide) (by omega),
    length_bytesField (by decide) (by omega), length_bytesField (by decide) (by omega)]

theorem CompactTx.length_encode {m : CompactTx}
    (fits : m.encode.length < 2 ^ 64 ∨ m.encodedLength < 2 ^ 64) :
    m.encode.length = m.encodedLength := by
  simp only [encode, encodedLength, List.length_append] at fits ⊢
  rw [length_numberField (by decide) m.index.toNat_lt, length_bytesField (by decide) (by omega),
    length_numberField (by decide) (word_lt _),
    length_delimitedFields (by decide) (fun _ => CompactSpend.length_encode) (by omega),
    length_delimitedFields (by decide) (fun _ => CompactOutput.length_encode) (by omega),
    length_delimitedFields (by decide) (fun _ => CompactAction.length_encode) (by omega)]

namespace CompactBlock

theorem length_metadataField {metadata : Option ChainMetadata}
    (fits : (metadata.elim [] fun metadata => delimitedField 8 metadata.encode).length < 2 ^ 64 ∨
      (metadata.elim 0 fun metadata => delimitedFieldLength 8 metadata.encodedLength) < 2 ^ 64) :
    (metadata.elim [] fun metadata => delimitedField 8 metadata.encode).length =
      metadata.elim 0 fun metadata => delimitedFieldLength 8 metadata.encodedLength := by
  cases metadata with
  | none => rfl
  | some metadata =>
    simp only [Option.elim_some] at fits ⊢
    have same := metadata.length_encode
    have written := length_le_delimitedField 8 metadata.encode
    have told := le_delimitedFieldLength 8 metadata.encodedLength
    rw [length_delimitedField (by decide) (by omega), same]

theorem length_encode {m : CompactBlock}
    (fits : m.encode.length < 2 ^ 64 ∨ m.encodedLength < 2 ^ 64) :
    m.encode.length = m.encodedLength := by
  simp only [encode, encodedLength, List.length_append] at fits ⊢
  rw [length_numberField (by decide) (word_lt _), length_numberField (by decide) m.height.toNat_lt,
    length_bytesField (by decide) (by omega), length_bytesField (by decide) (by omega),
    length_numberField (by decide) (word_lt _), length_bytesField (by decide) (by omega),
    length_delimitedFields (by decide) (fun _ => CompactTx.length_encode) (by omega),
    length_metadataField (by omega)]

theorem le_encodedLength_iff (m : CompactBlock) {bound : Nat} (word : bound ≤ 2 ^ 64) :
    bound ≤ m.encodedLength ↔ bound ≤ m.encode.length := by
  by_cases fits : m.encode.length < 2 ^ 64 ∨ m.encodedLength < 2 ^ 64
  next => rw [length_encode fits]
  next => omega

end CompactBlock

namespace Message

/-- Nothing of a message is lost on the wire. Lengths are written as numbers of sixty-four bits, so this
is said of encodings that are no longer than these can tell. -/
structure Faithful {α : Type} (encode : α → Bytes) (encodedLength : α → Nat)
    (decode : Bytes → Except DecodeError α) : Prop where
  decoded : ∀ m, (encode m).length < 2 ^ 64 → decode (encode m) = .ok m
  counted : ∀ m, (encode m).length < 2 ^ 64 → (encode m).length = encodedLength m
  distinct : ∀ m other, (encode m).length < 2 ^ 64 → m ≠ other → encode m ≠ encode other

theorem faithful {α : Type} {encode : α → Bytes} {encodedLength : α → Nat}
    {merge : Merge α} {start : α}
    (fields : ∀ m, (encode m).length < 2 ^ 64 → Fields merge start (encode m) m)
    (counted : ∀ m, (encode m).length < 2 ^ 64 ∨ encodedLength m < 2 ^ 64 →
      (encode m).length = encodedLength m) :
    Faithful encode encodedLength (mergeAll merge start) where
  decoded m fits := (fields m fits).mergeAll_eq
  counted m fits := counted m (.inl fits)
  distinct m other fits differ same := by
    have first := (fields m fits).mergeAll_eq
    have second := (fields other (same ▸ fits)).mergeAll_eq
    rw [← same] at second
    exact differ (Except.ok.inj (first.symm.trans second))

end Message

open Message

theorem CompactTx.length_encode_concat (tx : CompactTx) :
    { tx with spends := tx.spends ++ [({} : CompactSpend)] }.encode.length = tx.encode.length + 2 ∧
    { tx with outputs := tx.outputs ++ [({} : CompactOutput)] }.encode.length = tx.encode.length + 2 ∧
    { tx with actions := tx.actions ++ [({} : CompactAction)] }.encode.length =
      tx.encode.length + 2 := by
  have spend : (delimitedField 4 (CompactSpend.encode {})).length = 2 := rfl
  have output : (delimitedField 5 (CompactOutput.encode {})).length = 2 := rfl
  have action : (delimitedField 6 (CompactAction.encode {})).length = 2 := rfl
  simp only [encode, List.flatMap_append, List.flatMap_singleton, List.length_append, spend, output,
    action]
  omega

theorem CompactBlock.length_encode_concat (block : CompactBlock) :
    { block with transactions := block.transactions ++ [({} : CompactTx)] }.encode.length =
      block.encode.length + 2 := by
  have tx : (delimitedField 7 (CompactTx.encode {})).length = 2 := rfl
  simp only [encode, List.flatMap_append, List.flatMap_singleton, List.length_append, tx]
  omega

theorem CompactBlock.length_encode_metadata (block : CompactBlock) :
    { block with metadata := some {} }.encode.length =
      { block with metadata := none }.encode.length + 2 := by
  have metadata : (delimitedField 8 (ChainMetadata.encode {})).length = 2 := rfl
  simp only [encode, Option.elim_some, Option.elim_none, List.length_append, metadata,
    List.length_nil, Nat.add_zero]

theorem encodings_faithful :
    (Faithful ChainMetadata.encode ChainMetadata.encodedLength ChainMetadata.decode ∧
      Faithful CompactSpend.encode CompactSpend.encodedLength CompactSpend.decode ∧
      Faithful CompactOutput.encode CompactOutput.encodedLength CompactOutput.decode ∧
      Faithful CompactAction.encode CompactAction.encodedLength CompactAction.decode ∧
      Faithful CompactTx.encode CompactTx.encodedLength CompactTx.decode ∧
      Faithful CompactBlock.encode CompactBlock.encodedLength CompactBlock.decode) ∧
    (∀ tx : CompactTx,
      { tx with spends := tx.spends ++ [({} : CompactSpend)] }.encode.length =
        tx.encode.length + 2 ∧
      { tx with outputs := tx.outputs ++ [({} : CompactOutput)] }.encode.length =
        tx.encode.length + 2 ∧
      { tx with actions := tx.actions ++ [({} : CompactAction)] }.encode.length =
        tx.encode.length + 2) ∧
    ∀ block : CompactBlock,
      { block with transactions := block.transactions ++ [({} : CompactTx)] }.encode.length =
        block.encode.length + 2 ∧
      { block with metadata := some {} }.encode.length =
        { block with metadata := none }.encode.length + 2 := by
  refine ⟨⟨?metadata, ?spend, ?output, ?action, ?tx, ?block⟩, ?inTx, ?inBlock⟩
  case metadata => exact faithful (fun m _ => m.fields_encode 100) fun m _ => m.length_encode
  case spend =>
    exact faithful (fun _ => CompactSpend.fields_encode 100) fun _ => CompactSpend.length_encode
  case output =>
    exact faithful (fun _ => CompactOutput.fields_encode 100) fun _ => CompactOutput.length_encode
  case action =>
    exact faithful (fun _ => CompactAction.fields_encode 100) fun _ => CompactAction.length_encode
  case tx => exact faithful (fun _ => CompactTx.fields_encode 99) fun _ => CompactTx.length_encode
  case block =>
    exact faithful (fun _ => CompactBlock.fields_encode 98) fun _ => CompactBlock.length_encode
  case inTx => exact CompactTx.length_encode_concat
  case inBlock => exact fun block => ⟨block.length_encode_concat, block.length_encode_metadata⟩

theorem encodings_faithful_sample :
    let block : CompactBlock :=
      { height := 5, transactions := [{ actions := [{}] }], metadata := some {} }
    block.encode = [0x10, 5, 0x3a, 2, 0x32, 0, 0x42, 0] ∧
      CompactBlock.decode block.encode = .ok block := by
  intro block
  have encoded : block.encode = [0x10, 5, 0x3a, 2, 0x32, 0, 0x42, 0] := rfl
  have short : block.encode.length < 2 ^ 64 := by
    rw [encoded]
    decide
  exact ⟨encoded, encodings_faithful.1.2.2.2.2.2.decoded block short⟩

end CompactChain
