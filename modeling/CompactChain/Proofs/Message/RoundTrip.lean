import CompactChain.Message.Decode
import CompactChain.Message.Encode
import Mathlib.Algebra.GroupWithZero.Nat

set_option autoImplicit false

namespace CompactChain

namespace Message

theorem length_writeVarint_pos (n : Nat) : 0 < (writeVarint n).length := by
  unfold writeVarint writeVarintIn
  split <;> simp

-- The last of the bytes may hold one bit only, those before it seven each.
theorem readVarintIn_writeVarintIn {room n : Nat} (fits : n < 2 ^ (7 * room + 1)) (rest : Bytes) :
    readVarintIn (room + 1) (writeVarintIn (room + 1) n ++ rest) = .ok (n, rest) := by
  induction room generalizing n with
  | zero =>
    have small : n < 2 := by simpa using fits
    have byte : (UInt8.ofNat n).toNat = n := by
      rw [UInt8.toNat_ofNat']
      omega
    have last : ¬ 1 < n := by omega
    have short : n < 128 := by omega
    simp [writeVarintIn, readVarintIn, short, byte, last]
  | succ room ih =>
    by_cases short : n < 128
    · have byte : (UInt8.ofNat n).toNat = n := by
        rw [UInt8.toNat_ofNat']
        omega
      rw [writeVarintIn, if_pos short]
      simp [readVarintIn, byte, short]
    · have byte : (UInt8.ofNat (128 + n % 128)).toNat = 128 + n % 128 := by
        rw [UInt8.toNat_ofNat']
        omega
      have long : ¬ 128 + n % 128 < 128 := by omega
      have quotient : n / 128 < 2 ^ (7 * room + 1) := by
        have split : 2 ^ (7 * (room + 1) + 1) = 128 * 2 ^ (7 * room + 1) := by
          rw [show 7 * (room + 1) + 1 = 7 + (7 * room + 1) by omega, Nat.pow_add]
        omega
      have whole : n % 128 + 128 * (n / 128) = n := Nat.mod_add_div n 128
      rw [writeVarintIn, if_neg short, List.cons_append, readVarintIn, byte, if_neg (by omega),
        if_neg long, ih quotient]
      simp [whole]

theorem readVarint_writeVarint {n : Nat} (fits : n < 2 ^ 64) (rest : Bytes) :
    readVarint (writeVarint n ++ rest) = .ok (n, rest) :=
  @readVarintIn_writeVarintIn 9 n fits rest

theorem WireType.code_lt (wire : WireType) : wire.code < 8 := by
  cases wire <;> decide

theorem Key.read_write {key : Key} (positive : 0 < key.tag) (fits : key.tag < 2 ^ 29)
    (rest : Bytes) : Key.read (key.write ++ rest) = .ok (key, rest) := by
  obtain ⟨tag, wire⟩ := key
  have low := wire.code_lt
  have number : (8 * tag + wire.code) % 8 = wire.code := by omega
  have tagged : (8 * tag + wire.code) / 8 = tag := by omega
  have word : 8 * tag + wire.code < 2 ^ 64 := by simp only at fits; omega
  have within : ¬ 0x100000000 ≤ 8 * tag + wire.code := by simp only at fits; omega
  have present : tag ≠ 0 := by simp only at positive; omega
  rw [Key.read, Key.write, Key.number, readVarint_writeVarint word]
  simp only [if_neg within, number, WireType.ofCode?_code, tagged, if_neg present]

theorem readNumber_writeVarint {n : Nat} (fits : n < 2 ^ 64) (rest : Bytes) :
    readNumber .varint (writeVarint n ++ rest) = .ok (n, rest) :=
  readVarint_writeVarint fits rest

theorem readBytes_delimited {value : Bytes} (fits : value.length < 2 ^ 64) (rest : Bytes) :
    readBytes .lengthDelimited (writeVarint value.length ++ value ++ rest) = .ok (value, rest) := by
  have length := readVarint_writeVarint fits (value ++ rest)
  have within : ¬ (value ++ rest).length < value.length := by simp
  rw [List.append_assoc, readBytes]
  simp only [expect, bind, Except.bind, if_true, length, if_neg within]
  simp [pure, Except.pure]

def Takes {α : Type} (merge : Merge α) (before : α) (field : Bytes) (after : α) : Prop :=
  0 < field.length ∧ ∀ tail, ∃ key rest,
    Key.read (field ++ tail) = .ok (key, rest) ∧ merge key before rest = .ok (after, tail)

inductive Fields {α : Type} (merge : Merge α) : α → Bytes → α → Prop where
  | nil (message : α) : Fields merge message [] message
  | cons {before between after : α} {field rest : Bytes} :
    Takes merge before field between → Fields merge between rest after →
      Fields merge before (field ++ rest) after

namespace Fields

variable {α : Type} {merge : Merge α}

theorem append {before between after : α} {first second : Bytes}
    (head : Fields merge before first between) (rest : Fields merge between second after) :
    Fields merge before (first ++ second) after := by
  induction head with
  | nil => exact rest
  | cons takes _ ih =>
    rw [List.append_assoc]
    exact cons takes (ih rest)

theorem single {before after : α} {field : Bytes} (takes : Takes merge before field after) :
    Fields merge before field after := by
  simpa using cons takes (nil after)

-- What follows the run is the limit, so that reading stops behind the last field.
theorem mergeFields_eq {before after : α} {bytes : Bytes} (fields : Fields merge before bytes after)
    (tail : Bytes) {fuel : Nat} (enough : bytes.length ≤ fuel) :
    mergeFields merge tail.length fuel before (bytes ++ tail) = .ok (after, tail) := by
  induction fields generalizing fuel with
  | nil => cases fuel <;> simp [mergeFields]
  | @cons before between after field rest takes _ ih =>
    obtain ⟨positive, reads⟩ := takes
    obtain ⟨key, input, read, changed⟩ := reads (rest ++ tail)
    rw [List.length_append] at enough
    cases fuel with
    | zero => omega
    | succ fuel =>
      have more : ¬ ((field ++ rest) ++ tail).length ≤ tail.length := by
        simp only [List.length_append]
        omega
      rw [mergeFields, if_neg more, List.append_assoc, read]
      simp only [bind, Except.bind, changed]
      exact ih (by omega)

theorem mergeAll_eq {before after : α} {bytes : Bytes} (fields : Fields merge before bytes after) :
    mergeAll merge before bytes = .ok after := by
  have merged := fields.mergeFields_eq [] (Nat.le_refl _)
  simp only [List.length_nil, List.append_nil] at merged
  rw [mergeAll, merged]

theorem mergeInner_eq {inner : Nat → Merge α} {budget : Nat} {before after : α} {bytes : Bytes}
    (fields : Fields (inner budget) before bytes after) (fits : bytes.length < 2 ^ 64)
    (tail : Bytes) :
    mergeInner inner .lengthDelimited before (writeVarint bytes.length ++ bytes ++ tail)
      (budget + 1) = .ok (after, tail) := by
  have length := readVarint_writeVarint fits (bytes ++ tail)
  have merged := fields.mergeFields_eq tail
    (show bytes.length ≤ (bytes ++ tail).length by simp)
  have limit : (bytes ++ tail).length - bytes.length = tail.length := by simp
  have within : ¬ (bytes ++ tail).length < bytes.length := by simp
  rw [List.append_assoc, mergeInner]
  simp only [expect, bind, Except.bind, if_true, length, if_neg within, limit, merged]
  rfl

theorem number {before after : α} {message field : String} {tag value : Nat} (set : Nat → α)
    (step : ∀ input, merge ⟨tag, .varint⟩ before input =
      mergeWith message field (readNumber .varint input) set)
    (absent : set 0 = before) (present : set value = after) (tagged : 0 < tag ∧ tag < 2 ^ 29)
    (fits : value < 2 ^ 64) : Fields merge before (numberField tag value) after := by
  unfold numberField
  split
  next zero =>
    rw [← present, zero, absent]
    exact nil before
  next =>
    apply single
    constructor
    · have := length_writeVarint_pos value
      simp only [List.length_append]
      omega
    · intro tail
      refine ⟨⟨tag, .varint⟩, writeVarint value ++ tail, ?_, ?_⟩
      · rw [List.append_assoc]
        exact Key.read_write tagged.1 tagged.2 _
      · rw [step, readNumber_writeVarint fits, ← present]
        rfl

theorem takes_delimited {before after : α} {tag : Nat} {body : Bytes}
    (tagged : 0 < tag ∧ tag < 2 ^ 29)
    (step : ∀ tail, merge ⟨tag, .lengthDelimited⟩ before
      (writeVarint body.length ++ body ++ tail) = .ok (after, tail)) :
    Takes merge before (delimitedField tag body) after := by
  constructor
  · have := length_writeVarint_pos body.length
    simp only [delimitedField, List.length_append]
    omega
  · intro tail
    refine ⟨⟨tag, .lengthDelimited⟩, writeVarint body.length ++ body ++ tail, ?_, step tail⟩
    have read := Key.read_write (show 0 < (Key.mk tag .lengthDelimited).tag from tagged.1) tagged.2
      (writeVarint body.length ++ body ++ tail)
    simpa only [delimitedField, List.append_assoc] using read

theorem bytes {before after : α} {message field : String} {tag : Nat} {value : Bytes}
    (set : Bytes → α)
    (step : ∀ input, merge ⟨tag, .lengthDelimited⟩ before input =
      mergeWith message field (readBytes .lengthDelimited input) set)
    (absent : set [] = before) (present : set value = after) (tagged : 0 < tag ∧ tag < 2 ^ 29)
    (fits : value.length < 2 ^ 64) : Fields merge before (bytesField tag value) after := by
  unfold bytesField
  split
  next empty =>
    rw [← present, empty, absent]
    exact nil before
  next =>
    apply single
    apply takes_delimited tagged
    intro tail
    rw [step, readBytes_delimited fits, ← present]
    rfl

section Inner

variable {β : Type} {mergeItem : Nat → Merge β} {budget tag : Nat} {message field : String}
  {start : β}

theorem inner {before after : α} {item : β} {body : Bytes} (set : β → α)
    (step : ∀ input, merge ⟨tag, .lengthDelimited⟩ before input =
      mergeWith message field (mergeInner mergeItem .lengthDelimited start input (budget + 1)) set)
    (present : set item = after) (fields : Fields (mergeItem budget) start body item)
    (tagged : 0 < tag ∧ tag < 2 ^ 29) (fits : body.length < 2 ^ 64) :
    Takes merge before (delimitedField tag body) after := by
  apply takes_delimited tagged
  intro tail
  rw [step, fields.mergeInner_eq fits, ← present]
  rfl

variable {encode : β → Bytes} {items : List β}

theorem listAfter (set : List β → α)
    (step : ∀ known input, merge ⟨tag, .lengthDelimited⟩ (set known) input =
      mergeWith message field (mergeInner mergeItem .lengthDelimited start input (budget + 1))
        fun item => set (known ++ [item]))
    (each : ∀ item ∈ items, Fields (mergeItem budget) start (encode item) item)
    (tagged : 0 < tag ∧ tag < 2 ^ 29)
    (fits : ∀ item ∈ items, (encode item).length < 2 ^ 64) (known : List β) :
    Fields merge (set known) (items.flatMap fun item => delimitedField tag (encode item))
      (set (known ++ items)) := by
  induction items generalizing known with
  | nil => simpa using nil (set known)
  | cons item rest ih =>
    have later := ih (fun item member => each item (List.mem_cons_of_mem _ member))
      (fun item member => fits item (List.mem_cons_of_mem _ member)) (known ++ [item])
    rw [List.append_assoc, List.singleton_append] at later
    rw [List.flatMap_cons]
    exact cons (inner _ (step known) rfl (each item List.mem_cons_self) tagged
      (fits item List.mem_cons_self)) later

theorem list {before after : α} (set : List β → α)
    (step : ∀ known input, merge ⟨tag, .lengthDelimited⟩ (set known) input =
      mergeWith message field (mergeInner mergeItem .lengthDelimited start input (budget + 1))
        fun item => set (known ++ [item]))
    (absent : set [] = before) (present : set items = after)
    (each : ∀ item ∈ items, Fields (mergeItem budget) start (encode item) item)
    (tagged : 0 < tag ∧ tag < 2 ^ 29)
    (fits : ∀ item ∈ items, (encode item).length < 2 ^ 64) :
    Fields merge before (items.flatMap fun item => delimitedField tag (encode item)) after := by
  rw [← absent, ← present]
  exact listAfter set step each tagged fits []

end Inner

end Fields

theorem length_le_bytesField (tag : Nat) (value : Bytes) :
    value.length ≤ (bytesField tag value).length := by
  unfold bytesField delimitedField
  split
  next empty => simp [empty]
  next =>
    simp only [List.length_append]
    omega

theorem length_le_delimitedFields {β : Type} (tag : Nat) (encode : β → Bytes) {items : List β}
    {item : β} (member : item ∈ items) :
    (encode item).length ≤
      (items.flatMap fun item => delimitedField tag (encode item)).length := by
  induction items with
  | nil => simp at member
  | cons first rest ih =>
    simp only [List.flatMap_cons, List.length_append, delimitedField]
    cases List.mem_cons.mp member with
    | inl same => subst same; omega
    | inr later => have := ih later; simp only [delimitedField] at this; omega

end Message

open Message

theorem word_lt (n : UInt32) : n.toNat < 2 ^ 64 :=
  Nat.lt_trans n.toNat_lt (by decide)

-- Each message is told field by field: what it holds once that field has been read.

theorem ChainMetadata.fields_encode (budget : Nat) (m : ChainMetadata) :
    Fields (ChainMetadata.merge budget) {} m.encode m := by
  obtain ⟨sapling, orchard⟩ := m
  have saplingField : Fields (ChainMetadata.merge budget) {} (numberField 1 sapling.toNat)
      { saplingTreeSize := sapling } :=
    .number (fun n => { saplingTreeSize := UInt32.ofNat n }) (fun _ => rfl) rfl (by simp)
      (by decide) (word_lt sapling)
  have orchardField : Fields (ChainMetadata.merge budget) { saplingTreeSize := sapling }
      (numberField 2 orchard.toNat) ⟨sapling, orchard⟩ :=
    .number (fun n => ⟨sapling, UInt32.ofNat n⟩) (fun _ => rfl) rfl (by simp)
      (by decide) (word_lt orchard)
  exact saplingField.append orchardField

theorem CompactSpend.fields_encode (budget : Nat) {m : CompactSpend}
    (fits : m.encode.length < 2 ^ 64) : Fields (CompactSpend.merge budget) {} m.encode m := by
  have bound := length_le_bytesField 1 m.nullifier
  rw [encode] at fits
  exact .bytes (fun b => { nullifier := b }) (fun _ => rfl) rfl rfl (by decide) (by omega)

theorem CompactOutput.fields_encode (budget : Nat) {m : CompactOutput}
    (fits : m.encode.length < 2 ^ 64) : Fields (CompactOutput.merge budget) {} m.encode m := by
  obtain ⟨commitment, key, ciphertext⟩ := m
  have commitmentBound := length_le_bytesField 1 commitment
  have keyBound := length_le_bytesField 2 key
  have ciphertextBound := length_le_bytesField 3 ciphertext
  simp only [encode, List.length_append] at fits
  have commitmentField : Fields (CompactOutput.merge budget) {} (bytesField 1 commitment)
      { commitment := commitment } :=
    .bytes (fun b => { commitment := b }) (fun _ => rfl) rfl rfl (by decide) (by omega)
  have keyField : Fields (CompactOutput.merge budget) { commitment := commitment }
      (bytesField 2 key) { commitment := commitment, ephemeralKey := key } :=
    .bytes (fun b => { commitment := commitment, ephemeralKey := b }) (fun _ => rfl) rfl rfl
      (by decide) (by omega)
  have ciphertextField : Fields (CompactOutput.merge budget)
      { commitment := commitment, ephemeralKey := key } (bytesField 3 ciphertext)
      ⟨commitment, key, ciphertext⟩ :=
    .bytes (fun b => ⟨commitment, key, b⟩) (fun _ => rfl) rfl rfl (by decide) (by omega)
  exact (commitmentField.append keyField).append ciphertextField

theorem CompactAction.fields_encode (budget : Nat) {m : CompactAction}
    (fits : m.encode.length < 2 ^ 64) : Fields (CompactAction.merge budget) {} m.encode m := by
  obtain ⟨nullifier, commitment, key, ciphertext⟩ := m
  have nullifierBound := length_le_bytesField 1 nullifier
  have commitmentBound := length_le_bytesField 2 commitment
  have keyBound := length_le_bytesField 3 key
  have ciphertextBound := length_le_bytesField 4 ciphertext
  simp only [encode, List.length_append] at fits
  have nullifierField : Fields (CompactAction.merge budget) {} (bytesField 1 nullifier)
      { nullifier := nullifier } :=
    .bytes (fun b => { nullifier := b }) (fun _ => rfl) rfl rfl (by decide) (by omega)
  have commitmentField : Fields (CompactAction.merge budget) { nullifier := nullifier }
      (bytesField 2 commitment) { nullifier := nullifier, commitment := commitment } :=
    .bytes (fun b => { nullifier := nullifier, commitment := b }) (fun _ => rfl) rfl rfl
      (by decide) (by omega)
  have keyField : Fields (CompactAction.merge budget)
      { nullifier := nullifier, commitment := commitment } (bytesField 3 key)
      { nullifier := nullifier, commitment := commitment, ephemeralKey := key } :=
    .bytes (fun b => { nullifier := nullifier, commitment := commitment, ephemeralKey := b })
      (fun _ => rfl) rfl rfl (by decide) (by omega)
  have ciphertextField : Fields (CompactAction.merge budget)
      { nullifier := nullifier, commitment := commitment, ephemeralKey := key }
      (bytesField 4 ciphertext) ⟨nullifier, commitment, key, ciphertext⟩ :=
    .bytes (fun b => ⟨nullifier, commitment, key, b⟩) (fun _ => rfl) rfl rfl (by decide)
      (by omega)
  exact ((nullifierField.append commitmentField).append keyField).append ciphertextField

theorem CompactTx.fields_encode (budget : Nat) {m : CompactTx} (fits : m.encode.length < 2 ^ 64) :
    Fields (CompactTx.merge (budget + 1)) {} m.encode m := by
  obtain ⟨index, hash, fee, spends, outputs, actions⟩ := m
  have hashBound := length_le_bytesField 2 hash
  simp only [encode, List.length_append] at fits
  have spendFits : ∀ spend ∈ spends, spend.encode.length < 2 ^ 64 := fun spend member => by
    have := length_le_delimitedFields 4 CompactSpend.encode member
    omega
  have outputFits : ∀ output ∈ outputs, output.encode.length < 2 ^ 64 := fun output member => by
    have := length_le_delimitedFields 5 CompactOutput.encode member
    omega
  have actionFits : ∀ action ∈ actions, action.encode.length < 2 ^ 64 := fun action member => by
    have := length_le_delimitedFields 6 CompactAction.encode member
    omega
  have indexField : Fields (CompactTx.merge (budget + 1)) {} (numberField 1 index.toNat)
      ⟨index, [], 0, [], [], []⟩ :=
    .number (fun n => ⟨UInt64.ofNat n, [], 0, [], [], []⟩) (fun _ => rfl) rfl (by simp)
      (by decide) index.toNat_lt
  have hashField : Fields (CompactTx.merge (budget + 1)) ⟨index, [], 0, [], [], []⟩
      (bytesField 2 hash) ⟨index, hash, 0, [], [], []⟩ :=
    .bytes (fun b => ⟨index, b, 0, [], [], []⟩) (fun _ => rfl) rfl rfl (by decide) (by omega)
  have feeField : Fields (CompactTx.merge (budget + 1)) ⟨index, hash, 0, [], [], []⟩
      (numberField 3 fee.toNat) ⟨index, hash, fee, [], [], []⟩ :=
    .number (fun n => ⟨index, hash, UInt32.ofNat n, [], [], []⟩) (fun _ => rfl) rfl (by simp)
      (by decide) (word_lt fee)
  have spendFields : Fields (CompactTx.merge (budget + 1)) ⟨index, hash, fee, [], [], []⟩
      (spends.flatMap fun spend => delimitedField 4 spend.encode)
      ⟨index, hash, fee, spends, [], []⟩ :=
    .list (fun known => ⟨index, hash, fee, known, [], []⟩) (fun _ _ => rfl) rfl rfl
      (fun spend member => CompactSpend.fields_encode budget (spendFits spend member))
      (by decide) spendFits
  have outputFields : Fields (CompactTx.merge (budget + 1)) ⟨index, hash, fee, spends, [], []⟩
      (outputs.flatMap fun output => delimitedField 5 output.encode)
      ⟨index, hash, fee, spends, outputs, []⟩ :=
    .list (fun known => ⟨index, hash, fee, spends, known, []⟩) (fun _ _ => rfl) rfl rfl
      (fun output member => CompactOutput.fields_encode budget (outputFits output member))
      (by decide) outputFits
  have actionFields : Fields (CompactTx.merge (budget + 1))
      ⟨index, hash, fee, spends, outputs, []⟩
      (actions.flatMap fun action => delimitedField 6 action.encode)
      ⟨index, hash, fee, spends, outputs, actions⟩ :=
    .list (fun known => ⟨index, hash, fee, spends, outputs, known⟩) (fun _ _ => rfl) rfl rfl
      (fun action member => CompactAction.fields_encode budget (actionFits action member))
      (by decide) actionFits
  exact ((((indexField.append hashField).append feeField).append spendFields).append
    outputFields).append actionFields

theorem CompactBlock.fields_encode (budget : Nat) {m : CompactBlock}
    (fits : m.encode.length < 2 ^ 64) : Fields (CompactBlock.merge (budget + 2)) {} m.encode m := by
  obtain ⟨version, height, hash, prevHash, time, header, transactions, metadata⟩ := m
  have hashBound := length_le_bytesField 3 hash
  have prevHashBound := length_le_bytesField 4 prevHash
  have headerBound := length_le_bytesField 6 header
  simp only [encode, List.length_append] at fits
  have txFits : ∀ tx ∈ transactions, tx.encode.length < 2 ^ 64 := fun tx member => by
    have := length_le_delimitedFields 7 CompactTx.encode member
    omega
  have versionField : Fields (CompactBlock.merge (budget + 2)) {} (numberField 1 version.toNat)
      ⟨version, 0, [], [], 0, [], [], none⟩ :=
    .number (fun n => ⟨UInt32.ofNat n, 0, [], [], 0, [], [], none⟩) (fun _ => rfl) rfl (by simp)
      (by decide) (word_lt version)
  have heightField : Fields (CompactBlock.merge (budget + 2))
      ⟨version, 0, [], [], 0, [], [], none⟩ (numberField 2 height.toNat)
      ⟨version, height, [], [], 0, [], [], none⟩ :=
    .number (fun n => ⟨version, UInt64.ofNat n, [], [], 0, [], [], none⟩) (fun _ => rfl) rfl
      (by simp) (by decide) height.toNat_lt
  have hashField : Fields (CompactBlock.merge (budget + 2))
      ⟨version, height, [], [], 0, [], [], none⟩ (bytesField 3 hash)
      ⟨version, height, hash, [], 0, [], [], none⟩ :=
    .bytes (fun b => ⟨version, height, b, [], 0, [], [], none⟩) (fun _ => rfl) rfl rfl
      (by decide) (by omega)
  have prevHashField : Fields (CompactBlock.merge (budget + 2))
      ⟨version, height, hash, [], 0, [], [], none⟩ (bytesField 4 prevHash)
      ⟨version, height, hash, prevHash, 0, [], [], none⟩ :=
    .bytes (fun b => ⟨version, height, hash, b, 0, [], [], none⟩) (fun _ => rfl) rfl rfl
      (by decide) (by omega)
  have timeField : Fields (CompactBlock.merge (budget + 2))
      ⟨version, height, hash, prevHash, 0, [], [], none⟩ (numberField 5 time.toNat)
      ⟨version, height, hash, prevHash, time, [], [], none⟩ :=
    .number (fun n => ⟨version, height, hash, prevHash, UInt32.ofNat n, [], [], none⟩)
      (fun _ => rfl) rfl (by simp) (by decide) (word_lt time)
  have headerField : Fields (CompactBlock.merge (budget + 2))
      ⟨version, height, hash, prevHash, time, [], [], none⟩ (bytesField 6 header)
      ⟨version, height, hash, prevHash, time, header, [], none⟩ :=
    .bytes (fun b => ⟨version, height, hash, prevHash, time, b, [], none⟩) (fun _ => rfl) rfl rfl
      (by decide) (by omega)
  have txFields : Fields (CompactBlock.merge (budget + 2))
      ⟨version, height, hash, prevHash, time, header, [], none⟩
      (transactions.flatMap fun tx => delimitedField 7 tx.encode)
      ⟨version, height, hash, prevHash, time, header, transactions, none⟩ :=
    .list (fun known => ⟨version, height, hash, prevHash, time, header, known, none⟩)
      (fun _ _ => rfl) rfl rfl
      (fun tx member => CompactTx.fields_encode budget (txFits tx member)) (by decide) txFits
  have metadataField : Fields (CompactBlock.merge (budget + 2))
      ⟨version, height, hash, prevHash, time, header, transactions, none⟩
      (metadata.elim [] fun metadata => delimitedField 8 metadata.encode)
      ⟨version, height, hash, prevHash, time, header, transactions, metadata⟩ := by
    cases metadata with
    | none => exact .nil _
    | some metadata =>
      have bodyFits : metadata.encode.length < 2 ^ 64 := by
        simp only [Option.elim, delimitedField, List.length_append] at fits
        omega
      exact .single (Fields.inner
        (fun m => ⟨version, height, hash, prevHash, time, header, transactions, some m⟩)
        (fun _ => rfl) rfl (ChainMetadata.fields_encode (budget + 1) metadata) (by decide)
        bodyFits)
  exact ((((((versionField.append heightField).append hashField).append prevHashField).append
    timeField).append headerField).append txFields).append metadataField

theorem CompactBlock.decode_encode {m : CompactBlock} (fits : m.encode.length < 2 ^ 64) :
    CompactBlock.decode m.encode = .ok m :=
  (CompactBlock.fields_encode 98 fits).mergeAll_eq

end CompactChain
