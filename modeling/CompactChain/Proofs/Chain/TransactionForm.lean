import CompactChain.Chain.Transaction
import CompactChain.Proofs.Wire.Forms

set_option autoImplicit false

namespace CompactChain

open Layout (field)

structure InputForm where
  previousHash : FixedBytes 32
  previousIndex : FixedBytes 4
  script : ShortBytes
  sequence : FixedBytes 4

structure OutputForm where
  value : UInt64
  script : ShortBytes

structure ActionForm where
  valueCommitment : FixedBytes 32
  nullifier : FixedBytes 32
  key : FixedBytes 32
  commitment : FixedBytes 32
  ephemeralKey : FixedBytes 32
  ciphertext : FixedBytes 580
  outCiphertext : FixedBytes 80

structure TransparentForm where
  inputs : ShortList InputForm
  outputs : ShortList OutputForm

-- A bundle has an action at least; where there is none, nothing follows the count.
structure BundleForm where
  actions : List ActionForm
  nonempty : actions ≠ []
  few : actions.length < 0x10000
  flags : FixedBytes 1
  valueBalance : Int64
  anchor : FixedBytes 32
  proofs : ShortBytes
  signatures : FixedBytes (64 * actions.length)
  bindingSignature : FixedBytes 64

structure V4Form where
  transparent : TransparentForm
  lockTime : FixedBytes 4
  expiryHeight : FixedBytes 4
  saplingBalance : FixedBytes 8

-- Later versions have the form of the fifth.
structure V5Form where
  version : { version : UInt32 // 5 ≤ version.toNat ∧ version.toNat < 0x80000000 }
  branch : UInt32
  lockTime : FixedBytes 4
  expiryHeight : FixedBytes 4
  transparent : TransparentForm
  bundle : Option BundleForm

inductive TransactionForm where
  | v4 (form : V4Form)
  | v5 (form : V5Form)

namespace InputForm

def layout (form : InputForm) : Layout := [
  field "TxIn::PrevTxHash" form.previousHash,
  field "TxIn::PrevTxOutIndex" form.previousIndex,
  field "TxIn::ScriptSig" (CompactSize.writePrefixed form.script),
  field "TxIn::SequenceNumber" form.sequence].flatten

def input (form : InputForm) : TransparentInput :=
  ⟨form.script⟩

end InputForm

namespace OutputForm

def layout (form : OutputForm) : Layout := [
  field "TxOut::Value" (LittleEndian.ofNat 8 form.value.toNat),
  field "TxOut::Script" (CompactSize.writePrefixed form.script)].flatten

def output (form : OutputForm) : TransparentOutput :=
  ⟨form.value⟩

end OutputForm

namespace ActionForm

def layout (form : ActionForm) : Layout := [
  field "Action::Cv" form.valueCommitment,
  field "Action::nullifier" form.nullifier,
  field "Action::Rk" form.key,
  field "Action::cmx" form.commitment,
  field "Action::ephemeral_key" form.ephemeralKey,
  field "Action::enc_ciphertext" form.ciphertext,
  field "Action::OutCiphertext" form.outCiphertext].flatten

def action (form : ActionForm) : Action :=
  ⟨form.nullifier, form.commitment, form.ephemeralKey, form.ciphertext⟩

end ActionForm

namespace TransparentForm

def layout (form : TransparentForm) : Layout := [
  field "TransactionData::tx_in_count" (CompactSize.write form.inputs.val.length),
  form.inputs.val.flatMap InputForm.layout,
  field "TransactionData::tx_out_count" (CompactSize.write form.outputs.val.length),
  form.outputs.val.flatMap OutputForm.layout].flatten

def inputsAndOutputs (form : TransparentForm) : List TransparentInput × List TransparentOutput :=
  (form.inputs.val.map InputForm.input, form.outputs.val.map OutputForm.output)

end TransparentForm

namespace BundleForm

def layout (form : BundleForm) : Layout := [
  form.actions.flatMap ActionForm.layout,
  field "TransactionData::flagsOrchard" form.flags,
  field "TransactionData::valueBalanceOrchard"
    (LittleEndian.ofNat 8 form.valueBalance.toUInt64.toNat),
  field "TransactionData::anchorOrchard" form.anchor,
  field "TransactionData::proofsOrchard" (CompactSize.writePrefixed form.proofs),
  field "TransactionData::vSpendAuthSigsOrchard" form.signatures,
  field "TransactionData::bindingSigOrchard" form.bindingSignature].flatten

def bundle (form : BundleForm) : OrchardBundle :=
  ⟨form.actions.map ActionForm.action, form.valueBalance, form.anchor⟩

def layoutCounted : Option BundleForm → Layout
  | none => field "TransactionData::nActionsOrchard" (CompactSize.write 0)
  | some form =>
    field "TransactionData::nActionsOrchard" (CompactSize.write form.actions.length) ++ form.layout

end BundleForm

namespace V4Form

def layout (form : V4Form) : Layout := [
  form.transparent.layout,
  field "TransactionData::nLockTime" form.lockTime,
  field "TransactionData::nExpiryHeight" form.expiryHeight,
  field "TransactionData::valueBalanceSapling" form.saplingBalance,
  field "TransactionData::nShieldedSpend" (CompactSize.write 0),
  field "TransactionData::nShieldedOutput" (CompactSize.write 0),
  field "TransactionData::nJoinSplit" (CompactSize.write 0)].flatten

def body (form : V4Form) : TransactionBody where
  version := 4
  versionGroup := 0x892F2085
  branch := none
  inputs := form.transparent.inputs.val.map InputForm.input
  outputs := form.transparent.outputs.val.map OutputForm.output
  orchard := none

end V4Form

namespace V5Form

def layout (form : V5Form) : Layout := [
  field "TransactionData::ConsensusBranchId" (LittleEndian.ofNat 4 form.branch.toNat),
  field "TransactionData::nLockTime" form.lockTime,
  field "TransactionData::nExpiryHeight" form.expiryHeight,
  form.transparent.layout,
  field "TransactionData::nSpendsSapling" (CompactSize.write 0),
  field "TransactionData::nOutputsSapling" (CompactSize.write 0),
  BundleForm.layoutCounted form.bundle].flatten

def body (form : V5Form) : TransactionBody where
  version := form.version
  versionGroup := 0x26A7270A
  branch := some form.branch
  inputs := form.transparent.inputs.val.map InputForm.input
  outputs := form.transparent.outputs.val.map OutputForm.output
  orchard := form.bundle.map BundleForm.bundle

end V5Form

namespace TransactionForm

def layoutHeader (version : UInt32) : Layout :=
  field "FullTransaction::header" (LittleEndian.ofNat 4 (0x80000000 + version.toNat))

def layoutGroup (group : UInt32) : Layout :=
  field "FullTransaction::nVersionGroupId" (LittleEndian.ofNat 4 group.toNat)

def layout : TransactionForm → Layout
  | v4 form => layoutHeader 4 ++ (layoutGroup 0x892F2085 ++ form.layout)
  | v5 form => layoutHeader form.version ++ (layoutGroup 0x26A7270A ++ form.layout)

def bytes (form : TransactionForm) : Bytes :=
  form.layout.bytes

def body : TransactionForm → TransactionBody
  | v4 form => form.body
  | v5 form => form.body

def transaction (form : TransactionForm) (txid : Option Bytes) : Transaction :=
  { form.body with raw := form.bytes, txid := txid }

end TransactionForm

section Unambiguous

open Layout

theorem InputForm.unambiguous : Unambiguous InputForm.layout := by
  rintro ⟨hash, index, script, sequence⟩ ⟨_, _, _, _⟩ rest left same
  simp only [InputForm.layout, bytes_flatten_cons, List.append_assoc] at same
  obtain ⟨fromIndex, rfl⟩ := unambiguous_fixed same
  obtain ⟨fromScript, rfl⟩ := unambiguous_fixed fromIndex
  obtain ⟨fromSequence, rfl⟩ := unambiguous_prefixed fromScript
  obtain ⟨after, rfl⟩ := unambiguous_fixed fromSequence
  exact ⟨after, rfl⟩

theorem OutputForm.unambiguous : Unambiguous OutputForm.layout := by
  rintro ⟨value, script⟩ ⟨_, _⟩ rest left same
  simp only [OutputForm.layout, bytes_flatten_cons, List.append_assoc] at same
  obtain ⟨fromScript, rfl⟩ := unambiguous_word64 same
  obtain ⟨after, rfl⟩ := unambiguous_prefixed fromScript
  exact ⟨after, rfl⟩

theorem ActionForm.unambiguous : Unambiguous ActionForm.layout := by
  rintro ⟨_, _, _, _, _, _, _⟩ ⟨_, _, _, _, _, _, _⟩ rest left same
  simp only [ActionForm.layout, bytes_flatten_cons, List.append_assoc] at same
  obtain ⟨fromNullifier, rfl⟩ := unambiguous_fixed same
  obtain ⟨fromKey, rfl⟩ := unambiguous_fixed fromNullifier
  obtain ⟨fromCommitment, rfl⟩ := unambiguous_fixed fromKey
  obtain ⟨fromEphemeral, rfl⟩ := unambiguous_fixed fromCommitment
  obtain ⟨fromCiphertext, rfl⟩ := unambiguous_fixed fromEphemeral
  obtain ⟨fromOut, rfl⟩ := unambiguous_fixed fromCiphertext
  obtain ⟨after, rfl⟩ := unambiguous_fixed fromOut
  exact ⟨after, rfl⟩

theorem TransparentForm.unambiguous : Unambiguous TransparentForm.layout := by
  rintro ⟨⟨inputs, few⟩, ⟨outputs, fewer⟩⟩ ⟨⟨_, less⟩, ⟨_, least⟩⟩ rest left same
  simp only [TransparentForm.layout, bytes_flatten_cons, List.append_assoc] at same
  obtain ⟨fromInputs, counted⟩ := count_eq few less same
  obtain ⟨fromCount, rfl⟩ := InputForm.unambiguous.flatMap counted fromInputs
  obtain ⟨fromOutputs, counted⟩ := count_eq fewer least fromCount
  obtain ⟨after, rfl⟩ := OutputForm.unambiguous.flatMap counted fromOutputs
  exact ⟨after, rfl⟩

theorem BundleForm.count_le (form : BundleForm) : form.actions.length ≤ CompactSize.limit :=
  Nat.le_trans (Nat.le_of_lt form.few) (by decide)

-- The count is 0 exactly where no bundle follows, and the signatures are as many as the actions.
theorem BundleForm.unambiguous : Unambiguous BundleForm.layoutCounted := by
  rintro (_ | form) (_ | other) rest left same
  next => exact ⟨List.append_cancel_left same, rfl⟩
  next =>
    simp only [layoutCounted, bytes_append, List.append_assoc] at same
    obtain ⟨_, counted⟩ := count_eq (Nat.zero_le _) other.count_le same
    exact absurd (List.length_eq_zero_iff.mp counted.symm) other.nonempty
  next =>
    simp only [layoutCounted, bytes_append, List.append_assoc] at same
    obtain ⟨_, counted⟩ := count_eq form.count_le (Nat.zero_le _) same
    exact absurd (List.length_eq_zero_iff.mp counted) form.nonempty
  next =>
    simp only [layoutCounted, bytes_append, List.append_assoc] at same
    obtain ⟨fromActions, counted⟩ := count_eq form.count_le other.count_le same
    obtain ⟨actions, nonempty, few, _, balance, _, _, _, _⟩ := form
    obtain ⟨_, _, _, _, otherBalance, _, _, _, _⟩ := other
    simp only [layout, bytes_flatten_cons, List.append_assoc] at fromActions
    obtain ⟨fromFlags, rfl⟩ := ActionForm.unambiguous.flatMap counted fromActions
    obtain ⟨fromBalance, rfl⟩ := unambiguous_fixed fromFlags
    obtain ⟨fromAnchor, balances⟩ := unambiguous_word64 fromBalance
    obtain ⟨fromProofs, rfl⟩ := unambiguous_fixed fromAnchor
    obtain ⟨fromSignatures, rfl⟩ := unambiguous_prefixed fromProofs
    obtain ⟨fromBinding, rfl⟩ := unambiguous_fixed fromSignatures
    obtain ⟨after, rfl⟩ := unambiguous_fixed fromBinding
    obtain rfl : balance = otherBalance := congrArg UInt64.toInt64 balances
    exact ⟨after, rfl⟩

theorem V4Form.unambiguous : Unambiguous V4Form.layout := by
  rintro ⟨_, _, _, _⟩ ⟨_, _, _, _⟩ rest left same
  simp only [layout, bytes_flatten_cons, List.append_assoc] at same
  obtain ⟨fromLock, rfl⟩ := TransparentForm.unambiguous same
  obtain ⟨fromExpiry, rfl⟩ := unambiguous_fixed fromLock
  obtain ⟨fromBalance, rfl⟩ := unambiguous_fixed fromExpiry
  obtain ⟨fromPools, rfl⟩ := unambiguous_fixed fromBalance
  exact ⟨List.append_cancel_left (List.append_cancel_left (List.append_cancel_left fromPools)), rfl⟩

theorem V5Form.unambiguous {form other : V5Form} {rest left : Bytes} (version : form.version = other.version)
    (same : form.layout.bytes ++ rest = other.layout.bytes ++ left) : rest = left ∧ form = other := by
  obtain ⟨_, _, _, _, _, _⟩ := form
  obtain ⟨_, _, _, _, _, _⟩ := other
  obtain rfl := version
  simp only [layout, bytes_flatten_cons, List.append_assoc] at same
  obtain ⟨fromLock, rfl⟩ := unambiguous_word32 same
  obtain ⟨fromExpiry, rfl⟩ := unambiguous_fixed fromLock
  obtain ⟨fromTransparent, rfl⟩ := unambiguous_fixed fromExpiry
  obtain ⟨fromPools, rfl⟩ := TransparentForm.unambiguous fromTransparent
  have fromCount := List.append_cancel_left (List.append_cancel_left fromPools)
  obtain ⟨after, rfl⟩ := BundleForm.unambiguous fromCount
  exact ⟨after, rfl⟩

namespace TransactionForm

theorem headers_eq {version other : UInt32} (low : version.toNat < 0x80000000)
    (lower : other.toNat < 0x80000000) {rest left : Bytes}
    (same : (layoutHeader version).bytes ++ rest = (layoutHeader other).bytes ++ left) :
    rest = left ∧ version = other := by
  obtain ⟨rests, words⟩ := word_eq (by omega) (by omega) same
  exact ⟨rests, UInt32.toNat_inj.mp (Nat.add_left_cancel words)⟩

theorem v4_ne_v5 (form : V4Form) (other : V5Form) (rest left : Bytes) :
    (layout (.v4 form)).bytes ++ rest ≠ (layout (.v5 other)).bytes ++ left := by
  intro same
  simp only [layout, bytes_append, List.append_assoc] at same
  obtain ⟨_, version⟩ := headers_eq (by decide) other.version.property.2 same
  have least := other.version.property.1
  rw [← version] at least
  contradiction

theorem unambiguous : Unambiguous layout := by
  rintro (form | form) (other | other) rest left same
  case v4.v4 =>
    simp only [layout, bytes_append, List.append_assoc] at same
    obtain ⟨rests, rfl⟩ := V4Form.unambiguous (List.append_cancel_left (List.append_cancel_left same))
    exact ⟨rests, rfl⟩
  case v4.v5 => exact absurd same (v4_ne_v5 form other rest left)
  case v5.v4 => exact absurd same.symm (v4_ne_v5 other form left rest)
  case v5.v5 =>
    simp only [layout, bytes_append, List.append_assoc] at same
    obtain ⟨fromGroup, version⟩ := headers_eq form.version.property.2 other.version.property.2 same
    obtain ⟨rests, rfl⟩ :=
      V5Form.unambiguous (Subtype.ext version) (List.append_cancel_left fromGroup)
    exact ⟨rests, rfl⟩

end TransactionForm

end Unambiguous

end CompactChain
