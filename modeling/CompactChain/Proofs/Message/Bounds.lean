import CompactChain.Proofs.Message.Faithful
import Mathlib.Algebra.Group.Action.Defs

set_option autoImplicit false

namespace CompactChain

namespace Message

theorem length_writeVarintIn_le (room n : Nat) : (writeVarintIn room n).length ≤ room := by
  induction room generalizing n with
  | zero => exact Nat.le_refl 0
  | succ room ih =>
    rw [writeVarintIn]
    split
    next => simp
    next => exact Nat.succ_le_succ (ih (n / 128))

theorem length_writeVarint_le (n : Nat) : (writeVarint n).length ≤ 10 :=
  length_writeVarintIn_le 10 n

section Fields

variable {tag : Nat} (low : tag < 16)

include low

theorem length_writeKey (wire : WireType) : (Key.write ⟨tag, wire⟩).length = 1 := by
  have code := wire.code_lt
  have short : Key.number ⟨tag, wire⟩ < 128 := by
    simp only [Key.number]
    omega
  rw [Key.length_write (Nat.lt_trans low (by decide)), keyLength, varintLength_of_lt short]

theorem length_numberField_le (value : Nat) : (numberField tag value).length ≤ 11 := by
  unfold numberField
  split
  next => exact Nat.zero_le 11
  next =>
    have number := length_writeVarint_le value
    rw [List.length_append, length_writeKey low]
    omega

theorem length_delimitedField_le (body : Bytes) :
    (delimitedField tag body).length ≤ 11 + body.length := by
  have number := length_writeVarint_le body.length
  rw [delimitedField, List.length_append, List.length_append, length_writeKey low]
  omega

theorem length_bytesField_le (value : Bytes) : (bytesField tag value).length ≤ 11 + value.length := by
  unfold bytesField
  split
  next => exact Nat.zero_le _
  next => exact length_delimitedField_le low value

end Fields

theorem length_flatMap_le {α β : Type} {items : List α} {parts : α → List β} {bound : Nat}
    (each : ∀ item ∈ items, (parts item).length ≤ bound) :
    (items.flatMap parts).length ≤ bound * items.length := by
  have most : ∀ length ∈ items.map fun item => (parts item).length, length ≤ bound := by
    simpa using each
  have total := List.sum_le_card_nsmul _ bound most
  rwa [← List.length_flatMap, List.length_map, smul_eq_mul, Nat.mul_comm] at total

end Message

open Message

theorem CompactAction.length_encode_le (action : CompactAction) :
    action.encode.length ≤ 44 + (action.nullifier.length + action.commitment.length +
      action.ephemeralKey.length + action.ciphertext.length) := by
  have nullifier := length_bytesField_le (show 1 < 16 by decide) action.nullifier
  have commitment := length_bytesField_le (show 2 < 16 by decide) action.commitment
  have ephemeralKey := length_bytesField_le (show 3 < 16 by decide) action.ephemeralKey
  have ciphertext := length_bytesField_le (show 4 < 16 by decide) action.ciphertext
  simp only [encode, List.length_append]
  omega

theorem CompactTx.length_encode_le {tx : CompactTx} {bound : Nat} (spends : tx.spends = [])
    (outputs : tx.outputs = []) (each : ∀ action ∈ tx.actions, action.encode.length ≤ bound) :
    tx.encode.length ≤ 33 + tx.hash.length + (11 + bound) * tx.actions.length := by
  have index := length_numberField_le (show 1 < 16 by decide) tx.index.toNat
  have hash := length_bytesField_le (show 2 < 16 by decide) tx.hash
  have fee := length_numberField_le (show 3 < 16 by decide) tx.fee.toNat
  have actions : (tx.actions.flatMap fun action => delimitedField 6 action.encode).length ≤
      (11 + bound) * tx.actions.length := by
    apply length_flatMap_le
    intro action member
    have inner := length_delimitedField_le (show 6 < 16 by decide) action.encode
    have fits := each action member
    omega
  simp only [encode, spends, outputs, List.flatMap_nil, List.append_nil, List.length_append]
  omega

end CompactChain
