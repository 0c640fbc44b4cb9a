import CompactChain.Proofs.Chain.BlockReading
import CompactChain.Proofs.Chain.Size
import CompactChain.Proofs.Wire.Reservations

set_option autoImplicit false

namespace CompactChain

open CompactSize (length_write_pos length_writePrefixed_pos)
open Layout (length_field)

theorem Layout.length_flatMap_ge {Form : Type} {layout : Form → Layout} {width : Nat}
    (each : ∀ form, width ≤ (layout form).length) (forms : List Form) :
    forms.length * width ≤ (forms.flatMap layout).length := by
  induction forms with
  | nil => exact Nat.le_of_eq (Nat.zero_mul width)
  | cons form later ih =>
    have first := each form
    rw [List.flatMap_cons, List.length_append, List.length_cons, Nat.succ_mul]
    omega

theorem InputForm.length_layout_ge (form : InputForm) :
    TransparentInput.leastLength ≤ form.layout.length := by
  have script := length_writePrefixed_pos form.script
  simp only [layout, List.length_flatten, List.map_cons, List.map_nil, List.sum_cons, List.sum_nil,
    length_field, form.previousHash.property, form.previousIndex.property, form.sequence.property,
    TransparentInput.leastLength]
  omega

-- No bound could be greater.
example : TransparentInput.read.parse (List.replicate TransparentInput.leastLength 0) = .ok (⟨[]⟩, []) := by
  decide

theorem OutputForm.length_layout_ge (form : OutputForm) :
    TransparentOutput.leastLength ≤ form.layout.length := by
  have script := length_writePrefixed_pos form.script
  simp only [layout, List.length_flatten, List.map_cons, List.map_nil, List.sum_cons, List.sum_nil,
    length_field, LittleEndian.length_ofNat, TransparentOutput.leastLength]
  omega

theorem ActionForm.length_layout (form : ActionForm) : form.layout.length = Action.encodedLength := by
  rw [← List.length_map Prod.snd]
  exact form.length_bytes

theorem TransparentForm.length_layout_ge (form : TransparentForm) : 2 ≤ form.layout.length := by
  have inputs := length_write_pos form.inputs.val.length
  have outputs := length_write_pos form.outputs.val.length
  simp only [layout, List.length_flatten, List.map_cons, List.map_nil, List.sum_cons, List.sum_nil,
    length_field]
  omega

theorem BundleForm.length_layoutCounted_pos (form : Option BundleForm) :
    0 < (layoutCounted form).length := by
  cases form with
  | none => exact length_write_pos 0
  | some form =>
    have count := length_write_pos form.actions.length
    simp only [layoutCounted, List.length_append, length_field]
    omega

-- The fifth version is the shorter one: the fourth has a balance and a third empty pool, and no branch.
theorem TransactionForm.length_layout_ge (form : TransactionForm) :
    Transaction.leastLength ≤ form.layout.length := by
  have pool := length_write_pos 0
  cases form with
  | v4 form =>
    have transparent := form.transparent.length_layout_ge
    simp only [layout, layoutHeader, layoutGroup, V4Form.layout, List.length_append, List.length_flatten,
      List.map_cons, List.map_nil, List.sum_cons, List.sum_nil, length_field, LittleEndian.length_ofNat,
      form.lockTime.property, form.expiryHeight.property, form.saplingBalance.property,
      Transaction.leastLength]
    omega
  | v5 form =>
    have transparent := form.transparent.length_layout_ge
    have bundle := BundleForm.length_layoutCounted_pos form.bundle
    simp only [layout, layoutHeader, layoutGroup, V5Form.layout, List.length_append, List.length_flatten,
      List.map_cons, List.map_nil, List.sum_cons, List.sum_nil, length_field, LittleEndian.length_ofNat,
      form.lockTime.property, form.expiryHeight.property, Transaction.leastLength]
    omega

inductive CountedList : {α : Type} → (count width : Nat) → Reader (List α) → Prop
  | inputs (count : Nat) :
    CountedList count TransparentInput.leastLength (Reader.times count TransparentInput.read)
  | outputs (count : Nat) :
    CountedList count TransparentOutput.leastLength (Reader.times count TransparentOutput.read)
  | actions (count : Nat) : CountedList count Action.encodedLength (Reader.times count Action.read)
  | transactions (txids : Option (List Bytes)) (count : Nat) :
    CountedList count Transaction.leastLength (Block.readTransactions txids [] count)

theorem Reader.Recognizes.counted_of_times {Form α : Type} {item : Reader α} {layout : Form → Layout}
    {value : Form → α} (recognizes : item.Recognizes layout value) {width : Nat}
    (each : ∀ form, width ≤ (layout form).length) {count : Nat} {taken : Layout} {found : List α}
    (reads : (times count item).Reads taken found) :
    found.length = count ∧ count * width ≤ taken.length := by
  obtain ⟨forms, rfl, rfl, rfl⟩ := (reads_timesAfter recognizes).mp reads
  exact ⟨by simp, Layout.length_flatMap_ge each forms⟩

namespace CountedList

variable {α : Type} {count width : Nat} {items : Reader (List α)} {found : List α}
  (counted : CountedList count width items)

include counted

theorem width_pos : 0 < width := by
  cases counted <;> decide

theorem of_reads {taken : Layout} (reads : items.Reads taken found) :
    found.length = count ∧ count * width ≤ taken.length := by
  cases counted with
  | inputs => exact TransparentInput.recognizes.counted_of_times InputForm.length_layout_ge reads
  | outputs => exact TransparentOutput.recognizes.counted_of_times OutputForm.length_layout_ge reads
  | actions =>
    exact Action.recognizes.counted_of_times (fun form => Nat.le_of_eq form.length_layout.symm) reads
  | transactions txids =>
    obtain ⟨forms, rfl, rfl, -, rfl⟩ := Block.reads_readTransactions.mp reads
    exact ⟨by simp, Layout.length_flatMap_ge TransactionForm.length_layout_ge forms⟩

theorem capacity_eq_count {input rest : Bytes} (ran : items.run input = (.ok found, rest)) :
    found.length = count ∧ Reader.capacity input.length count width = count := by
  obtain ⟨taken, reads, rfl⟩ := Reader.run_eq_ok_iff.mp ran
  obtain ⟨whole, room⟩ := counted.of_reads reads
  refine ⟨whole, Reader.capacity_eq_count counted.width_pos ?_⟩
  rw [List.length_append, Layout.bytes, List.length_map]
  omega

end CountedList

end CompactChain
