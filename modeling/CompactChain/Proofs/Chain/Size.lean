import CompactChain.Proofs.Chain.Projection
import CompactChain.Proofs.Message.Bounds

set_option autoImplicit false

namespace CompactChain

open CompactSize (writePrefixed)
open Message (bytesField delimitedField numberField length_bytesField_le length_delimitedField_le
  length_numberField_le)

theorem CompactSize.length_write_pos (size : Nat) : 0 < (write size).length := by
  unfold write
  split
  · simp
  split
  · simp
  split <;> simp

theorem CompactSize.length_writePrefixed_pos (content : Bytes) : 0 < (writePrefixed content).length := by
  have counted := length_write_pos content.length
  rw [writePrefixed, List.length_append]
  omega

theorem Layout.length_bytes_flatMap {Form : Type} {layout : Form → Layout} {width : Nat}
    (each : ∀ form, (layout form).bytes.length = width) (forms : List Form) :
    (bytes (forms.flatMap layout)).length = width * forms.length := by
  induction forms with
  | nil => rfl
  | cons form later ih =>
    rw [List.flatMap_cons, bytes_append, List.length_append, each, ih, List.length_cons, Nat.mul_succ,
      Nat.add_comm]

theorem ActionForm.length_bytes (form : ActionForm) : form.layout.bytes.length = 820 := by
  simp [layout, form.valueCommitment.property, form.nullifier.property, form.key.property,
    form.commitment.property, form.ephemeralKey.property, form.ciphertext.property,
    form.outCiphertext.property]

-- With each action goes a signature of sixty-four bytes.
theorem BundleForm.length_bytes (form : BundleForm) :
    form.layout.bytes.length = 884 * form.actions.length + 105 + (writePrefixed form.proofs).length := by
  have actions := Layout.length_bytes_flatMap ActionForm.length_bytes form.actions
  simp only [layout, Layout.bytes_flatten_cons, List.length_append, actions, Layout.bytes_field,
    form.flags.property, LittleEndian.length_ofNat, form.anchor.property, form.signatures.property,
    form.bindingSignature.property, List.flatten_nil, Layout.bytes_nil, List.length_nil]
  omega

theorem TransactionForm.length_bytes_ge {form : TransactionForm} (carries : form.actions ≠ []) :
    884 * form.actions.length + 105 ≤ form.bytes.length := by
  cases form with
  | v4 form => exact absurd rfl carries
  | v5 form =>
    obtain ⟨version, branch, lock, expiry, transparent, bundle⟩ := form
    cases bundle with
    | none => exact absurd rfl carries
    | some bundle =>
      have counted := bundle.length_bytes
      simp only [bytes, layout, V5Form.layout, BundleForm.layoutCounted, Layout.bytes_append,
        Layout.bytes_flatten_cons, List.length_append, actions, Option.elim_some]
      omega

theorem HeaderForm.length_bytes (form : HeaderForm) :
    form.bytes.length = 140 + (writePrefixed form.solution).length := by
  simp only [bytes, layout, Layout.bytes_flatten_cons, List.length_append, Layout.bytes_field,
    LittleEndian.length_ofNat, form.prevHash.property, form.merkleRoot.property, form.commitments.property,
    form.bits.property, form.nonce.property, List.flatten_nil, Layout.bytes_nil, List.length_nil]
  omega

theorem ActionForm.length_encode_compact (form : ActionForm) : form.compact.encode.length ≤ 192 := by
  have most := form.compact.length_encode_le
  have nullifier : form.compact.nullifier.length = 32 := form.nullifier.property
  have commitment : form.compact.commitment.length = 32 := form.commitment.property
  have ephemeralKey : form.compact.ephemeralKey.length = 32 := form.ephemeralKey.property
  have ciphertext : form.compact.ciphertext.length = 52 := by
    simp [compact, form.ciphertext.property]
  omega

theorem length_flatMap_filter_le {α β γ : Type} {items : List α} {keep : α → Bool} {parts : α → List β}
    {room : α → List γ} (fits : ∀ item ∈ items.filter keep, (parts item).length ≤ (room item).length) :
    ((items.filter keep).flatMap parts).length ≤ (items.flatMap room).length := by
  induction items with
  | nil => exact Nat.le_refl 0
  | cons item later ih =>
    rw [List.flatMap_cons, List.length_append]
    cases kept : keep item with
    | true =>
      rw [List.filter_cons_of_pos kept] at fits ⊢
      have first := fits item List.mem_cons_self
      have rest := ih fun other member => fits other (List.mem_cons_of_mem item member)
      rw [List.flatMap_cons, List.length_append]
      omega
    | false =>
      rw [List.filter_cons_of_neg (by simp [kept])] at fits ⊢
      have rest := ih fits
      omega

namespace Block

variable {block : Block} {form : BlockForm} {txids : Option (List Bytes)} {treeSize : UInt32}
  (gives : form.Gives txids block)

include gives

theorem length_hash_compactTx {entry : Transaction × Nat} (member : entry ∈ block.kept)
    (known : entry.1.txid.isSome) : (compactTx entry).hash.length = 32 := by
  obtain ⟨ids, given, found⟩ := Option.bind_eq_some_iff.mp (compactTx_hash gives member known)
  exact gives.ids ids given _ (List.mem_of_getElem? found)

theorem length_compactTx_le {entry : Transaction × Nat} (member : entry ∈ block.kept)
    (known : entry.1.txid.isSome) :
    (delimitedField 7 (compactTx entry).encode).length ≤ entry.1.raw.length := by
  have hash := length_hash_compactTx gives member known
  obtain ⟨found, carries⟩ := mem_kept.mp member
  obtain ⟨index, raw, -, same⟩ := gives.mem_transactions (List.mem_of_getElem? found)
  have actions : (compactTx entry).actions = raw.actions.map ActionForm.compact := by
    rw [compactTx, same, raw.map_toCompact_actions]
  have each : ∀ action ∈ (compactTx entry).actions, action.encode.length ≤ 192 := by
    rw [actions]
    intro action among
    obtain ⟨full, -, rfl⟩ := List.mem_map.mp among
    exact full.length_encode_compact
  have told := CompactTx.length_encode_le rfl rfl each
  have field := length_delimitedField_le (show 7 < 16 by decide) (compactTx entry).encode
  have any : raw.actions ≠ [] := by
    rintro none
    rw [same, raw.actions_transaction, none] at carries
    exact carries rfl
  have least := TransactionForm.length_bytes_ge any
  have spelled : entry.1.raw = raw.bytes := by rw [same]; rfl
  rw [hash, actions, List.length_map] at told
  rw [spelled]
  omega

variable (treeSize)

theorem length_compactWith_le (transactions : List CompactTx) :
    (block.compactWith treeSize transactions).encode.length ≤
      132 + (transactions.flatMap fun tx => delimitedField 7 tx.encode).length := by
  have hash : block.header.hash.length = 32 := by rw [gives.hash, Sha256.length_digestTwice]
  have prevHash : block.header.prevHash.length = 32 := by
    rw [show block.header.prevHash = form.header.prevHash from congrArg HeaderFields.prevHash gives.fields]
    exact form.header.prevHash.property
  have version : (numberField 1 (1 : UInt32).toNat).length = 2 := rfl
  have height := length_numberField_le (show 2 < 16 by decide) (UInt64.ofNat block.height).toNat
  have hashField := length_bytesField_le (show 3 < 16 by decide) block.header.hash
  have prevField := length_bytesField_le (show 4 < 16 by decide) block.header.prevHash
  have time := length_numberField_le (show 5 < 16 by decide) block.header.time.toNat
  have header : (bytesField 6 []).length = 0 := rfl
  have sizes : (ChainMetadata.encode { orchardTreeSize := treeSize }).length ≤ 11 :=
    length_numberField_le (show 2 < 16 by decide) treeSize.toNat
  have metadata := length_delimitedField_le (show 8 < 16 by decide)
    (ChainMetadata.encode { orchardTreeSize := treeSize })
  simp only [compactWith, CompactBlock.encode, Option.elim_some, List.length_append, version, header]
  omega

theorem flatMap_raw : Layout.bytes (form.transactions.val.flatMap TransactionForm.layout) =
    block.transactions.flatMap Transaction.raw := by
  have spelled : Layout.bytes (form.transactions.val.flatMap TransactionForm.layout) =
      form.transactions.val.flatMap TransactionForm.bytes := List.map_flatMap
  rw [spelled, gives.transactions, List.mapIdx_eq_zipIdx_map, List.flatMap_map]
  conv_lhs => rw [← List.zipIdx_map_fst 0 form.transactions.val, List.flatMap_map]
  rfl

theorem length_encode_le (known : ∀ entry ∈ block.kept, entry.1.txid.isSome) :
    (block.compactWith treeSize (block.kept.map compactTx)).encode.length ≤ form.bytes.length := by
  have whole := length_compactWith_le treeSize gives (block.kept.map compactTx)
  have parts : ((block.kept.map compactTx).flatMap fun tx => delimitedField 7 tx.encode).length ≤
      (block.transactions.flatMap Transaction.raw).length := by
    rw [List.flatMap_map]
    conv_rhs => rw [← List.zipIdx_map_fst 0 block.transactions, List.flatMap_map]
    exact length_flatMap_filter_le fun entry member =>
      length_compactTx_le gives member (known entry member)
  have header := form.header.length_bytes
  have solution := CompactSize.length_writePrefixed_pos form.header.solution
  have total : form.bytes.length = form.header.bytes.length +
      (CompactSize.write form.transactions.val.length).length +
        (block.transactions.flatMap Transaction.raw).length := by
    simp only [BlockForm.bytes, BlockForm.layout, Layout.bytes_flatten_cons, List.length_append,
      flatMap_raw gives, Layout.bytes_field, List.flatten_nil, Layout.bytes_nil, List.length_nil,
      Nat.add_zero, Nat.add_assoc]
    rfl
  omega

end Block

end CompactChain
