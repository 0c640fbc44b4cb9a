import CompactChain.Chain.Guarded
import CompactChain.Proofs.Chain.Projection
import CompactChain.Proofs.Wire.Guarded

set_option autoImplicit false

namespace CompactChain

open Decoder (Decodes decodes_fail decodes_parse decodes_start)
open Guarded (Follows follows_fail follows_list follows_ofChecked follows_ofReader follows_pure)

theorem Decoder.decodes_alone {α : Type} (decoder : String) (reader : Reader α) (txids : Option (List Bytes))
    (txVersion : Option UInt32) :
    Decodes (alone decoder reader txids txVersion) (reader.withoutArguments decoder txids txVersion) :=
  decodes_parse (follows_ofReader _)

theorem Header.decodes (txids : Option (List Bytes)) (txVersion : Option UInt32) :
    Decodes (decode txids txVersion) (read.withoutArguments "BlockHeaderData" txids txVersion) := by
  have fields := Decoder.decodes_alone "BlockHeaderData" HeaderFields.read txids txVersion
  have whole : Decodes (decode txids txVersion)
      ((HeaderFields.read.withoutArguments "BlockHeaderData" txids txVersion).withBytes >>=
        fun parts => pure { parts.2 with raw := parts.1, hash := Sha256.digestTwice parts.1 }) :=
    fields.withBytes.map fun _ => rfl
  cases txids with
  | some ids => exact whole
  | none => cases txVersion <;> exact whole

theorem Decoder.follows_list_alone {α : Type} (decoder : String) (reader : Reader α) (count width : Nat) :
    Follows (.times count (.nested (alone decoder reader none none))) (Reader.list count width reader) :=
  follows_list (decodes_alone decoder reader none none).nested count width

theorem OrchardBundle.follows_readGuarded {count : Nat} (few : count < TransactionBody.actionCountBound) :
    Follows (readGuarded count) (read count) := by
  refine (Decoder.follows_list_alone _ _ _ _).bind_of fun actions ⟨_, _, listed⟩ => ?_
  obtain ⟨⟨forms, counted⟩, -, rfl⟩ :=
    (Reader.recognizes_list Action.recognizes _ _).parse_eq_ok_iff.mp listed
  refine (follows_ofReader _).bind fun _ => ?_
  refine (follows_ofReader _).bind fun valueBalance => ?_
  refine (follows_ofReader _).bind fun anchor => ?_
  refine (follows_ofReader _).bind fun _ => ?_
  have fits : 64 * (forms.map ActionForm.action).length < Word.limit := by
    rw [List.length_map, counted]
    unfold TransactionBody.actionCountBound at few
    unfold Word.limit
    omega
  refine .step_bind (if_pos fits) ?_
  refine (follows_ofReader _).bind fun _ => ?_
  refine (follows_ofReader _).bind fun _ => ?_
  exact follows_pure _

namespace TransactionBody

theorem follows_readTransparent : Follows readTransparentGuarded readTransparent := by
  refine (follows_ofReader _).bind fun inputCount => ?_
  refine (Decoder.follows_list_alone _ _ _ _).bind fun inputs => ?_
  refine (follows_ofReader _).bind fun outputCount => ?_
  refine (Decoder.follows_list_alone _ _ _ _).bind fun outputs => ?_
  exact follows_pure _

theorem follows_readV4 (version group : UInt32) : Follows (readV4Guarded version group) (readV4 version group) := by
  refine (follows_ofReader _).bind fun _ => ?_
  refine (decodes_parse follows_readTransparent).nested.bind fun ⟨inputs, outputs⟩ => ?_
  refine (follows_ofReader _).bind fun _ => ?_
  refine (follows_ofReader _).bind fun _ => ?_
  refine (follows_ofReader _).bind fun _ => ?_
  refine (follows_ofReader _).bind fun _ => ?_
  refine (follows_ofReader _).bind fun _ => ?_
  refine (follows_ofReader _).bind fun _ => ?_
  exact follows_pure _

theorem follows_readOrchard : Follows readOrchardGuarded readOrchard := by
  refine (follows_ofReader _).bind_of fun count ⟨_, _, counted⟩ => ?_
  obtain ⟨_, reads, -⟩ := Reader.parse_eq_ok_iff.mp counted
  obtain ⟨few, -⟩ := reads_readActionCount.mp reads
  refine .ite (fun _ => follows_pure _) fun _ => ?_
  exact (OrchardBundle.follows_readGuarded few).bind fun bundle => follows_pure _

theorem follows_readV5 (version group : UInt32) : Follows (readV5Guarded version group) (readV5 version group) := by
  refine (follows_ofReader _).bind fun _ => ?_
  refine (follows_ofReader _).bind fun branch => ?_
  refine (follows_ofReader _).bind fun _ => ?_
  refine (follows_ofReader _).bind fun _ => ?_
  refine (decodes_parse follows_readTransparent).nested.bind fun ⟨inputs, outputs⟩ => ?_
  refine (follows_ofReader _).bind fun _ => ?_
  refine (follows_ofReader _).bind fun _ => ?_
  refine follows_readOrchard.bind fun orchard => ?_
  exact follows_pure _

theorem decodes : Decodes decode read := by
  refine decodes_start ((follows_ofReader _).ends fun version => ?_)
  refine (follows_ofReader _).ends fun group => Decodes.hand (decodes_parse ?_)
  exact .ite (fun _ => follows_readV4 version group) fun _ => follows_readV5 version group

end TransactionBody

namespace Transaction

theorem decodes (txid : Option Bytes) : Decodes (decode txid) (read txid) := by
  unfold decode read
  cases txid.mapM Txid.check with
  | error error => exact decodes_fail error
  | ok txid => exact TransactionBody.decodes.withBytes.map fun _ => rfl

theorem decodes_alone (txids : Option (List Bytes)) (txVersion : Option UInt32) :
    Decodes (decodeAlone txids txVersion) (readAlone txids txVersion) := by
  refine .congr_if (decodes_fail _) ?_
  rcases txids with _ | _ | ⟨txid, _ | ⟨other, others⟩⟩
  · exact decodes none
  · exact decodes_fail _
  · exact decodes (some txid)
  · exact decodes_fail _

end Transaction

structure Transaction.Sized (tx : Transaction) : Prop where
  scripts : ∀ input ∈ tx.inputs, input.script.length < Word.limit
  ciphertexts : ∀ action ∈ tx.actions, Action.compactCiphertextLength ≤ action.ciphertext.length

theorem TransactionForm.sized (form : TransactionForm) (txid : Option Bytes) :
    (form.transaction txid).Sized where
  scripts := by
    have short (inputs : List InputForm) :
        ∀ input ∈ inputs.map InputForm.input, input.script.length < Word.limit := by
      rintro input member
      obtain ⟨raw, -, rfl⟩ := List.mem_map.mp member
      exact Nat.lt_of_le_of_lt raw.script.property (by decide)
    cases form with
    | v4 form => exact short _
    | v5 form => exact short _
  ciphertexts := by
    intro action member
    rw [form.actions_transaction] at member
    obtain ⟨raw, -, rfl⟩ := List.mem_map.mp member
    exact Nat.le_trans (by decide) (Nat.le_of_eq raw.ciphertext.property.symm)

theorem BlockForm.Gives.sized {form : BlockForm} {txids : Option (List Bytes)} {block : Block}
    (gives : form.Gives txids block) {tx : Transaction} (member : tx ∈ block.transactions) : tx.Sized := by
  obtain ⟨index, raw, -, rfl⟩ := gives.mem_transactions member
  exact raw.sized _

theorem Action.compactGuarded_eq {action : Action} (long : compactCiphertextLength ≤ action.ciphertext.length) :
    action.compactGuarded = .ok action.toCompact := by
  rw [compactGuarded, Guarded.slice_eq (Nat.zero_le _) long]
  rfl

theorem Action.mapM_compactGuarded {actions : List Action}
    (long : ∀ action ∈ actions, compactCiphertextLength ≤ action.ciphertext.length) :
    actions.mapM compactGuarded = .ok (actions.map toCompact) := by
  induction actions with
  | nil => rfl
  | cons action later ih =>
    have rest := ih fun other member => long other (List.mem_cons_of_mem action member)
    rw [List.mapM_cons, compactGuarded_eq (long action List.mem_cons_self), rest]
    rfl

theorem Transaction.Sized.compactGuarded_eq {tx : Transaction} (sized : tx.Sized) (index : Nat) :
    tx.compactGuarded index = .ofAnswer (tx.toCompact index) := by
  rw [compactGuarded, toCompact, Action.mapM_compactGuarded sized.ciphertexts]
  cases tx.txid <;> rfl

namespace Block

variable {form : BlockForm} {txids : Option (List Bytes)} {block : Block}

theorem compactGuarded_eq (sized : ∀ tx ∈ block.transactions, tx.Sized) (treeSize : UInt32) :
    block.compactGuarded treeSize = .ofAnswer (block.toCompact treeSize) := by
  have each : ∀ entry ∈ block.transactions.zipIdx.filter fun entry => entry.1.isShielded,
      entry.1.compactGuarded entry.2 = .ofAnswer (entry.1.toCompact entry.2) := by
    rintro ⟨tx, index⟩ member
    obtain ⟨-, -, found⟩ := List.mem_zipIdx (List.mem_of_mem_filter member)
    exact (sized tx (found ▸ List.getElem_mem _)).compactGuarded_eq index
  have listed := Checked.mapM_ofAnswer each
  change Checked.bind (List.mapM (fun entry : Transaction × Nat => entry.1.compactGuarded entry.2) _) _ =
    .ofAnswer (Except.bind (List.mapM (fun entry : Transaction × Nat => entry.1.toCompact entry.2) _) _)
  rw [listed]
  generalize List.mapM (fun entry : Transaction × Nat => entry.1.toCompact entry.2) _ = answer
  cases answer <;> rfl

theorem heightGuarded_eq {transactions : List Transaction} (sized : ∀ tx ∈ transactions, tx.Sized) :
    heightGuarded transactions = .ofAnswer (heightOf transactions) := by
  unfold heightGuarded heightOf
  cases found : coinbaseScript? transactions with
  | none => rfl
  | some script =>
    have small : script.length < Word.limit := by
      cases transactions with
      | nil => contradiction
      | cons coinbase later =>
        obtain ⟨input, first, rfl⟩ := Option.map_eq_some_iff.mp found
        exact (sized coinbase List.mem_cons_self).scripts input (List.mem_of_head? first)
    have answered := (ScriptNumber.follows_readGuarded "coinbase height").start_eq small
    simp only [answered]
    cases ((ScriptNumber.read "coinbase height").run script).1 with
    | error error => rfl
    | ok number =>
      change (if number = genesisMarker then pure 0 else _ : Checked Nat) = .ofAnswer (if _ then _ else _)
      split
      · rfl
      split <;> rfl

theorem follows_readTransactions (txids : Option (List Bytes)) (before : List Transaction) (count : Nat) :
    Follows (readTransactionsGuarded txids before count) (readTransactions txids before count) := by
  induction count generalizing txids before with
  | zero => exact follows_pure _
  | succ count ih => exact (Transaction.decodes _).nested.bind fun tx => ih _ (tx :: before)

theorem follows_readGuarded (txids : Option (List Bytes)) :
    Follows (readGuarded txids) (do
      let header ← Header.read
      let count ← CompactSize.read "FullBlock::tx_count"
      checkTxidCount txids count
      let transactions ← .reserve count Transaction.leastLength (readTransactions txids [] count)
      let height ← Reader.ofExcept (heightOf transactions)
      return ⟨header, transactions, height⟩) := by
  refine (Header.decodes none none).nested.bind fun header => ?_
  refine (follows_ofReader _).bind fun count => ?_
  refine (follows_ofReader _).bind fun _ => ?_
  have each := (follows_readTransactions txids [] count).reserve count Transaction.leastLength
  refine each.bind_of fun transactions ⟨_, _, listed⟩ => ?_
  obtain ⟨_, reads, -⟩ := Reader.parse_eq_ok_iff.mp listed
  obtain ⟨forms, -, -, -, rfl⟩ := reads_readTransactions.mp reads
  have sized : ∀ tx ∈ [].reverse ++ forms.mapIdx fun index form =>
      form.transaction (txids.bind fun ids => ids[index]?), tx.Sized := by
    intro tx member
    obtain ⟨index, within, rfl⟩ := List.mem_mapIdx.mp member
    exact forms[index].sized _
  rw [heightGuarded_eq sized]
  exact follows_ofChecked.bind fun height => follows_pure _

theorem decodes (txids : Option (List Bytes)) (txVersion : Option UInt32) :
    Decodes (decode txids txVersion) (read txids txVersion) :=
  .congr_if (decodes_fail _) (decodes_parse (follows_readGuarded txids))

end Block

theorem Transaction.sized_of_parse {txids : Option (List Bytes)} {txVersion : Option UInt32}
    {data rest : Bytes} {tx : Transaction}
    (parsed : (readAlone txids txVersion).parse data = .ok (tx, rest)) : tx.Sized := by
  obtain ⟨_, reads, -⟩ := Reader.parse_eq_ok_iff.mp parsed
  obtain ⟨form, txid, -, rfl⟩ := form_of_readAlone reads
  exact form.sized txid

theorem Block.sized_of_parse {txids : Option (List Bytes)} {txVersion : Option UInt32}
    {data rest : Bytes} {block : Block} (parsed : (read txids txVersion).parse data = .ok (block, rest)) :
    ∀ tx ∈ block.transactions, tx.Sized := by
  obtain ⟨_, reads, -⟩ := Reader.parse_eq_ok_iff.mp parsed
  cases txVersion with
  | some version => exact reads.elim
  | none =>
    obtain ⟨form, -, gives⟩ := reads_read.mp reads
    exact fun tx => gives.sized

/-- Whatever the input announces, no step of a decoder goes out of range: it answers, or fails, as its reader
does. So it is with the compact forms of what was read. Of the input it is only asked that its length is a
word, as the length of anything in memory is. -/
theorem decoders_stay_in_range (data : Bytes) (small : data.length < Word.limit)
    (txids : Option (List Bytes)) (txVersion : Option UInt32) :
    TransparentInput.decode txids txVersion data =
      .ofAnswer ((TransparentInput.read.withoutArguments "TxIn" txids txVersion).parse data) ∧
    TransparentOutput.decode txids txVersion data =
      .ofAnswer ((TransparentOutput.read.withoutArguments "TxOut" txids txVersion).parse data) ∧
    Action.decode txids txVersion data =
      .ofAnswer ((Action.read.withoutArguments "Action" txids txVersion).parse data) ∧
    Header.decode txids txVersion data =
      .ofAnswer ((Header.read.withoutArguments "BlockHeaderData" txids txVersion).parse data) ∧
    Transaction.decodeAlone txids txVersion data =
      .ofAnswer ((Transaction.readAlone txids txVersion).parse data) ∧
    Block.decode txids txVersion data = .ofAnswer ((Block.read txids txVersion).parse data) ∧
    (∀ tx rest, Transaction.decodeAlone txids txVersion data = .ok (tx, rest) →
      ∀ index, tx.compactGuarded index = .ofAnswer (tx.toCompact index)) ∧
    ∀ block rest, Block.decode txids txVersion data = .ok (block, rest) →
      (∀ treeSize, block.compactGuarded treeSize = .ofAnswer (block.toCompact treeSize)) ∧
      ∀ tx ∈ block.transactions, ∀ index, tx.compactGuarded index = .ofAnswer (tx.toCompact index) := by
  have transactions := Transaction.decodes_alone txids txVersion data small
  have blocks := Block.decodes txids txVersion data small
  refine ⟨Decoder.decodes_alone _ _ txids txVersion data small,
    Decoder.decodes_alone _ _ txids txVersion data small,
    Decoder.decodes_alone _ _ txids txVersion data small,
    Header.decodes txids txVersion data small, transactions, blocks, ?_, ?_⟩
  · intro tx rest decoded
    rw [transactions] at decoded
    exact (Transaction.sized_of_parse (Checked.ofAnswer_eq_ok decoded)).compactGuarded_eq
  · intro block rest decoded
    rw [blocks] at decoded
    have sized := Block.sized_of_parse (Checked.ofAnswer_eq_ok decoded)
    exact ⟨Block.compactGuarded_eq sized, fun tx member => (sized tx member).compactGuarded_eq⟩

def announcing : Bytes := [0x04, 0, 0, 0x80, 0x85, 0x20, 0x2f, 0x89, 0xfe, 0, 0, 0, 2]

theorem decoders_stay_in_range_mixed :
    let ids : List Bytes := [List.replicate 32 1, List.replicate 32 2, List.replicate 32 3]
    let data := Block.mixedForm.bytes ++ [1]
    announcing.length < Word.limit ∧
      Transaction.decodeAlone none none announcing = .error (.truncated "TxIn::PrevTxHash") ∧
      data.length < Word.limit ∧
      Block.decode (some ids) none data = .ok (Block.mixedBlock (some ids), [1]) ∧
      ∃ compact, (Block.mixedBlock (some ids)).compactGuarded 3 = .ok compact := by
  intro ids data
  have short : announcing.length < Word.limit := by decide
  have small : data.length < Word.limit := by decide +kernel
  obtain ⟨-, -, -, -, refused, -⟩ := decoders_stay_in_range announcing short none none
  obtain ⟨-, -, -, -, -, decoded, -, compacted⟩ := decoders_stay_in_range data small (some ids) none
  have parsed : (Block.read (some ids) none).parse data = .ok (Block.mixedBlock (some ids), [1]) :=
    Block.parse_mixed (by rintro _ ⟨⟩; rfl) (by rintro _ ⟨⟩; decide) [1]
  rw [parsed] at decoded
  exact ⟨short, refused, small, decoded, _, (compacted _ _ decoded).1 3⟩

end CompactChain
