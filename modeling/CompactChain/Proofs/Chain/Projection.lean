import CompactChain.Proofs.Chain.Compacting
import Mathlib.Data.List.Forall2

set_option autoImplicit false

namespace CompactChain

structure Action.CompactsTo (action : Action) (compact : CompactAction) : Prop where
  nullifier : compact.nullifier = action.nullifier
  commitment : compact.commitment = action.commitment
  ephemeralKey : compact.ephemeralKey = action.ephemeralKey
  ciphertext : compact.ciphertext = action.ciphertext.take 52
  keys : action.nullifier.length = 32 ∧ action.commitment.length = 32 ∧ action.ephemeralKey.length = 32
  whole : action.ciphertext.length = 580

structure Transaction.CompactsTo (tx : Transaction) (index : Nat) (compact : CompactTx) : Prop where
  index : compact.index.toNat = index
  txid : tx.txid = some compact.hash
  fee : compact.fee = 0
  spends : compact.spends = []
  outputs : compact.outputs = []
  actions : List.Forall₂ Action.CompactsTo tx.actions compact.actions

structure Block.CompactsTo (block : Block) (treeSize : UInt32) (compact : CompactBlock) : Prop where
  version : compact.version = 1
  height : compact.height.toNat = block.height
  hash : compact.hash = block.header.hash
  prevHash : compact.prevHash = block.header.prevHash
  time : compact.time = block.header.time
  header : compact.header = []
  metadata : compact.metadata = some ⟨0, treeSize⟩
  transactions : List.Forall₂ (fun entry tx => Transaction.CompactsTo entry.1 entry.2 tx) block.kept
    compact.transactions
  increasing : (compact.transactions.map fun tx => tx.index.toNat).Pairwise (· < ·)

def ActionForm.compact (form : ActionForm) : CompactAction where
  nullifier := form.nullifier
  commitment := form.commitment
  ephemeralKey := form.ephemeralKey
  ciphertext := form.ciphertext.val.take 52

def TransactionForm.actions : TransactionForm → List ActionForm
  | v4 _ => []
  | v5 form => form.bundle.elim [] BundleForm.actions

theorem TransactionForm.actions_transaction (form : TransactionForm) (txid : Option Bytes) :
    (form.transaction txid).actions = form.actions.map ActionForm.action := by
  cases form with
  | v4 form => rfl
  | v5 form =>
    obtain ⟨version, branch, lock, expiry, transparent, bundle⟩ := form
    cases bundle <;> rfl

theorem TransactionForm.map_toCompact_actions (form : TransactionForm) (txid : Option Bytes) :
    (form.transaction txid).actions.map Action.toCompact = form.actions.map ActionForm.compact := by
  rw [form.actions_transaction, List.map_map]
  rfl

theorem ActionForm.compactsTo (form : ActionForm) : form.action.CompactsTo form.action.toCompact where
  nullifier := rfl
  commitment := rfl
  ephemeralKey := rfl
  ciphertext := rfl
  keys := ⟨form.nullifier.property, form.commitment.property, form.ephemeralKey.property⟩
  whole := form.ciphertext.property

theorem TransactionForm.forall₂_actions (form : TransactionForm) (txid : Option Bytes) :
    List.Forall₂ Action.CompactsTo (form.transaction txid).actions
      ((form.transaction txid).actions.map Action.toCompact) := by
  rw [form.actions_transaction, List.map_map, List.forall₂_map_left_iff, List.forall₂_map_right_iff,
    List.forall₂_same]
  exact fun action _ => action.compactsTo

theorem flatMap_filter_of_nil {α β : Type} {items : List α} {keep : α → Bool} {parts : α → List β}
    (empty : ∀ item ∈ items, keep item = false → parts item = []) :
    (items.filter keep).flatMap parts = items.flatMap parts := by
  induction items with
  | nil => rfl
  | cons item later ih =>
    have rest := ih fun other member => empty other (List.mem_cons_of_mem item member)
    cases kept : keep item with
    | true => rw [List.filter_cons_of_pos kept, List.flatMap_cons, List.flatMap_cons, rest]
    | false =>
      have none := empty item List.mem_cons_self kept
      rw [List.filter_cons_of_neg (by simp [kept]), List.flatMap_cons, none, List.nil_append, rest]

namespace Block

variable {block : Block} {form : BlockForm} {txids : Option (List Bytes)} {treeSize : UInt32}
  {compact : CompactBlock}

theorem mapM_toCompact_eq_error {entries : List (Transaction × Nat)}
    (missing : ∃ entry ∈ entries, entry.1.txid = none) :
    (entries.mapM fun (tx, index) => Transaction.toCompact tx index) =
      .error (.fieldNotParsed "txid") := by
  induction entries with
  | nil => simp at missing
  | cons entry later ih =>
    obtain ⟨tx, index⟩ := entry
    rw [List.mapM_cons]
    cases known : tx.txid with
    | none => simp only [Transaction.toCompact, known]; rfl
    | some id =>
      have among : ∃ entry ∈ later, entry.1.txid = none := by simpa [known] using missing
      rw [ih among]
      simp only [Transaction.toCompact, known]
      rfl

theorem mem_kept {entry : Transaction × Nat} :
    entry ∈ block.kept ↔ block.transactions[entry.2]? = some entry.1 ∧ entry.1.actions ≠ [] := by
  obtain ⟨tx, index⟩ := entry
  rw [kept, List.mem_filter, List.mk_mem_zipIdx_iff_getElem?, decide_eq_true_eq]

theorem kept_lacks_id_iff : (∃ entry ∈ block.kept, entry.1.txid = none) ↔
    ∃ tx ∈ block.transactions, tx.actions ≠ [] ∧ tx.txid = none := by
  constructor
  · rintro ⟨entry, member, missing⟩
    obtain ⟨found, carries⟩ := mem_kept.mp member
    exact ⟨entry.1, List.mem_of_getElem? found, carries, missing⟩
  · rintro ⟨tx, member, carries, missing⟩
    obtain ⟨index, found⟩ := List.getElem?_of_mem member
    exact ⟨(tx, index), mem_kept.mpr ⟨found, carries⟩, missing⟩

theorem pairwise_kept : (block.kept.map Prod.snd).Pairwise (· < ·) := by
  have all : (block.transactions.zipIdx.map Prod.snd).Pairwise (· < ·) := by
    rw [List.zipIdx_map_snd]
    exact List.pairwise_lt_range'
  exact all.sublist (List.filter_sublist.map Prod.snd)

section Gives

variable (gives : form.Gives txids block)

include gives

theorem toCompact_error_iff {error : ParseError} :
    block.toCompact treeSize = .error error ↔ error = .fieldNotParsed "txid" ∧
      ∃ tx ∈ block.transactions, tx.actions ≠ [] ∧ tx.txid = none := by
  rw [toCompact_eq_map fun _ => gives.shielded, ← kept_lacks_id_iff]
  by_cases missing : ∃ entry ∈ block.kept, entry.1.txid = none
  next =>
    rw [mapM_toCompact_eq_error missing]
    simp [Except.map, missing, eq_comm]
  next =>
    have known : ∀ entry ∈ block.kept, entry.1.txid.isSome := by
      intro entry member
      exact Option.isSome_iff_ne_none.mpr fun none => missing ⟨entry, member, none⟩
    rw [mapM_toCompact known]
    simp [Except.map, missing]

theorem toCompact_ok (compacted : block.toCompact treeSize = .ok compact) :
    (∀ entry ∈ block.kept, entry.1.txid.isSome) ∧
      compact = block.compactWith treeSize (block.kept.map compactTx) := by
  have known : ∀ entry ∈ block.kept, entry.1.txid.isSome := by
    intro entry member
    refine Option.isSome_iff_ne_none.mpr fun none => ?_
    have failed : block.toCompact treeSize = .error (.fieldNotParsed "txid") :=
      (toCompact_error_iff gives).mpr ⟨rfl, kept_lacks_id_iff.mp ⟨entry, member, none⟩⟩
    rw [compacted] at failed
    contradiction
  refine ⟨known, ?_⟩
  rw [toCompact_eq_map fun _ => gives.shielded, mapM_toCompact known] at compacted
  exact (Except.ok.inj compacted).symm

theorem compactTx_index {entry : Transaction × Nat} (member : entry ∈ block.kept) :
    (compactTx entry).index.toNat = entry.2 := by
  obtain ⟨found, -⟩ := mem_kept.mp member
  have within := (List.getElem?_eq_some_iff.mp found).1
  have few := gives.few
  have low : entry.2 < 2 ^ 64 := by
    unfold CompactSize.limit at few
    omega
  exact UInt64.toNat_ofNat_of_lt' low

theorem compactsTo_compactTx {entry : Transaction × Nat} (member : entry ∈ block.kept)
    (known : entry.1.txid.isSome) : entry.1.CompactsTo entry.2 (compactTx entry) where
  index := compactTx_index gives member
  txid := by
    obtain ⟨id, known⟩ := Option.isSome_iff_exists.mp known
    rw [compactTx, known, Option.getD_some]
  fee := rfl
  spends := rfl
  outputs := rfl
  actions := by
    obtain ⟨index, raw, -, same⟩ := gives.mem_transactions
      (List.mem_of_getElem? (mem_kept.mp member).1)
    rw [compactTx, same]
    exact raw.forall₂_actions _

theorem compactsTo (known : ∀ entry ∈ block.kept, entry.1.txid.isSome) :
    block.CompactsTo treeSize (block.compactWith treeSize (block.kept.map compactTx)) where
  version := rfl
  height := UInt64.toNat_ofNat_of_lt' (Nat.lt_trans gives.height.height_lt (by decide))
  hash := rfl
  prevHash := rfl
  time := rfl
  header := rfl
  metadata := rfl
  transactions := by
    simp only [compactWith, List.forall₂_map_right_iff, List.forall₂_same]
    exact fun entry member => compactsTo_compactTx gives member (known entry member)
  increasing := by
    simp only [compactWith, List.map_map]
    have places : block.kept.map ((fun tx => tx.index.toNat) ∘ compactTx) = block.kept.map Prod.snd :=
      List.map_congr_left fun entry member => compactTx_index gives member
    rw [places]
    exact pairwise_kept

theorem flatMap_actions : (block.kept.map compactTx).flatMap CompactTx.actions =
    form.transactions.val.flatMap fun tx => tx.actions.map ActionForm.compact := by
  calc
    (block.kept.map compactTx).flatMap CompactTx.actions
      = block.kept.flatMap fun entry => entry.1.actions.map Action.toCompact := by
        rw [List.flatMap_map]
        rfl
    _ = block.transactions.zipIdx.flatMap fun entry => entry.1.actions.map Action.toCompact := by
        apply flatMap_filter_of_nil
        intro entry _ bare
        rw [not_not.mp (of_decide_eq_false bare), List.map_nil]
    _ = block.transactions.flatMap fun tx => tx.actions.map Action.toCompact := by
        conv_rhs => rw [← List.zipIdx_map_fst 0 block.transactions, List.flatMap_map]
    _ = form.transactions.val.zipIdx.flatMap fun entry => entry.1.actions.map ActionForm.compact := by
        rw [gives.transactions, List.mapIdx_eq_zipIdx_map, List.flatMap_map]
        simp only [TransactionForm.map_toCompact_actions]
    _ = form.transactions.val.flatMap fun tx => tx.actions.map ActionForm.compact := by
        conv_rhs => rw [← List.zipIdx_map_fst 0 form.transactions.val, List.flatMap_map]

theorem compactTx_hash {entry : Transaction × Nat} (member : entry ∈ block.kept)
    (known : entry.1.txid.isSome) :
    (txids.bind fun ids => ids[(compactTx entry).index.toNat]?) = some (compactTx entry).hash := by
  have shown := (compactsTo_compactTx gives member known).txid
  obtain ⟨found, -⟩ := mem_kept.mp member
  rw [gives.transactions, List.getElem?_mapIdx] at found
  obtain ⟨raw, -, same⟩ := Option.map_eq_some_iff.mp found
  rw [compactTx_index gives member, ← shown, ← same]
  rfl

end Gives

/-- A block that was read has a compact form unless a transaction with actions has no id. All actions of
its encoding are told there, each once and in the order of the encoding. -/
theorem compacted_of_parsed (data rest : Bytes) (txids : Option (List Bytes)) (txVersion : Option UInt32)
    (block : Block) (treeSize : UInt32)
    (parsed : (read txids txVersion).parse data = .ok (block, rest)) :
    (∀ error, block.toCompact treeSize = .error error ↔ error = .fieldNotParsed "txid" ∧
      ∃ tx ∈ block.transactions, tx.actions ≠ [] ∧ tx.txid = none) ∧
    ∀ compact, block.toCompact treeSize = .ok compact →
      block.CompactsTo treeSize compact ∧
      (∀ tx ∈ compact.transactions,
        (txids.bind fun ids => ids[tx.index.toNat]?) = some tx.hash) ∧
      ∃ form : BlockForm, data = form.bytes ++ rest ∧
        compact.transactions.flatMap CompactTx.actions =
          form.transactions.val.flatMap fun tx => tx.actions.map ActionForm.compact := by
  obtain ⟨taken, reads, rfl⟩ := Reader.parse_eq_ok_iff.mp parsed
  cases txVersion with
  | some version => exact reads.elim
  | none =>
    obtain ⟨form, rfl, gives⟩ := reads_read.mp reads
    refine ⟨fun error => toCompact_error_iff gives, fun compact compacted => ?_⟩
    obtain ⟨known, rfl⟩ := toCompact_ok gives compacted
    refine ⟨compactsTo gives known, ?_, form, rfl, flatMap_actions gives⟩
    intro tx member
    obtain ⟨entry, among, rfl⟩ := List.mem_map.mp member
    exact compactTx_hash gives among (known entry among)

def filled (byte : UInt8) (width : Nat) : FixedBytes width :=
  ⟨List.replicate width byte, List.length_replicate⟩

def nothing {α : Type} : ShortList α :=
  ⟨[], Nat.zero_le _⟩

def plainAction (byte : UInt8) : ActionForm where
  valueCommitment := filled 0 32
  nullifier := filled byte 32
  key := filled 0 32
  commitment := filled byte 32
  ephemeralKey := filled byte 32
  ciphertext := filled byte 580
  outCiphertext := filled 0 80

def mixedForm : BlockForm where
  header := ⟨4, filled 1 32, filled 2 32, filled 3 32, 7, filled 0 4, filled 0 32, nothing⟩
  transactions := ⟨[
    .v4 ⟨⟨⟨[⟨filled 0 32, filled 0 4, ⟨[0x57], by decide⟩, filled 0 4⟩], by decide⟩, nothing⟩,
      filled 0 4, filled 0 4, filled 0 8⟩,
    .v5 ⟨⟨6, by decide⟩, 0, filled 0 4, filled 0 4, ⟨nothing, nothing⟩,
      some ⟨[plainAction 8, plainAction 9], by decide, by decide, filled 0 1, 0, filled 0 32,
        nothing, filled 0 (64 * 2), filled 0 64⟩⟩,
    .v5 ⟨⟨7, by decide⟩, 0, filled 0 4, filled 0 4, ⟨nothing, nothing⟩, none⟩],
    by decide⟩

def mixedBlock (txids : Option (List Bytes)) : Block where
  header := mixedForm.header.header
  transactions := mixedForm.transactions.val.mapIdx fun index tx =>
    tx.transaction (txids.bind fun ids => ids[index]?)
  height := 7

theorem parse_mixed {txids : Option (List Bytes)} (counted : ∀ ids ∈ txids, ids.length = 3)
    (whole : ∀ ids ∈ txids, ∀ id ∈ ids, id.length = 32) (rest : Bytes) :
    (read txids none).parse (mixedForm.bytes ++ rest) = .ok (mixedBlock txids, rest) := by
  refine Reader.parse_eq_ok_iff.mpr ⟨mixedForm.layout, reads_read.mpr ⟨mixedForm, rfl, ?_⟩, rfl⟩
  exact {
    idForEach := counted
    ids := whole
    fields := rfl
    rewritten := mixedForm.header.write_fields
    raw := rfl
    hash := rfl
    transactions := rfl
    height := ⟨_, _, _, _, [0x57], [], 7, rfl, rfl, rfl, .shortest 7 (by decide), by decide, rfl⟩ }

theorem compacted_of_mixed :
    let ids : List Bytes := [List.replicate 32 1, List.replicate 32 2, List.replicate 32 3]
    ((read (some ids) none).parse (mixedForm.bytes ++ [1]) = .ok (mixedBlock (some ids), [1]) ∧
      ∃ compact, (mixedBlock (some ids)).toCompact 3 = .ok compact ∧
        compact.transactions.map (fun tx => (tx.index, tx.hash, tx.actions.length)) =
          [(1, List.replicate 32 2, 2)] ∧
        (mixedBlock (some ids)).CompactsTo 3 compact) ∧
    (read none none).parse mixedForm.bytes = .ok (mixedBlock none, []) ∧
      (mixedBlock none).toCompact 3 = .error (.fieldNotParsed "txid") := by
  intro ids
  have parsed : (read (some ids) none).parse (mixedForm.bytes ++ [1]) =
      .ok (mixedBlock (some ids), [1]) :=
    parse_mixed (by rintro _ ⟨⟩; rfl) (by rintro _ ⟨⟩; decide) [1]
  obtain ⟨compact, compacted, shown⟩ : ∃ compact, (mixedBlock (some ids)).toCompact 3 = .ok compact ∧
      compact.transactions.map (fun tx => (tx.index, tx.hash, tx.actions.length)) =
        [(1, List.replicate 32 2, 2)] := ⟨_, rfl, rfl⟩
  have told := (compacted_of_parsed _ _ _ _ _ 3 parsed).2 compact compacted
  have unnamed : (read none none).parse mixedForm.bytes = .ok (mixedBlock none, []) := by
    have parsed : (read none none).parse (mixedForm.bytes ++ []) = .ok (mixedBlock none, []) :=
      parse_mixed (by rintro _ ⟨⟩) (by rintro _ ⟨⟩) []
    rwa [List.append_nil] at parsed
  refine ⟨⟨parsed, compact, compacted, shown, told.1⟩, unnamed, ?_⟩
  refine ((compacted_of_parsed _ _ _ _ _ 3 unnamed).1 _).mpr ⟨rfl, ?_⟩
  exact ⟨_, List.mem_of_getElem? (i := 1) rfl, List.cons_ne_nil _ _, rfl⟩

end Block

end CompactChain
