import CompactChain.Proofs.Chain.BlockForm
import CompactChain.Proofs.Chain.BlockReading

set_option autoImplicit false

namespace CompactChain

def Block.EncodedIn (block : Block) (data : Bytes) (txids : List Bytes) : Prop :=
  ∃ form : BlockForm, data = form.bytes ∧ form.Gives (some txids) block

def Block.kept (block : Block) : List (Transaction × Nat) :=
  block.transactions.zipIdx.filter fun (tx, _) => tx.actions ≠ []

def Block.revealed (block : Block) : List (Nat × Option Bytes × List Bytes) :=
  block.kept.map fun (tx, index) => (index, tx.txid, tx.actions.map Action.nullifier)

structure CompactBlock.Shows (view : CompactBlock)
    (revealed : List (Nat × Option Bytes × List Bytes)) : Prop where
  transactions : view.transactions.map (fun tx =>
    (tx.index.toNat, some tx.hash, tx.actions.map CompactAction.nullifier)) = revealed
  bare : ∀ tx ∈ view.transactions, tx.fee = 0 ∧ tx.spends = [] ∧ tx.outputs = [] ∧
    ∀ action ∈ tx.actions, action = { nullifier := action.nullifier }

theorem HeightSpelled.height_lt {transactions : List TransactionBody} {height : Nat}
    (spelled : HeightSpelled transactions height) : height < 2 ^ 63 := by
  obtain ⟨_, _, _, _, code, _, number, _, _, _, spells, known, rfl⟩ := spelled
  have fits : number.natAbs < 2 ^ 63 := by
    cases spells with
    | shortest _ fits => exact fits
    | pushedNegative => decide
    | pushed value _ most => omega
  split <;> omega

theorem TransactionForm.isShielded_iff (form : TransactionForm) (txid : Option Bytes) :
    (form.transaction txid).isShielded ↔ (form.transaction txid).actions ≠ [] := by
  cases form with
  | v4 form => simp [Transaction.isShielded, Transaction.actions, transaction, body, V4Form.body]
  | v5 form =>
    have late : (5 : UInt32) ≤ form.version := form.version.property.1
    simp [Transaction.isShielded, transaction, body, V5Form.body, late]

namespace BlockForm

variable {form : BlockForm} {txids : Option (List Bytes)} {block : Block}

theorem Gives.few (gives : form.Gives txids block) : block.transactions.length ≤ CompactSize.limit := by
  rw [gives.transactions, List.length_mapIdx]
  exact form.transactions.property

theorem Gives.mem_transactions (gives : form.Gives txids block) {tx : Transaction}
    (member : tx ∈ block.transactions) :
    ∃ (index : Nat) (raw : TransactionForm), form.transactions.val[index]? = some raw ∧
      tx = raw.transaction (txids.bind fun ids => ids[index]?) := by
  rw [gives.transactions, List.mem_mapIdx] at member
  obtain ⟨index, within, rfl⟩ := member
  exact ⟨index, _, List.getElem?_eq_getElem within, rfl⟩

theorem Gives.shielded (gives : form.Gives txids block) {tx : Transaction}
    (member : tx ∈ block.transactions) : tx.isShielded ↔ tx.actions ≠ [] := by
  obtain ⟨index, raw, -, rfl⟩ := gives.mem_transactions member
  exact raw.isShielded_iff _

end BlockForm

namespace Block

variable {block : Block} {data : Bytes} {txids : List Bytes} {treeSize : UInt32}

structure Identified (block : Block) : Prop where
  height : block.height < 2 ^ 63
  hash : block.header.hash.length = 32
  few : block.transactions.length ≤ CompactSize.limit
  txid : ∀ tx ∈ block.transactions, tx.txid.isSome
  shielded : ∀ tx ∈ block.transactions, tx.isShielded ↔ tx.actions ≠ []

theorem EncodedIn.identified (encoded : block.EncodedIn data txids) : block.Identified := by
  obtain ⟨form, -, gives⟩ := encoded
  have counted := gives.idForEach txids rfl
  have digest : block.header.hash.length = 32 := by rw [gives.hash, Sha256.length_digestTwice]
  refine ⟨gives.height.height_lt, digest, gives.few, ?txid, fun _ => gives.shielded⟩
  intro tx member
  obtain ⟨index, raw, found, rfl⟩ := gives.mem_transactions member
  have there : index < txids.length := counted ▸ (List.getElem?_eq_some_iff.mp found).1
  simp [TransactionForm.transaction, there]

def compactTx (entry : Transaction × Nat) : CompactTx where
  index := UInt64.ofNat entry.2
  hash := entry.1.txid.getD []
  actions := entry.1.actions.map Action.toCompact

theorem mapM_toCompact {entries : List (Transaction × Nat)}
    (txid : ∀ entry ∈ entries, entry.1.txid.isSome) :
    (entries.mapM fun (tx, index) => tx.toCompact index) = .ok (entries.map compactTx) := by
  induction entries with
  | nil => rfl
  | cons entry later ih =>
    obtain ⟨tx, index⟩ := entry
    obtain ⟨id, known⟩ : ∃ id, tx.txid = some id :=
      Option.isSome_iff_exists.mp (txid _ List.mem_cons_self)
    have rest := ih fun other member => txid other (List.mem_cons_of_mem _ member)
    have first : tx.toCompact index = .ok (compactTx (tx, index)) := by
      simp only [Transaction.toCompact, known, compactTx, Option.getD_some]
    simp only [List.mapM_cons, first, rest]
    rfl

def compactWith (block : Block) (treeSize : UInt32) (transactions : List CompactTx) : CompactBlock where
  version := 1
  height := UInt64.ofNat block.height
  hash := block.header.hash
  prevHash := block.header.prevHash
  time := block.header.time
  transactions := transactions
  metadata := some { orchardTreeSize := treeSize }

theorem toCompact_eq_map (shielded : ∀ tx ∈ block.transactions, tx.isShielded ↔ tx.actions ≠ [])
    (treeSize : UInt32) :
    block.toCompact treeSize =
      (block.kept.mapM fun (tx, index) => Transaction.toCompact tx index).map
        (block.compactWith treeSize) := by
  have same : (block.transactions.zipIdx.filter fun (tx, _) => tx.isShielded) = block.kept := by
    apply List.filter_congr
    rintro ⟨tx, index⟩ member
    obtain ⟨-, -, found⟩ := List.mem_zipIdx member
    have carries := shielded tx (found ▸ List.getElem_mem _)
    rw [Bool.eq_iff_iff, decide_eq_true_eq]
    exact carries
  rw [toCompact, same]
  cases block.kept.mapM fun (tx, index) => Transaction.toCompact tx index <;> rfl

section Identified

variable (identified : block.Identified)

include identified

theorem Identified.mem_kept {entry : Transaction × Nat} (member : entry ∈ block.kept) :
    entry.1.txid.isSome ∧ entry.2 < 2 ^ 64 := by
  obtain ⟨-, below, found⟩ := List.mem_zipIdx (List.mem_of_mem_filter member)
  have few := identified.few
  refine ⟨identified.txid entry.1 (found ▸ List.getElem_mem _), ?_⟩
  unfold CompactSize.limit at few
  omega

theorem Identified.toCompact_eq (treeSize : UInt32) :
    block.toCompact treeSize = .ok (block.compactWith treeSize (block.kept.map compactTx)) := by
  rw [toCompact_eq_map identified.shielded,
    mapM_toCompact fun entry member => (identified.mem_kept member).1]
  rfl

theorem Identified.fits {compact : CompactBlock}
    (compacted : block.toCompact treeSize = .ok compact) :
    compact.height.toNat = block.height ∧ compact.hash.length = 32 := by
  rw [identified.toCompact_eq] at compacted
  obtain rfl := Except.ok.inj compacted
  have low := identified.height
  exact ⟨UInt64.toNat_ofNat_of_lt' (Nat.lt_trans low (by decide)), identified.hash⟩

theorem Identified.shows {compact : CompactBlock}
    (compacted : block.toCompact treeSize = .ok compact) :
    compact.nullifiersOnly.Shows block.revealed := by
  rw [identified.toCompact_eq] at compacted
  obtain rfl := Except.ok.inj compacted
  constructor
  case transactions =>
    simp only [CompactBlock.nullifiersOnly, compactWith, revealed, List.map_map]
    apply List.map_congr_left
    rintro ⟨tx, index⟩ member
    obtain ⟨known, low⟩ := identified.mem_kept member
    obtain ⟨id, known⟩ : ∃ id, tx.txid = some id := Option.isSome_iff_exists.mp known
    have whole : (UInt64.ofNat index).toNat = index := UInt64.toNat_ofNat_of_lt' low
    simp [CompactTx.nullifiersOnly, compactTx, known, whole]
    exact fun _ _ => rfl
  case bare =>
    intro tx member
    simp only [CompactBlock.nullifiersOnly, compactWith, List.map_map] at member
    obtain ⟨entry, -, rfl⟩ := List.mem_map.mp member
    refine ⟨rfl, rfl, rfl, ?_⟩
    intro action among
    obtain ⟨full, -, rfl⟩ := List.mem_map.mp among
    rfl

end Identified

end Block

end CompactChain
