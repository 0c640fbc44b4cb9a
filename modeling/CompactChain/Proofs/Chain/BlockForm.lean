import CompactChain.Chain.Block
import CompactChain.Proofs.Chain.TransactionForm
import CompactChain.Proofs.Wire.ScriptNumber

set_option autoImplicit false

namespace CompactChain

open Layout (field)

structure HeaderForm where
  version : Int32
  prevHash : FixedBytes 32
  merkleRoot : FixedBytes 32
  commitments : FixedBytes 32
  time : UInt32
  bits : FixedBytes 4
  nonce : FixedBytes 32
  solution : ShortBytes

structure BlockForm where
  header : HeaderForm
  transactions : ShortList TransactionForm

def HeaderFields.write (fields : HeaderFields) : Bytes := [
  LittleEndian.ofNat 4 fields.version.toUInt32.toNat,
  fields.prevHash,
  fields.merkleRoot,
  fields.commitments,
  LittleEndian.ofNat 4 fields.time.toNat,
  fields.bits,
  fields.nonce,
  CompactSize.writePrefixed fields.solution].flatten

namespace HeaderForm

def layout (form : HeaderForm) : Layout := [
  field "BlockHeaderData::version" (LittleEndian.ofNat 4 form.version.toUInt32.toNat),
  field "BlockHeaderData::hash_prev_block" form.prevHash,
  field "BlockHeaderData::hash_merkle_root" form.merkleRoot,
  field "BlockHeaderData::hash_block_commitments" form.commitments,
  field "BlockHeaderData::time" (LittleEndian.ofNat 4 form.time.toNat),
  field "BlockHeaderData::n_bits_bytes" form.bits,
  field "BlockHeaderData::nonce" form.nonce,
  field "BlockHeaderData::solution" (CompactSize.writePrefixed form.solution)].flatten

def bytes (form : HeaderForm) : Bytes :=
  form.layout.bytes

def fields (form : HeaderForm) : HeaderFields :=
  ⟨form.version, form.prevHash, form.merkleRoot, form.commitments, form.time, form.bits, form.nonce,
    form.solution⟩

def header (form : HeaderForm) : Header :=
  { form.fields with raw := form.bytes, hash := Sha256.digestTwice form.bytes }

theorem write_fields (form : HeaderForm) : form.fields.write = form.bytes := by
  simp only [bytes, layout, Layout.bytes_flatten_cons, Layout.bytes_field]
  rfl

theorem unambiguous : Layout.Unambiguous layout := by
  rintro ⟨version, _, _, _, _, _, _, _⟩ ⟨other, _, _, _, _, _, _, _⟩ rest left same
  simp only [layout, Layout.bytes_flatten_cons, List.append_assoc] at same
  obtain ⟨fromPrev, versions⟩ := Layout.unambiguous_word32 same
  obtain ⟨fromMerkle, rfl⟩ := Layout.unambiguous_fixed fromPrev
  obtain ⟨fromCommitments, rfl⟩ := Layout.unambiguous_fixed fromMerkle
  obtain ⟨fromTime, rfl⟩ := Layout.unambiguous_fixed fromCommitments
  obtain ⟨fromBits, rfl⟩ := Layout.unambiguous_word32 fromTime
  obtain ⟨fromNonce, rfl⟩ := Layout.unambiguous_fixed fromBits
  obtain ⟨fromSolution, rfl⟩ := Layout.unambiguous_fixed fromNonce
  obtain ⟨after, rfl⟩ := Layout.unambiguous_prefixed fromSolution
  obtain rfl : version = other := congrArg UInt32.toInt32 versions
  exact ⟨after, rfl⟩

end HeaderForm

def HeightSpelled (transactions : List TransactionBody) (height : Nat) : Prop :=
  ∃ coinbase later input inputs code tail number,
    transactions = coinbase :: later ∧ coinbase.inputs = input :: inputs ∧
      input.script = code ++ tail ∧ ScriptNumber.Spells code number ∧ 0 ≤ number ∧
      height = if number = 0x1F07FFFF then 0 else number.toNat

namespace BlockForm

def layout (form : BlockForm) : Layout := [
  form.header.layout,
  field "FullBlock::tx_count" (CompactSize.write form.transactions.val.length),
  form.transactions.val.flatMap TransactionForm.layout].flatten

def bytes (form : BlockForm) : Bytes :=
  form.layout.bytes

structure Gives (form : BlockForm) (txids : Option (List Bytes)) (block : Block) : Prop where
  idForEach : ∀ ids ∈ txids, ids.length = form.transactions.val.length
  ids : ∀ ids ∈ txids, ∀ id ∈ ids, id.length = 32
  fields : block.header.toHeaderFields = form.header.fields
  rewritten : block.header.write = form.header.bytes
  raw : block.header.raw = form.header.bytes
  hash : block.header.hash = Sha256.digestTwice form.header.bytes
  transactions : block.transactions =
    form.transactions.val.mapIdx fun index tx => tx.transaction (txids.bind fun ids => ids[index]?)
  height : HeightSpelled (form.transactions.val.map TransactionForm.body) block.height

theorem unambiguous : Layout.Unambiguous layout := by
  rintro ⟨_, ⟨transactions, few⟩⟩ ⟨_, ⟨_, fewer⟩⟩ rest left same
  simp only [layout, Layout.bytes_flatten_cons, List.append_assoc] at same
  obtain ⟨fromCount, rfl⟩ := HeaderForm.unambiguous same
  obtain ⟨fromTransactions, counted⟩ := Layout.count_eq few fewer fromCount
  obtain ⟨after, rfl⟩ := TransactionForm.unambiguous.flatMap counted fromTransactions
  exact ⟨after, rfl⟩

end BlockForm

end CompactChain
