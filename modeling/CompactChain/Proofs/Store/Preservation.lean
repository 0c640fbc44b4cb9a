import CompactChain.Proofs.Store.Consistency
import CompactChain.Proofs.Store.Script

set_option autoImplicit false

namespace CompactChain.Store

theorem length_hash_of_read? {bytes : Bytes} {entry : IndexEntry}
    (read : IndexEntry.read? bytes = some entry)
    (whole : bytes.length = IndexEntry.encodedLength) : entry.hash.length = 32 := by
  unfold IndexEntry.read? at read
  cases bytes with
  | nil => contradiction
  | cons first rest =>
    simp only [List.length_cons, IndexEntry.encodedLength] at whole
    simp only at read
    split at read
    · have same := Option.some.inj read
      rw [← same, List.length_take, List.length_drop]
      omega
    · contradiction

section Verify

variable {height length : Nat} {rawEntry data : Bytes} {previous : Option CompactBlock} {block : CompactBlock}

theorem verify_eq_ok_iff {entry : IndexEntry}
    (read : IndexEntry.read? rawEntry = some entry) :
    verify height rawEntry data previous = .ok (block, length) ↔
      entry.height.toNat = height ∧ length = checksumLength + entry.bodyLength.toNat ∧ length ≤ data.length ∧
        Store.checksum height ((data.take length).drop checksumLength) = (data.take length).take checksumLength ∧
        CompactBlock.decode ((data.take length).drop checksumLength) = .ok block ∧
        block.height.toNat = height ∧ block.hash = entry.hash ∧
        ∀ below ∈ previous, block.prevHash = below.hash := by
  have linked : (previous.any fun below => block.prevHash ≠ below.hash) = true ↔
      ¬ ∀ below ∈ previous, block.prevHash = below.hash := by
    cases previous <;> simp
  have present (length : Nat) : ¬ (data.take length).length < length ↔ length ≤ data.length := by
    rw [List.length_take]
    omega
  simp only [verify, read]
  constructor
  next =>
    intro verified
    split at verified
    · contradiction
    next own =>
    split at verified
    · contradiction
    next stored =>
    split at verified
    · contradiction
    next digest =>
    split at verified
    · contradiction
    next decoded =>
    split at verified
    · contradiction
    next height =>
    split at verified
    · contradiction
    next hash =>
    split at verified
    · contradiction
    next link =>
      obtain ⟨rfl, rfl⟩ := Prod.mk.inj (Except.ok.inj verified)
      exact ⟨not_not.mp own, rfl, (present _).mp stored, not_not.mp digest, decoded, not_not.mp height,
        not_not.mp hash, not_not.mp (mt linked.mpr link)⟩
  next =>
    rintro ⟨own, rfl, stored, digest, decoded, height, hash, link⟩
    rw [if_neg (not_not.mpr own), if_neg ((present _).mpr stored), if_neg (not_not.mpr digest)]
    simp only [decoded, height, hash, ne_eq, not_true_eq_false, if_false]
    rw [if_neg (mt linked.mp (not_not.mpr link))]

theorem read?_of_verify (verified : verify height rawEntry data previous = .ok (block, length)) :
    ∃ entry, IndexEntry.read? rawEntry = some entry := by
  cases read : IndexEntry.read? rawEntry with
  | none => simp [verify, read] at verified
  | some entry => exact ⟨entry, rfl⟩

theorem fits_of_verify (whole : rawEntry.length = IndexEntry.encodedLength)
    (verified : verify height rawEntry data previous = .ok (block, length)) :
    Fits height previous block := by
  obtain ⟨entry, read⟩ := read?_of_verify verified
  obtain ⟨told, rfl, _, _, _, own, hash, linked⟩ := (verify_eq_ok_iff read).mp verified
  have low := entry.height.toNat_lt
  rw [told] at low
  exact ⟨own, low, hash ▸ length_hash_of_read? read whole, linked⟩

theorem length_of_verify (verified : verify height rawEntry data previous = .ok (block, length)) :
    checksumLength ≤ length ∧ length ≤ data.length := by
  obtain ⟨entry, read⟩ := read?_of_verify verified
  obtain ⟨_, rfl, inside, _⟩ := (verify_eq_ok_iff read).mp verified
  exact ⟨Nat.le_add_right _ _, inside⟩

end Verify

theorem recoverFrom_sound (height offset : Nat) (previous : Option CompactBlock) (count : Nat)
    (index data : Bytes) (whole : count * IndexEntry.encodedLength ≤ index.length) :
    let found := recoverFrom height offset previous count index data
    Follows height previous found.blocks ∧ ∃ lengths, found.starts = recordStarts offset lengths ∧
      lengths.length = found.blocks.length ∧ ∀ length ∈ lengths, checksumLength ≤ length := by
  induction count generalizing height offset previous index data with
  | zero => exact ⟨True.intro, [], rfl, rfl, by simp⟩
  | succ count ih =>
    rw [Nat.succ_mul] at whole
    rw [recoverFrom]
    cases verified : verify height (index.take IndexEntry.encodedLength) data previous with
    | error damage => exact ⟨True.intro, [], rfl, rfl, by simp⟩
    | ok pair =>
      obtain ⟨block, length⟩ := pair
      have entry : (index.take IndexEntry.encodedLength).length = IndexEntry.encodedLength := by
        rw [List.length_take]
        omega
      have fits := fits_of_verify entry verified
      have least := (length_of_verify verified).1
      obtain ⟨follows, lengths, starts, counted, each⟩ := ih (height + 1) (offset + length)
        (some block) (index.drop IndexEntry.encodedLength) (data.drop length)
        (by rw [List.length_drop]; omega)
      refine ⟨⟨fits, follows⟩, length :: lengths, ?_, by simp [counted], ?_⟩
      · simp only [recordStarts_cons, starts]
      · intro other member
        cases List.mem_cons.mp member with
        | inl same => rw [same]; exact least
        | inr later => exact each other later

theorem recover_sound {first : Nat} (low : first < 0x100000000) (files : Files) :
    ((recover first files).chain first).Sound := by
  have whole : files.index.length / IndexEntry.encodedLength * IndexEntry.encodedLength ≤
      files.index.length := Nat.div_mul_le_self _ _
  obtain ⟨follows, starts⟩ := recoverFrom_sound first 0 none _ files.index files.blocks whole
  unfold recover
  simp only
  split
  · exact ⟨rfl, follows.next_le (Nat.le_of_lt low), follows, rfl, starts⟩
  · exact ⟨rfl, follows.next_le (Nat.le_of_lt low), follows, rfl, starts⟩

namespace HeldChain

structure Continues (chain after : HeldChain) : Prop where
  sound : after.Sound
  first : after.first = chain.first

variable {chain : HeldChain}

theorem settle_ensures (sound : chain.Sound) (syncFrom : Option Nat) :
    (chain.settle syncFrom).Ensures fun settled => ∀ kept, settled = .ok kept → chain.Continues kept := by
  have whole : chain.Continues chain := ⟨sound, rfl⟩
  apply Script.Ensures.bind_forall
  intro cut
  cases cut with
  | error cause => exact fun _ failed => by contradiction
  | ok =>
    cases syncFrom with
    | none => exact fun kept same => Except.ok.inj same ▸ whole
    | some height =>
      simp only
      split
      · exact fun kept same => Except.ok.inj same ▸ whole
      next less =>
        apply Script.Ensures.bind_forall
        intro again
        cases again with
        | error cause => exact fun _ failed => by contradiction
        | ok => exact fun kept same => Except.ok.inj same ▸ ⟨below_sound sound (by omega), rfl⟩

theorem append_ensures {height : Nat} {block : CompactBlock} (sound : chain.Sound)
    (next : chain.next = height) (fits : Fits height chain.blocks.getLast? block) :
    (chain.append height block).Ensures fun outcome => chain.Continues outcome.chain := by
  have whole : chain.Continues chain := ⟨sound, rfl⟩
  have least : checksumLength ≤ (record height block.encode).length := by
    rw [length_record]
    omega
  unfold append
  simp only
  split
  · exact whole
  · apply Script.Ensures.bind_forall
    intro written
    cases written with
    | ok => exact ⟨push_sound sound (next ▸ fits) least, rfl⟩
    | error cause =>
      apply Script.Ensures.bind_forall
      intro cut
      cases cut with
      | ok => exact whole
      | error cause => exact whole

theorem add_ensures (sound : chain.Sound) (height : Nat) (block : CompactBlock) :
    (chain.add height block).Ensures fun outcome => chain.Continues outcome.chain := by
  unfold add
  split
  · exact ⟨sound, rfl⟩
  next valid =>
    obtain ⟨above, within, fits⟩ := validate_ok sound valid
    have cutNext : (chain.below height).next = height := by
      simp only [below]
      omega
    split
    · apply Script.Ensures.bind_forall
      intro cut
      cases cut with
      | error cause => exact ⟨below_sound sound within, rfl⟩
      | ok =>
        have appended := append_ensures (below_sound sound within) cutNext fits
        exact appended.mono fun _ continues => ⟨continues.sound, continues.first⟩
    next full =>
      have same : height = chain.next := by omega
      rw [same, below_next sound] at fits
      exact append_ensures sound same.symm (same ▸ fits)

theorem addRaw_ensures (sound : chain.Sound) (data : Bytes) (txids : List Bytes)
    (treeSize : UInt32) :
    (chain.addRaw data txids treeSize).Ensures fun outcome => chain.Continues outcome.chain := by
  unfold addRaw
  split
  · exact ⟨sound, rfl⟩
  · exact (add_ensures sound _ _).bind

theorem reorg_ensures (sound : chain.Sound) (height : Nat) :
    (chain.reorg height).Ensures fun outcome => chain.Continues outcome.chain := by
  unfold reorg
  simp only
  split
  · exact ⟨sound, rfl⟩
  · apply Script.Ensures.bind_forall
    intro cut
    cases cut with
    | ok => exact ⟨below_sound sound (by omega), rfl⟩
    | error cause => exact ⟨below_sound sound (by omega), rfl⟩

end HeldChain

end CompactChain.Store
