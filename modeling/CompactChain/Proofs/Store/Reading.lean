import CompactChain.Proofs.Message.RoundTrip
import CompactChain.Proofs.Store.Preservation
import CompactChain.Proofs.Store.Undisturbed

set_option autoImplicit false

namespace CompactChain.Store

theorem verify_image {height : Nat} {previous : Option CompactBlock} {block : CompactBlock}
    (fits : Fits height previous block) (short : block.encode.length < 0x100000000) (data : Bytes) :
    verify height (entryImage height block) (recordImage height block ++ data) previous =
      .ok (block, recordLength block) := by
  have heightKept : (UInt32.ofNat height).toNat = height := UInt32.toNat_ofNat_of_lt' fits.low
  have lengthKept : (UInt32.ofNat block.encode.length).toNat = block.encode.length :=
    UInt32.toNat_ofNat_of_lt' short
  have whole : (recordImage height block ++ data).take (checksumLength + block.encode.length) =
      recordImage height block :=
    List.take_left' (length_recordImage height block)
  have body : (recordImage height block).drop checksumLength = block.encode :=
    List.drop_left' (Blake2b.length_digest _)
  have digest : (recordImage height block).take checksumLength = checksum height block.encode :=
    List.take_left' (Blake2b.length_digest _)
  have decoded : CompactBlock.decode block.encode = .ok block :=
    CompactBlock.decode_encode (Nat.lt_trans short (by decide))
  have linked : (previous.any fun p => block.prevHash ≠ p.hash) = false := by
    cases previous with
    | none => rfl
    | some below => simpa using fits.linked below rfl
  rw [← write_entry fits.low short, verify, IndexEntry.read?_write fits.hash]
  simp only [heightKept, lengthKept, whole, length_recordImage, recordLength, body, digest,
    Nat.lt_irrefl, ne_eq, not_true_eq_false, if_false, decoded, fits.own]
  simpa using linked

theorem verify_of_short (height : Nat) (rawEntry : Bytes) (previous : Option CompactBlock)
    {data : Bytes} (short : data.length < checksumLength) :
    ∃ damage, verify height rawEntry data previous = .error damage := by
  cases verified : verify height rawEntry data previous with
  | error damage => exact ⟨damage, rfl⟩
  | ok answer =>
    obtain ⟨least, inside⟩ := length_of_verify verified
    omega

theorem recoverFrom_image {height : Nat} {previous : Option CompactBlock}
    {blocks : List CompactBlock} (follows : Follows height previous blocks)
    (short : ∀ block ∈ blocks, block.encode.length < 0x100000000) (offset count : Nat)
    (index data : Bytes) :
    recoverFrom height offset previous (blocks.length + count) (indexImage height blocks ++ index)
        (blocksImage height blocks ++ data) =
      let later := recoverFrom (height + blocks.length)
        (offset + (blocks.map recordLength).sum) (blocks.getLast?.or previous) count index data
      ⟨blocks ++ later.blocks,
        (recordStarts offset (blocks.map recordLength)).dropLast ++ later.starts,
        later.damage⟩ := by
  induction blocks generalizing height previous offset with
  | nil => simp [indexImage, blocksImage]
  | cons block rest ih =>
    obtain ⟨fits, later⟩ := follows
    have counted : (block :: rest).length + count = rest.length + count + 1 := by
      rw [List.length_cons]
      omega
    have entry : (entryImage height block ++ (indexImage (height + 1) rest ++ index)).take
        IndexEntry.encodedLength = entryImage height block :=
      List.take_left' (length_entryImage fits.hash)
    have entries : (entryImage height block ++ (indexImage (height + 1) rest ++ index)).drop
        IndexEntry.encodedLength = indexImage (height + 1) rest ++ index :=
      List.drop_left' (length_entryImage fits.hash)
    have records : (recordImage height block ++ (blocksImage (height + 1) rest ++ data)).drop
        (recordLength block) = blocksImage (height + 1) rest ++ data :=
      List.drop_left' (length_recordImage height block)
    have above : height + 1 + rest.length = height + (rest.length + 1) := by omega
    rw [counted, indexImage, blocksImage, List.append_assoc, List.append_assoc, recoverFrom, entry,
      verify_image fits (short block List.mem_cons_self)]
    simp only [entries, records]
    rw [ih later fun other member => short other (List.mem_cons_of_mem _ member)]
    simp [getLast?_cons_or, above, Nat.add_assoc, recordStarts, List.dropLast_cons_of_ne_nil]

-- Either no whole entry is left, or no record fits in the data that is left.
theorem recoverFrom_stops (height offset : Nat) (previous : Option CompactBlock)
    {index data : Bytes}
    (unusable : index.length < IndexEntry.encodedLength ∨ data.length < checksumLength) :
    ∃ damage, recoverFrom height offset previous (index.length / IndexEntry.encodedLength)
        index data = ⟨[], [offset], damage⟩ ∧ (index = [] → damage = none) := by
  cases left : index.length / IndexEntry.encodedLength with
  | zero => exact ⟨none, rfl, fun _ => rfl⟩
  | succ count =>
    have entries : IndexEntry.encodedLength ≤ index.length := by
      simp only [IndexEntry.encodedLength] at left ⊢
      omega
    obtain ⟨damage, failed⟩ := verify_of_short height (index.take IndexEntry.encodedLength) previous
      (unusable.resolve_left (Nat.not_lt.mpr entries))
    refine ⟨some (height, damage), ?_, ?_⟩
    · rw [recoverFrom, failed]
    · intro empty
      simp [empty, IndexEntry.encodedLength] at entries

theorem dropLast_recordStarts (lengths : List Nat) :
    (recordStarts 0 lengths).dropLast ++ [lengths.sum] = recordStarts 0 lengths := by
  have some? : recordStarts 0 lengths ≠ [] := by
    intro empty
    have counted := congrArg List.length empty
    simp at counted
  have last := getLast?_recordStarts lengths
  rw [List.getLast?_eq_some_getLast some?] at last
  rw [← Option.some.inj last, List.dropLast_concat_getLast]

namespace HeldChain

variable {chain : HeldChain}

theorem ofBlocks_eq (sound : chain.Sound) :
    ofBlocks chain.first chain.starts chain.blocks = chain := by
  have next := sound.next_eq
  have latest := sound.latestHash
  cases chain
  simp_all [ofBlocks]

/-- The files begin with those of the chain, and no record can be taken from what follows them. -/
def SurvivesIn (chain : HeldChain) (files : Files) : Prop :=
  ∃ tail rest, files = ⟨chain.files.blocks ++ tail, chain.files.index ++ rest⟩ ∧
    (rest.length < IndexEntry.encodedLength ∨ tail.length < checksumLength)

theorem survivesIn_files (chain : HeldChain) : chain.SurvivesIn chain.files :=
  ⟨[], [], by simp, .inl (by decide)⟩

theorem recover_survives {files : Files} (recorded : chain.Recorded)
    (survives : chain.SurvivesIn files) :
    (recover chain.first files).chain chain.first = chain ∧
      (files = chain.files → (recover chain.first files).damage = none) := by
  obtain ⟨tail, rest, rfl, unusable⟩ := survives
  have sound := recorded.sound
  have entries := length_indexImage sound.follows
  have counted : (chain.files.index ++ rest).length / IndexEntry.encodedLength =
      chain.blocks.length + rest.length / IndexEntry.encodedLength := by
    simp only [HeldChain.files, List.length_append, entries, IndexEntry.encodedLength]
    omega
  have left : (chain.files.index ++ rest).length % IndexEntry.encodedLength =
      rest.length % IndexEntry.encodedLength := by
    simp only [HeldChain.files, List.length_append, entries, IndexEntry.encodedLength]
    omega
  obtain ⟨damage, stops, clean⟩ := recoverFrom_stops (chain.first + chain.blocks.length)
    (chain.blocks.map recordLength).sum (chain.blocks.getLast?.or none) unusable
  have found := recoverFrom_image sound.follows recorded.short 0
    (rest.length / IndexEntry.encodedLength) rest tail
  simp only [Nat.zero_add, stops, List.append_nil, dropLast_recordStarts] at found
  rw [← recorded.starts] at found
  simp only [recover, counted, left]
  simp only [HeldChain.files, found]
  constructor
  · split
    · exact ofBlocks_eq sound
    · exact ofBlocks_eq sound
  · intro same
    have none : rest = [] := by simpa using congrArg Files.index same
    simp [none, clean none]

theorem settle_survives {files : Files} (recorded : chain.Recorded)
    (survives : chain.SurvivesIn files) (syncFrom : Option Nat) :
    (recover chain.first files).settle .perfect chain.first syncFrom files =
      (.ok (chain.discard syncFrom), (chain.discard syncFrom).files) := by
  rw [Recovered.settle, (recover_survives recorded survives).1, Script.run_perfect_eq,
    settle_result recorded.sound]
  obtain ⟨tail, rest, rfl, _⟩ := survives
  rw [settle_files recorded]

end HeldChain

end CompactChain.Store
