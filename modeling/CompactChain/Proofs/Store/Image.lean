import CompactChain.Proofs.Bytes
import CompactChain.Proofs.Store.Consistency
import CompactChain.Proofs.Store.Script

set_option autoImplicit false

namespace CompactChain.Store

def entryImage (height : Nat) (block : CompactBlock) : Bytes :=
  [1] ++ LittleEndian.ofNat 4 height ++ LittleEndian.ofNat 4 block.encode.length ++ block.hash

def recordImage (height : Nat) (block : CompactBlock) : Bytes :=
  Blake2b.digest (LittleEndian.ofNat 8 height ++ block.encode) ++ block.encode

def indexImage : (first : Nat) → List CompactBlock → Bytes
  | _, [] => []
  | height, block :: rest => entryImage height block ++ indexImage (height + 1) rest

def blocksImage : (first : Nat) → List CompactBlock → Bytes
  | _, [] => []
  | height, block :: rest => recordImage height block ++ blocksImage (height + 1) rest

def recordLength (block : CompactBlock) : Nat :=
  checksumLength + block.encode.length

theorem length_recordImage (height : Nat) (block : CompactBlock) :
    (recordImage height block).length = recordLength block :=
  length_record height block.encode

theorem IndexEntry.read?_write {entry : IndexEntry} (h : entry.hash.length = 32) :
    read? entry.write = some entry := by
  obtain ⟨height, bodyLength, hash⟩ := entry
  have heightFits : height.toNat < 256 ^ 4 := height.toNat_lt
  have lengthFits : bodyLength.toNat < 256 ^ 4 := bodyLength.toNat_lt
  have whole : hash.take 32 = hash := List.take_of_length_le (Nat.le_of_eq h)
  simp [write, read?, LittleEndian.toNat_ofNat heightFits, LittleEndian.toNat_ofNat lengthFits, whole,
    List.drop_append, List.drop_eq_nil_of_le]

theorem write_entry {height : Nat} {block : CompactBlock} (low : height < 0x100000000)
    (short : block.encode.length < 0x100000000) :
    (IndexEntry.mk (UInt32.ofNat height) (UInt32.ofNat block.encode.length) block.hash).write =
      entryImage height block := by
  have heightKept : (UInt32.ofNat height).toNat = height := UInt32.toNat_ofNat_of_lt' low
  have lengthKept : (UInt32.ofNat block.encode.length).toNat = block.encode.length :=
    UInt32.toNat_ofNat_of_lt' short
  simp [IndexEntry.write, entryImage, IndexEntry.tag, heightKept, lengthKept]

theorem indexImage_append (first : Nat) (front back : List CompactBlock) :
    indexImage first (front ++ back) =
      indexImage first front ++ indexImage (first + front.length) back := by
  induction front generalizing first with
  | nil => rfl
  | cons block front ih =>
    have above : first + 1 + front.length = first + (front.length + 1) := by omega
    simp [indexImage, ih, above]

theorem blocksImage_append (first : Nat) (front back : List CompactBlock) :
    blocksImage first (front ++ back) =
      blocksImage first front ++ blocksImage (first + front.length) back := by
  induction front generalizing first with
  | nil => rfl
  | cons block front ih =>
    have above : first + 1 + front.length = first + (front.length + 1) := by omega
    simp [blocksImage, ih, above]

theorem length_blocksImage (first : Nat) (blocks : List CompactBlock) :
    (blocksImage first blocks).length = (blocks.map recordLength).sum := by
  induction blocks generalizing first with
  | nil => rfl
  | cons block rest ih => simp [blocksImage, length_recordImage, ih]

theorem length_entryImage {height : Nat} {block : CompactBlock} (hash : block.hash.length = 32) :
    (entryImage height block).length = IndexEntry.encodedLength := by
  simp [entryImage, IndexEntry.encodedLength, hash]

theorem length_indexImage {first : Nat} {previous : Option CompactBlock}
    {blocks : List CompactBlock} (follows : Follows first previous blocks) :
    (indexImage first blocks).length = blocks.length * IndexEntry.encodedLength := by
  induction blocks generalizing first previous with
  | nil => simp [indexImage]
  | cons block rest ih =>
    rw [indexImage, List.length_append, length_entryImage follows.1.hash, ih follows.2,
      List.length_cons, Nat.succ_mul, Nat.add_comm]

namespace Contents

theorem resize_front (front back : Bytes) : resize (front ++ back) front.length = front := by
  simp [resize]

theorem overwrite_end (contents data : Bytes) :
    overwrite contents contents.length data = contents ++ data := by
  unfold overwrite
  split
  next empty => simp [empty]
  next =>
    have gone : contents.drop (contents.length + data.length) = [] :=
      List.drop_of_length_le (Nat.le_add_right _ _)
    simp [resize, gone]

end Contents

namespace HeldChain

def files (chain : HeldChain) : Files :=
  ⟨blocksImage chain.first chain.blocks, indexImage chain.first chain.blocks⟩

structure Recorded (chain : HeldChain) : Prop where
  sound : chain.Sound
  short : ∀ block ∈ chain.blocks, block.encode.length < 0x100000000
  starts : chain.starts = recordStarts 0 (chain.blocks.map recordLength)

theorem empty_recorded {first : Nat} (low : first < 0x100000000) : (empty first).Recorded :=
  ⟨empty_sound low, by simp [empty], rfl⟩

variable {chain : HeldChain}

theorem Recorded.endOffset_eq (recorded : chain.Recorded) :
    chain.endOffset = chain.files.blocks.length := by
  rw [HeldChain.endOffset_eq recorded.starts, files, length_blocksImage]

theorem Sound.indexLength_eq (sound : chain.Sound) :
    chain.indexLength = chain.files.index.length := by
  rw [indexLength, files, length_indexImage sound.follows]

theorem Recorded.below {height : Nat} (recorded : chain.Recorded) (within : height ≤ chain.next) :
    (chain.below height).Recorded := by
  refine ⟨below_sound recorded.sound within, ?short, ?starts⟩
  case short => exact fun block member => recorded.short block (List.mem_of_mem_take member)
  case starts => simp only [HeldChain.below, recorded.starts, take_recordStarts, List.map_take]

theorem Recorded.push {block : CompactBlock} (recorded : chain.Recorded)
    (fits : Fits chain.next chain.blocks.getLast? block) (short : block.encode.length < 0x100000000) :
    (chain.push block (recordLength block)).Recorded := by
  refine ⟨push_sound recorded.sound fits (Nat.le_add_right _ _), ?short, ?starts⟩
  case short =>
    intro other member
    cases List.mem_append.mp member with
    | inl old => exact recorded.short other old
    | inr new => rw [List.mem_singleton.mp new]; exact short
  case starts =>
    simp only [HeldChain.push, HeldChain.endOffset_eq recorded.starts, recorded.starts,
      List.map_append, List.map_singleton, recordStarts_concat]

theorem files_below (chain : HeldChain) (height : Nat) :
    ∃ tail rest, chain.files =
      ⟨(chain.below height).files.blocks ++ tail, (chain.below height).files.index ++ rest⟩ := by
  have blocks := blocksImage_append chain.first (chain.blocks.take (height - chain.first))
    (chain.blocks.drop (height - chain.first))
  have index := indexImage_append chain.first (chain.blocks.take (height - chain.first))
    (chain.blocks.drop (height - chain.first))
  rw [List.take_append_drop] at blocks index
  exact ⟨_, _, by rw [files, blocks, index]; rfl⟩

theorem files_push {block : CompactBlock} {length : Nat} (sound : chain.Sound) :
    (chain.push block length).files =
      ⟨chain.files.blocks ++ recordImage chain.next block,
        chain.files.index ++ entryImage chain.next block⟩ := by
  simp [files, HeldChain.push, blocksImage_append, indexImage_append, sound.next_eq, blocksImage,
    indexImage]

end HeldChain

end CompactChain.Store
