import CompactChain.Proofs.Store.Mirrored

set_option autoImplicit false

namespace CompactChain.Store

section Overwrite

variable {contents data : Bytes} {offset : Nat}

theorem Contents.overwrite_inside (inside : offset + data.length ≤ contents.length) :
    Contents.overwrite contents offset data =
      contents.take offset ++ data ++ contents.drop (offset + data.length) := by
  have within : offset ≤ contents.length := by omega
  rw [Contents.overwrite]
  split
  next empty => simp [empty]
  next => simp only [Contents.resize, Nat.sub_eq_zero_of_le within, List.replicate_zero, List.append_nil]

theorem Contents.length_overwrite (inside : offset + data.length ≤ contents.length) :
    (Contents.overwrite contents offset data).length = contents.length := by
  simp only [Contents.overwrite_inside inside, List.length_append, List.length_take, List.length_drop]
  omega

theorem Contents.take_overwrite {count : Nat} (inside : offset + data.length ≤ contents.length)
    (below : count ≤ offset) :
    (Contents.overwrite contents offset data).take count = contents.take count := by
  have short : count ≤ (contents.take offset).length := by
    rw [List.length_take]
    omega
  rw [Contents.overwrite_inside inside, List.append_assoc, List.take_append_of_le_length short,
    List.take_take, Nat.min_eq_left below]

theorem Contents.drop_overwrite {count : Nat} (inside : offset + data.length ≤ contents.length)
    (above : offset + data.length ≤ count) :
    (Contents.overwrite contents offset data).drop count = contents.drop count := by
  have front : (contents.take offset ++ data).length = offset + data.length := by
    rw [List.length_append, List.length_take_of_le (by omega)]
  obtain ⟨further, rfl⟩ := Nat.exists_eq_add_of_le above
  rw [Contents.overwrite_inside inside, ← List.drop_drop, List.drop_left' front, List.drop_drop]

theorem slice_overwrite (inside : offset + data.length ≤ contents.length) :
    slice (Contents.overwrite contents offset data) offset data.length = data := by
  have front : (contents.take offset).length = offset := List.length_take_of_le (by omega)
  rw [slice, Contents.overwrite_inside inside, List.append_assoc, List.drop_left' front,
    List.take_left' rfl]

theorem slice_overwrite_apart {start length : Nat} (inside : offset + data.length ≤ contents.length)
    (apart : start + length ≤ offset ∨ offset + data.length ≤ start) :
    slice (Contents.overwrite contents offset data) start length = slice contents start length := by
  cases apart with
  | inl below =>
    rw [← slice_take (Nat.le_refl (start + length)), Contents.take_overwrite inside below,
      slice_take (Nat.le_refl (start + length))]
  | inr above => rw [slice, slice, Contents.drop_overwrite inside above]

end Overwrite

inductive Part where
  | entry
  | checksum
  | body
  deriving DecidableEq

namespace Part

variable {chain : HeldChain} {files : Files} {place : Nat}

def file : Part → FileName
  | entry => .index
  | checksum => .blocks
  | body => .blocks

def offset (chain : HeldChain) (place : Nat) : Part → Nat
  | entry => 41 * place
  | checksum => chain.recordOffset place
  | body => chain.recordOffset place + 32

def length (chain : HeldChain) (place : Nat) : Part → Nat
  | entry => 41
  | checksum => 32
  | body => chain.recordOffset (place + 1) - (chain.recordOffset place + 32)

def bytes (chain : HeldChain) (files : Files) (place : Nat) (part : Part) : Bytes :=
  slice (files.get part.file) (part.offset chain place) (part.length chain place)

def replace (chain : HeldChain) (files : Files) (place : Nat) (data : Bytes) (part : Part) : Files :=
  files.modify part.file fun contents => Contents.overwrite contents (part.offset chain place) data

end Part

/-- Where there is a record to read, a body that has the digest of the one that was written is that one. -/
def Discerned (first place : Nat) (files other : Files) : Prop :=
  recordStart other.index (place + 1) ≤ other.blocks.length →
    Blake2b.digest (LittleEndian.ofNat 8 (first + place) ++ bodyAt other place) =
      Blake2b.digest (LittleEndian.ofNat 8 (first + place) ++ bodyAt files place) →
    bodyAt other place = bodyAt files place

section Attests

variable {first place : Nat} {files other : Files} {previous below : Option CompactBlock}
  {block written : CompactBlock}

theorem Attested.at {blocks : List CompactBlock} (attested : Attested first files 0 none blocks)
    (within : place < blocks.length) :
    Attests first files place (blocks.take place).getLast? blocks[place] := by
  rw [← List.take_append_drop place blocks, attested_append, List.drop_eq_getElem_cons within,
    List.length_take_of_le (Nat.le_of_lt within), Nat.zero_add, Option.or_none] at attested
  exact attested.2.1

theorem slice_add (contents : Bytes) (offset length count : Nat) :
    slice contents offset (length + count) =
      slice contents offset length ++ slice contents (offset + length) count := by
  rw [slice, slice, slice, List.take_add, List.drop_drop]

theorem Attests.length_body (attests : Attests first files place previous block) :
    (bodyAt files place).length = bodyLengthAt files.index place := by
  have inside := attests.inside
  rw [recordStart] at inside
  exact length_slice (by omega)

theorem Attests.tag_slice (attests : Attests first files place previous block) :
    slice files.index (41 * place) 1 = [1] := by
  have whole := attests.whole
  have inside : 41 * place < files.index.length := by omega
  have tag := attests.tag
  rw [List.getElem?_eq_getElem inside, Option.some.injEq] at tag
  rw [slice, List.drop_eq_getElem_cons inside, tag]
  rfl

-- Of every field of an entry something else is known: the tag and the height, the length of the body,
-- and the hash of the block that the body spells.
theorem Attests.entry_eq (attests : Attests first other place previous block)
    (before : Attests first files place below written) (body : bodyAt other place = bodyAt files place) :
    slice other.index (41 * place) 41 = slice files.index (41 * place) 41 := by
  have whole := attests.whole
  have wholeBefore := before.whole
  have height : slice other.index (41 * place + 1) 4 = slice files.index (41 * place + 1) 4 := by
    apply LittleEndian.toNat_injective
    next => rw [length_slice (by omega), length_slice (by omega)]
    next => rw [attests.height, before.height]
  have length : slice other.index (41 * place + 5) 4 = slice files.index (41 * place + 5) 4 := by
    apply LittleEndian.toNat_injective
    next => rw [length_slice (by omega), length_slice (by omega)]
    next =>
      have told : bodyLengthAt other.index place = bodyLengthAt files.index place := by
        rw [← attests.length_body, ← before.length_body, body]
      exact told
  have same : block = written := by
    have decoded := attests.decoded
    rw [body, before.decoded] at decoded
    exact (Except.ok.inj decoded).symm
  have hash : slice other.index (41 * place + 9) 32 = slice files.index (41 * place + 9) 32 := by
    rw [← attests.hash, ← before.hash, same]
  have fields (index : Bytes) : slice index (41 * place) 41 =
      slice index (41 * place) 1 ++ (slice index (41 * place + 1) 4 ++
        (slice index (41 * place + 5) 4 ++ slice index (41 * place + 9) 32)) := by
    rw [slice_add index (41 * place) 1 40, slice_add index (41 * place + 1) 4 36,
      slice_add index (41 * place + 1 + 4) 4 32]
  rw [fields, fields, attests.tag_slice, before.tag_slice, height, length, hash]

end Attests

namespace HeldChain.MirroredBy

variable {chain : HeldChain} {files : Files} {place : Nat} {data : Bytes} {part : Part}

theorem recordOffset_succ (mirrored : chain.MirroredBy files) (within : place < chain.blocks.length) :
    chain.recordOffset (place + 1) =
      chain.recordOffset place + (32 + bodyLengthAt files.index place) := by
  rw [mirrored.recordOffset_eq within, mirrored.recordOffset_eq (Nat.le_of_lt within), recordStart]

theorem inside (mirrored : chain.MirroredBy files) (within : place < chain.blocks.length) (part : Part) :
    part.offset chain place + part.length chain place ≤ (files.get part.file).length := by
  have entries := mirrored.entries
  have record := (mirrored.longest.attested.at within).inside
  have stop := mirrored.recordOffset_succ within
  have above : chain.recordOffset (place + 1) = recordStart files.index (place + 1) :=
    mirrored.recordOffset_eq within
  rw [← above] at record
  cases part
  all_goals
    simp only [Part.offset, Part.length, Part.file, Files.get]
    omega

theorem bytes_body (mirrored : chain.MirroredBy files) (within : place < chain.blocks.length)
    (other : Files) (same : other.index = files.index) :
    Part.body.bytes chain other place = bodyAt other place := by
  have start := mirrored.recordOffset_eq (Nat.le_of_lt within)
  have stop := mirrored.recordOffset_succ within
  rw [← Nat.add_assoc] at stop
  simp only [Part.bytes, Part.offset, Part.length, Part.file, Files.get, bodyAt, same, stop,
    Nat.add_sub_cancel_left, start]

variable (mirrored : chain.MirroredBy files) (within : place < chain.blocks.length)
  (length : data.length = part.length chain place)

include mirrored within length

theorem length_index_replace :
    (part.replace chain files place data).index.length = files.index.length := by
  have inside := mirrored.inside within part
  rw [← length] at inside
  cases part with
  | entry => exact Contents.length_overwrite inside
  | checksum => rfl
  | body => rfl

theorem cutAt_replace : cutAt (part.replace chain files place data) place = cutAt files place := by
  have inside := mirrored.inside within part
  rw [← length] at inside
  have start := mirrored.recordOffset_eq (Nat.le_of_lt within)
  cases part with
  | entry => exact cutAt_congr (Contents.take_overwrite inside (Nat.le_refl _)) rfl
  | checksum =>
    refine cutAt_congr rfl ?_
    rw [← start]
    exact Contents.take_overwrite inside (Nat.le_refl _)
  | body =>
    refine cutAt_congr rfl ?_
    rw [← start]
    exact Contents.take_overwrite inside (Nat.le_add_right _ 32)

theorem bytes_replace :
    part.bytes chain (part.replace chain files place data) place = data := by
  have inside := mirrored.inside within part
  rw [← length] at inside
  have written := slice_overwrite inside
  rw [length] at written
  cases part with
  | entry => exact written
  | checksum => exact written
  | body => exact written

-- What is known of the other parts tells which bytes the one must have that was written over.
theorem not_attests_replace (changed : data ≠ part.bytes chain files place)
    (discerned : Discerned chain.first place files (part.replace chain files place data))
    (previous : Option CompactBlock) (block : CompactBlock) :
    ¬ Attests chain.first (part.replace chain files place data) place previous block := by
  intro attests
  have before := mirrored.longest.attested.at within
  have start := mirrored.recordOffset_eq (Nat.le_of_lt within)
  have inside := mirrored.inside within part
  rw [← length] at inside
  have same := mirrored.cutAt_replace within length
  have front : recordStart (part.replace chain files place data).index place =
      recordStart files.index place := recordStart_congr (congrArg Files.index same)
  have checksum := attests.checksum
  rw [front, ← start] at checksum
  have checksumBefore := before.checksum
  rw [← start] at checksumBefore
  apply changed
  rw [← mirrored.bytes_replace within length]
  cases part with
  | entry =>
    have body := discerned attests.inside (checksum.symm.trans checksumBefore)
    exact attests.entry_eq before body
  | checksum =>
    have above : chain.recordOffset place + data.length ≤ chain.recordOffset place + 32 :=
      Nat.add_le_add_left (Nat.le_of_eq length) _
    have body : bodyAt (Part.checksum.replace chain files place data) place = bodyAt files place := by
      have read := mirrored.bytes_body within (Part.checksum.replace chain files place data) rfl
      rw [← read, ← mirrored.bytes_body within files rfl]
      exact slice_overwrite_apart inside (.inr above)
    rw [body] at checksum
    exact checksum.trans checksumBefore.symm
  | body =>
    have digest : slice (Part.body.replace chain files place data).blocks (chain.recordOffset place) 32 =
        slice files.blocks (chain.recordOffset place) 32 :=
      slice_overwrite_apart inside (.inl (Nat.le_refl _))
    rw [digest, checksumBefore] at checksum
    have read := mirrored.bytes_body within (Part.body.replace chain files place data) rfl
    rw [read, mirrored.bytes_body within files rfl]
    exact discerned attests.inside checksum.symm

theorem recover_replace (changed : data ≠ part.bytes chain files place)
    (discerned : Discerned chain.first place files (part.replace chain files place data)) :
    let tampered := part.replace chain files place data
    let recovered := recover chain.first tampered
    recovered.Longest chain.first tampered ∧ recovered.blocks.length = place ∧
      recovered.chain chain.first = chain.below (chain.first + place) ∧
      ∃ damage, recovered.damage = some (chain.first + place, damage) := by
  obtain ⟨longest, counted, kept⟩ := mirrored.recover_front (Nat.le_of_lt within)
    (mirrored.cutAt_replace within length) (mirrored.not_attests_replace within length changed discerned)
  have entries := mirrored.length_index_replace within length
  rw [mirrored.entries] at entries
  refine ⟨longest, counted, kept, (longest.damaged_iff _).mpr ⟨?_, by rw [counted]⟩⟩
  rw [entries, counted]
  omega

end HeldChain.MirroredBy

end CompactChain.Store
